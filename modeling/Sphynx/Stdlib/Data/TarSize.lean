import Mathlib.Data.Int.ModEq
import Mathlib.RingTheory.Coprime.Lemmas
import Mathlib.Tactic.IntervalCases
import Mathlib.Tactic.Linarith
import Sphynx.Stdlib.Data.TarLookup

/-!
# Declared sizes

What `octal_to_decimal` makes of the size fields that the ustar format allows, and whether the
extents that `get_file_tar` returns lie inside the archive.
-/

namespace Sphynx.Stdlib
open Lib Dev External

/-! ## Legal size fields -/

/-- A size field of the ustar format: octal digits with a terminator, NUL or space, and nothing but
terminators behind it. -/
structure LegalSize where
  digits : List (Fin 8)
  terminator : UInt8
  tail : List UInt8
  some_digits : digits ≠ []
  terminated : terminator = 0 ∨ terminator = chr ' '
  tail_terminated : ∀ c ∈ tail, c = 0 ∨ c = chr ' '
  fills : digits.length + 1 + tail.length = 12

def octalChar (d : Fin 8) : UInt8 := chr '0' + d.val.toUInt8

namespace LegalSize
variable (f : LegalSize)

def bytes : List UInt8 := f.digits.map octalChar ++ f.terminator :: f.tail

def value : Nat := f.digits.foldl (fun n d => 8 * n + d.val) 0

/-- Both loops obtain the denoted number from every header with this size field, whatever the other
fields and the bytes behind the header are. -/
def DecodedRight : Prop :=
  ∀ (h : TarHeader) (buffer rest : List UInt8) (ptr : Nat), h.size.val = f.bytes →
    buffer.drop ptr = h.bytes ++ rest →
    ∃ s, octalToDecimal ((buffer.drop ptr).drop sizeField) = .ok s ∧ s.toNat = f.value

end LegalSize

theorem octalLoop_octalChar (d : Fin 8) (result : UInt32) (rest : List UInt8) :
    octalLoop result (octalChar d :: rest) = octalLoop ((result <<< 3) + d.val.toUInt32) rest := by
  obtain ⟨nonzero, value⟩ := octal_digit d.val d.isLt
  rw [octalLoop, octalChar, if_neg nonzero, value]

theorem shift_digit_toNat (result : UInt32) (d : Fin 8) :
    ((result <<< 3) + d.val.toUInt32).toNat = (8 * result.toNat + d.val) % 2 ^ 32 := by
  have small := d.isLt
  rw [UInt32.toNat_add, UInt32.toNat_shiftLeft, Nat.toUInt32_eq, UInt32.toNat_ofNat']
  simp only [UInt32.reduceToNat, Nat.reduceMod, Nat.shiftLeft_eq]
  omega

theorem octalLoop_digits (digits : List (Fin 8)) (n : Nat) (result : UInt32)
    (start : result.toNat = n % 2 ^ 32) :
    ∃ s, (∀ rest, octalLoop result (digits.map octalChar ++ rest) = octalLoop s rest) ∧
      s.toNat = digits.foldl (fun n d => 8 * n + d.val) n % 2 ^ 32 := by
  induction digits generalizing n result with
  | nil => exact ⟨result, fun _ => rfl, start⟩
  | cons d digits ih =>
      have next : ((result <<< 3) + d.val.toUInt32).toNat = (8 * n + d.val) % 2 ^ 32 := by
        rw [shift_digit_toNat, start]
        omega
      obtain ⟨s, run, value⟩ := ih _ _ next
      refine ⟨s, fun rest => ?_, value⟩
      rw [List.map_cons, List.cons_append, octalLoop_octalChar, run]

theorem space_toNat (result : UInt32) :
    (((result <<< 3) + ((chr ' ').toInt8.toInt32 - 48).toUInt32).toNat : ℤ) ≡
      8 * result.toNat - 16 [ZMOD 2 ^ 32] := by
  have space : ((chr ' ').toInt8.toInt32 - 48).toUInt32.toNat = 2 ^ 32 - 16 := by decide
  rw [UInt32.toNat_add, UInt32.toNat_shiftLeft, space]
  simp only [UInt32.reduceToNat, Nat.reduceMod, Nat.shiftLeft_eq, Int.ModEq]
  omega

/-- Each space turns the number `n` into `8 * n - 16`, which has its fixed point at `16 / 7`. -/
theorem octalLoop_spaces (count : Nat) (result : UInt32) :
    ∃ s, (∀ rest, octalLoop result (List.replicate count (chr ' ') ++ rest) = octalLoop s rest) ∧
      7 * (s.toNat : ℤ) - 16 ≡ 8 ^ count * (7 * result.toNat - 16) [ZMOD 2 ^ 32] := by
  induction count generalizing result with
  | zero => exact ⟨result, fun _ => rfl, by rw [pow_zero, one_mul]⟩
  | succ count ih =>
      have nonzero : chr ' ' ≠ 0 := by decide
      obtain ⟨s, run, distance⟩ := ih ((result <<< 3) + ((chr ' ').toInt8.toInt32 - 48).toUInt32)
      refine ⟨s, fun rest => ?_, distance.trans ?_⟩
      · rw [List.replicate_succ, List.cons_append, octalLoop, if_neg nonzero]
        exact run rest
      · have step := ((space_toNat result).mul_left 7).sub_right 16
        have product := step.mul_left (8 ^ count)
        have regroup : (8 : ℤ) ^ count * (7 * (8 * result.toNat - 16) - 16) =
            8 ^ (count + 1) * (7 * result.toNat - 16) := by ring
        rw [← regroup]
        exact product

theorem fixed_of_spaces {count : Nat} (some_spaces : 0 < count) {n : ℤ}
    (same : n ≡ 8 ^ count * n [ZMOD 2 ^ 32]) : (2 ^ 32 : ℤ) ∣ n := by
  obtain ⟨count, rfl⟩ : ∃ k, count = k + 1 := ⟨count - 1, by omega⟩
  have product : (2 ^ 32 : ℤ) ∣ (8 ^ (count + 1) - 1) * n := by
    have difference := same.dvd
    rwa [← sub_one_mul] at difference
  have odd : IsCoprime (2 : ℤ) (8 ^ (count + 1) - 1) := ⟨4 * 8 ^ count, -1, by ring⟩
  exact odd.pow_left.dvd_of_dvd_mul_left product

theorem not_fixed_of_lt {n : Nat} (small : n < 8 ^ 10) : ¬ (2 ^ 32 : ℤ) ∣ 7 * n - 16 := by
  rintro ⟨k, fixed⟩
  have below : (n : ℤ) < 8 ^ 10 := by exact_mod_cast small
  have low : -1 < k := by linarith
  have high : k < 2 := by linarith
  interval_cases k
  · omega
  · omega

namespace LegalSize
variable (f : LegalSize)

theorem length_bytes : f.bytes.length = 12 := by
  rw [bytes, List.length_append, List.length_map, List.length_cons, ← f.fills]
  omega

theorem foldl_lt (digits : List (Fin 8)) (n : Nat) :
    digits.foldl (fun n d => 8 * n + d.val) n < (n + 1) * 8 ^ digits.length := by
  induction digits generalizing n with
  | nil => simp
  | cons d digits ih =>
      have small := d.isLt
      have bound := ih (8 * n + d.val)
      have wider : (8 * n + d.val + 1) * 8 ^ digits.length ≤ (8 * n + 8) * 8 ^ digits.length :=
        Nat.mul_le_mul_right _ (by omega)
      have regroup : (8 * n + 8) * 8 ^ digits.length = (n + 1) * 8 ^ (digits.length + 1) := by ring
      rw [List.foldl_cons, List.length_cons, ← regroup]
      omega

theorem value_lt : f.value < 8 ^ f.digits.length := by
  have bound := foldl_lt f.digits 0
  rwa [Nat.zero_add, Nat.one_mul] at bound

theorem octalToDecimal_bytes :
    ∃ s, (∀ rest, octalToDecimal (f.bytes ++ rest) = octalLoop s (f.terminator :: f.tail ++ rest)) ∧
      s.toNat = f.value % 2 ^ 32 := by
  obtain ⟨s, run, value⟩ := octalLoop_digits f.digits 0 0 rfl
  refine ⟨s, fun rest => ?_, value⟩
  rw [octalToDecimal, bytes, List.append_assoc, run]

def header (mtime : Field 12) : TarHeader where
  name := zeroField 100
  mode := zeroField 8
  uid := zeroField 8
  gid := zeroField 8
  size := ⟨f.bytes, f.length_bytes⟩
  mtime := mtime
  chksum := zeroField 8
  typeflag := 0
  linkname := zeroField 100
  magic := zeroField 6
  version := zeroField 2
  uname := zeroField 32
  gname := zeroField 32
  devmajor := zeroField 8
  devminor := zeroField 8
  pathPrefix := zeroField 155
  pad := zeroField 12

variable {f}

theorem DecodedRight.before (right : f.DecodedRight) (mtime : Field 12) :
    ∃ more s, octalToDecimal (f.bytes ++ (mtime.val ++ more)) = .ok s ∧ s.toNat = f.value := by
  have decoded := right (f.header mtime) (f.header mtime).bytes [] 0 rfl (List.append_nil _).symm
  rw [List.drop_zero, TarHeader.bytes_drop_size] at decoded
  obtain ⟨s, run, value⟩ := decoded
  obtain ⟨more, split⟩ : ∃ more, (f.header mtime).afterSize = mtime.val ++ more :=
    ⟨_, by simp only [TarHeader.afterSize, List.append_assoc]; rfl⟩
  rw [split] at run
  exact ⟨more, s, run, value⟩

def digitField (d : Fin 8) : Field 12 := ⟨octalChar d :: List.replicate 11 0, rfl⟩

/-- Spaces up to the end of the field: the digits of the next field are read on. -/
theorem spaces_through_wrong (space : f.terminator = chr ' ') (clean : 0 ∉ f.tail) :
    ¬ f.DecodedRight := by
  intro right
  obtain ⟨s, digits, -⟩ := f.octalToDecimal_bytes
  obtain ⟨r, spaces, -⟩ := octalLoop_spaces (f.tail.length + 1) s
  have tail : f.tail = List.replicate f.tail.length (chr ' ') := by
    apply List.eq_replicate_of_mem
    intro c member
    exact (f.tail_terminated c member).resolve_left fun zero => clean (zero ▸ member)
  have through (rest : List UInt8) : octalToDecimal (f.bytes ++ rest) = octalLoop r rest := by
    rw [digits, space, tail, ← List.replicate_succ]
    exact spaces rest
  have value (d : Fin 8) : ((r <<< 3) + d.val.toUInt32).toNat = f.value := by
    obtain ⟨more, s', run, value⟩ := right.before (digitField d)
    have read : octalLoop r ((digitField d).val ++ more) = .ok ((r <<< 3) + d.val.toUInt32) :=
      octalLoop_octalChar d r _
    rw [through, read] at run
    rw [Except.ok.inj run, value]
  have zero := value 0
  have one := value 1
  rw [shift_digit_toNat] at zero one
  simp only [Fin.val_zero, Fin.val_one] at zero one
  omega

/-- Spaces and then a NUL within the field: the number would have to be the fixed point. -/
theorem spaces_to_nul_wrong (space : f.terminator = chr ' ') (nul : 0 ∈ f.tail) :
    ¬ f.DecodedRight := by
  intro right
  obtain ⟨front, more, split, clean⟩ := List.eq_append_cons_of_mem nul
  have spaces : front = List.replicate front.length (chr ' ') := by
    apply List.eq_replicate_of_mem
    intro c member
    have terminator := f.tail_terminated c (by simp [split, member])
    exact terminator.resolve_left fun zero => clean (zero ▸ member)
  obtain ⟨s, digits, value⟩ := f.octalToDecimal_bytes
  obtain ⟨r, run, distance⟩ := octalLoop_spaces (front.length + 1) s
  obtain ⟨rest, s', decoded, value'⟩ := right.before (zeroField 12)
  have same : r = s' := by
    rw [digits, space, split, spaces, ← List.cons_append, ← List.replicate_succ, List.append_assoc,
      run] at decoded
    exact Except.ok.inj decoded
  have small : f.value < 8 ^ 10 := by
    have length := congrArg List.length split
    rw [List.length_append, List.length_cons] at length
    have fills := f.fills
    have fewer : f.digits.length ≤ 10 := by omega
    exact f.value_lt.trans_le (Nat.pow_le_pow_right (by omega) fewer)
  rw [Nat.mod_eq_of_lt (small.trans (by decide))] at value
  rw [same, value', value] at distance
  exact not_fixed_of_lt small (fixed_of_spaces (Nat.succ_pos _) distance)

theorem DecodedRight.terminator_eq (right : f.DecodedRight) : f.terminator = 0 := by
  apply f.terminated.resolve_right
  intro space
  by_cases nul : 0 ∈ f.tail
  · exact spaces_to_nul_wrong space nul right
  · exact spaces_through_wrong space nul right

end LegalSize

theorem size_decoded_iff (f : LegalSize) :
    f.DecodedRight ↔ f.terminator = 0 ∧ f.value < 2 ^ 32 := by
  obtain ⟨s, digits, value⟩ := f.octalToDecimal_bytes
  have decoded (nul : f.terminator = 0) (rest : List UInt8) :
      octalToDecimal (f.bytes ++ rest) = .ok s := by
    rw [digits, nul, List.cons_append, octalLoop, if_pos rfl]
  constructor
  · intro right
    have nul := right.terminator_eq
    refine ⟨nul, ?_⟩
    obtain ⟨rest, s', run, value'⟩ := right.before (zeroField 12)
    rw [decoded nul] at run
    rw [← value', ← Except.ok.inj run]
    exact s.toNat_lt
  · rintro ⟨nul, small⟩ h buffer rest ptr field here
    refine ⟨s, ?_, by rw [value, Nat.mod_eq_of_lt small]⟩
    have inside : sizeField ≤ h.bytes.length := by
      rw [h.length_bytes]
      decide
    rw [here, List.drop_append_of_le_length inside, h.bytes_drop_size, field, List.append_assoc,
      decoded nul]

/-- The size 1 as `bsdtar` writes it, with a space behind its eleven digits. -/
def spacedOne : LegalSize where
  digits := List.replicate 10 0 ++ [1]
  terminator := chr ' '
  tail := []
  some_digits := by simp
  terminated := Or.inr rfl
  tail_terminated := by simp
  fills := rfl

theorem spacedOne_misread : ¬ spacedOne.DecodedRight := by
  intro right
  obtain ⟨s, run, value⟩ := right (spacedOne.header (zeroField 12))
    (spacedOne.header (zeroField 12)).bytes [] 0 rfl (List.append_nil _).symm
  have misread : octalToDecimal (((spacedOne.header (zeroField 12)).bytes.drop 0).drop sizeField) =
      .ok (8 - 16) := by rfl
  rw [misread] at run
  rw [← Except.ok.inj run] at value
  exact absurd value (by decide)

/-! ## Extents -/

variable {buffer : List UInt8} {size ptr : Nat} {s : UInt32} {t : UInt8} {path : CString}

def File.Inside (file : File) (size : Nat) : Prop :=
  ∀ data, file.data = some data → data + file.size.toNat ≤ size

theorem foundFile_inside : (foundFile ptr s t).Inside size ↔ ptr + 512 + s.toNat ≤ size := by
  constructor
  · intro inside
    exact inside _ rfl
  · intro fits data found
    cases found
    exact fits

theorem Passed.chain (passed : Passed buffer size path ptr) : Chain advanceNat buffer size ptr := by
  induction passed with
  | start => exact .start
  | next _ header _ ih => exact .next ih header

theorem Chain.exact_of_bounded
    (bounded : ∀ ptr s t, Chain exactAdvance buffer size ptr → HeaderAt buffer size ptr s t →
      s.toNat ≤ maxStep)
    (chain : Chain advanceNat buffer size ptr) : Chain exactAdvance buffer size ptr := by
  induction chain with
  | start => exact .start
  | @next ptr s t _ header ih =>
      have small := bounded ptr s t ih header
      rw [(advanceNat_eq_exact_iff s).mpr small]
      exact .next ih header

/-- The first conjunct is exact for each path. The second names archives that are good for all
paths: on the intended course, no header is too large to be stepped over, and the contents that it
declares are there with their padding. -/
theorem extent_inside_iff (buffer : List UInt8) (size : Nat) (path : CString) (after : List UInt8) :
    ((∀ file, Returns buffer size (path.stored after) file → file.Inside size) ↔
      ∀ ptr s t, FoundAt buffer size path ptr → HeaderAt buffer size ptr s t →
        ptr + 512 + s.toNat ≤ size) ∧
    ((∀ ptr s t, Chain exactAdvance buffer size ptr → HeaderAt buffer size ptr s t →
        s.toNat ≤ maxStep ∧ ptr + exactAdvance s ≤ size) →
      ∀ file, Returns buffer size (path.stored after) file → file.Inside size) := by
  have exact_condition : (∀ file, Returns buffer size (path.stored after) file → file.Inside size) ↔
      ∀ ptr s t, FoundAt buffer size path ptr → HeaderAt buffer size ptr s t →
        ptr + 512 + s.toNat ≤ size := by
    constructor
    · intro inside ptr s t found header
      exact foundFile_inside.mp (inside _ (found.returns_header header after))
    · intro fits file returned data extent
      obtain ⟨ptr, found, -⟩ := returned.data_iff.mp extent
      obtain ⟨s, t, header⟩ := found.2.1
      obtain rfl := returned.unique (found.returns_header header after)
      exact foundFile_inside.mpr (fits ptr s t found header) data extent
  refine ⟨exact_condition, fun complete => exact_condition.mpr ?_⟩
  intro ptr s t found header
  have chain := found.1.chain.exact_of_bounded fun ptr s t chain header =>
    (complete ptr s t chain header).1
  have stepped := (complete ptr s t chain header).2
  unfold exactAdvance at stepped
  omega

/-- A file of one byte, cut off behind its header. -/
def cutOffFile : List UInt8 :=
  chr 'a' :: List.replicate 123 0 ++ ascii "00000000001" ++ List.replicate 377 0

theorem cutOffFile_outside :
    ¬ ∀ file, Returns cutOffFile 512 (ascii "a" ++ [0]) file → file.Inside 512 := by
  intro inside
  have returned : Returns cutOffFile 512 (ascii "a" ++ [0]) (foundFile 0 1 0) := ⟨1, [], by rfl⟩
  exact absurd (foundFile_inside.mp (inside _ returned)) (by decide)

end Sphynx.Stdlib

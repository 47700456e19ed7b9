import Sphynx.Lib.Block
import Sphynx.Lib.CInteger
import Sphynx.Lib.LastWrite

/-!
# Bitmap macros (`math_utils.hpp`)

The macros on an observed memory, for a bitmap of `size` bytes at `bitmap` and bit indices of any
integer type, and the set of indices that the bytes stand for.
-/

namespace Sphynx.Stdlib
open Lib Memory

/-- The address of `(bitmap)[index]`. -/
def element (bitmap : Word) (index : CInt) : Word := bitmap + index.toUInt64

/-- The compound assignment `*p = *p op ..` to a `uint8_t`. -/
def assignByte (bus : Bus) (p : Word) (op : CInt → CInt) : Bus :=
  let (byte, bus) := bus.read p
  bus.write p (op (.ofByte byte)).toByte

def bitmapSetBit (bus : Bus) (bitmap : Word) (bitIndex : CInt) : Bus :=
  assignByte bus (element bitmap (bitIndex / 8)) (· ||| (1 <<< (bitIndex % 8)))

def bitmapUnsetBit (bus : Bus) (bitmap : Word) (bitIndex : CInt) : Bus :=
  assignByte bus (element bitmap (bitIndex / 8)) (· &&& ~~~(1 <<< (bitIndex % 8)))

def bitmapReadBit (bus : Bus) (bitmap : Word) (bitIndex : CInt) : CInt × Bus :=
  let (byte, bus) := bus.read (element bitmap (bitIndex / 8))
  (.ofByte byte &&& (1 <<< (bitIndex % 8)), bus)

/-- The turns of `for (size_t i = 0; i < size; i++)` that are left. -/
def bitmapClearLoop (bus : Bus) (bitmap i : Word) : Nat → Bus
  | 0 => bus
  | turns + 1 => bitmapClearLoop (bus.write (bitmap + i) 0) bitmap (i + 1) turns

def bitmapClear (bus : Bus) (bitmap size : Word) : Bus :=
  bitmapClearLoop bus bitmap 0 size.toNat

structure BitIndex (size : Word) where
  index : CInt
  nonneg : 0 ≤ index.value
  inside : index.value < 8 * size.toNat

namespace BitIndex
variable {size : Word} (i : BitIndex size)

def number : Nat := i.index.value.toNat

theorem value_eq : i.index.value = i.number := (Int.toNat_of_nonneg i.nonneg).symm

theorem number_lt : i.number < 8 * size.toNat := by
  have inside := i.inside
  rw [i.value_eq] at inside
  exact_mod_cast inside

theorem remainder : (i.index % 8).value = (i.number % 8 : Nat) :=
  CInt.value_mod i.value_eq (by decide)

end BitIndex

inductive BitmapOp (size : Word) where
  | set (i : BitIndex size)
  | unset (i : BitIndex size)
  | clear

namespace BitmapOp
variable {size : Word}

def run (bitmap : Word) (bus : Bus) : BitmapOp size → Bus
  | .set i => bitmapSetBit bus bitmap i.index
  | .unset i => bitmapUnsetBit bus bitmap i.index
  | .clear => bitmapClear bus bitmap size

def Concerns (n : Nat) : BitmapOp size → Prop
  | .set i | .unset i => i.number = n
  | .clear => True

/-- What the operation makes of bit `n`. -/
def written : BitmapOp size → Nat → Option Bool
  | .set i, n => if i.number = n then some true else none
  | .unset i, n => if i.number = n then some false else none
  | .clear, _ => some false

end BitmapOp

/-! ## Bits in memory -/

def byteAddress (bitmap : Word) (n : Nat) : Word := bitmap + BitVec.ofNat 64 (n / 8)

def bit (mem : Memory) (bitmap : Word) (n : Nat) : Bool := (mem (byteAddress bitmap n)).getLsbD (n % 8)

variable {size : Word} {bus : Bus} {bitmap : Word} {n m : Nat}

theorem element_eq (i : BitIndex size) : element bitmap (i.index / 8) = byteAddress bitmap i.number := by
  have quotient : (i.index / 8).toUInt64.toNat = i.number / 8 :=
    CInt.toUInt64_div i.value_eq (by decide)
  rw [element, byteAddress, ← quotient, BitVec.ofNat_toNat, BitVec.setWidth_eq]

theorem byteAddress_inj (n_inside : n < 8 * size.toNat) (m_inside : m < 8 * size.toNat) :
    byteAddress bitmap n = byteAddress bitmap m ↔ n / 8 = m / 8 := by
  have bound := size.isLt
  constructor
  · intro same
    have left := sub_toNat_of_lt bitmap (n := n / 8) (by omega)
    have right := sub_toNat_of_lt bitmap (n := m / 8) (by omega)
    change (byteAddress bitmap n - bitmap).toNat = n / 8 at left
    rw [same] at left
    exact left.symm.trans right
  · intro same
    rw [byteAddress, byteAddress, same]

theorem byteAddress_inRange (inside : n < 8 * size.toNat) :
    InRange bitmap size.toNat (byteAddress bitmap n) := by
  have bound := size.isLt
  rw [InRange, byteAddress, sub_toNat_of_lt bitmap (by omega)]
  omega

/-! ## What one operation does -/

theorem bit_assignByte {op : CInt → CInt} {v : Bool} (i : BitIndex size)
    (inside : n < 8 * size.toNat)
    (assigns : ∀ byte j, j < 8 →
      (op (.ofByte byte)).toByte.getLsbD j = if j = i.number % 8 then v else byte.getLsbD j) :
    bit (assignByte bus (element bitmap (i.index / 8)) op).mem bitmap n =
      if i.number = n then v else bit bus.mem bitmap n := by
  have mem : (assignByte bus (element bitmap (i.index / 8)) op).mem =
      bus.mem.set (byteAddress bitmap i.number)
        (op (.ofByte (bus.mem (byteAddress bitmap i.number)))).toByte := by
    rw [element_eq]
    rfl
  rw [bit, mem]
  by_cases same : n / 8 = i.number / 8
  · have address : byteAddress bitmap n = byteAddress bitmap i.number :=
      (byteAddress_inj inside i.number_lt).mpr same
    have here : n % 8 = i.number % 8 ↔ i.number = n := by omega
    rw [bit, address, Memory.set, if_pos rfl, assigns _ _ (Nat.mod_lt n (by decide))]
    simp only [here]
  · have apart : byteAddress bitmap n ≠ byteAddress bitmap i.number :=
      fun address => same ((byteAddress_inj inside i.number_lt).mp address)
    have other : i.number ≠ n := by
      rintro rfl
      exact same rfl
    rw [set_of_ne _ _ apart, if_neg other, bit]

theorem bitmapClearLoop_mem (bus : Bus) (bitmap i : Word) {turns : Nat} (fits : turns ≤ 2 ^ 64) :
    (bitmapClearLoop bus bitmap i turns).mem =
      bus.mem.place (bitmap + i) (List.replicate turns 0) := by
  induction turns generalizing bus i with
  | zero => rfl
  | succ turns ih =>
      have short : (List.replicate turns (0 : BitVec 8)).length < 2 ^ 64 := by
        rw [List.length_replicate]
        omega
      rw [bitmapClearLoop, ih _ _ (by omega), ← BitVec.add_assoc, List.replicate_succ, ← place_cons short]
      rfl

theorem bitmapClearLoop_writes (bus : Bus) (bitmap i : Word) (turns : Nat) :
    (bitmapClearLoop bus bitmap i turns).writes = bus.writes ++ addresses (bitmap + i) turns := by
  induction turns generalizing bus i with
  | zero => rw [addresses, List.append_nil, bitmapClearLoop]
  | succ turns ih =>
      rw [bitmapClearLoop, ih, ← BitVec.add_assoc, addresses, List.append_cons]
      rfl

theorem bitmapClear_mem (bus : Bus) (bitmap size : Word) :
    (bitmapClear bus bitmap size).mem = bus.mem.place bitmap (List.replicate size.toNat 0) := by
  have start : bitmap + 0 = bitmap := BitVec.add_zero bitmap
  rw [bitmapClear, bitmapClearLoop_mem bus bitmap 0 (Nat.le_of_lt size.isLt), start]

theorem bitmapClear_writes (bus : Bus) (bitmap size : Word) :
    (bitmapClear bus bitmap size).writes = bus.writes ++ addresses bitmap size.toNat := by
  have start : bitmap + 0 = bitmap := BitVec.add_zero bitmap
  rw [bitmapClear, bitmapClearLoop_writes, start]

theorem bit_clear (inside : n < 8 * size.toNat) :
    bit (bitmapClear bus bitmap size).mem bitmap n = false := by
  have bound := size.isLt
  have within : n / 8 < (List.replicate size.toNat (0 : BitVec 8)).length := by
    rw [List.length_replicate]
    omega
  rw [bit, bitmapClear_mem, byteAddress, place_add within (by rw [List.length_replicate]; omega),
    List.getElem_replicate]
  exact BitVec.getLsbD_zero

namespace BitmapOp

theorem getD_written {p : Prop} [Decidable p] (v w : Bool) :
    (if p then some v else none).getD w = if p then v else w := by
  split_ifs <;> rfl

theorem bit_run (op : BitmapOp size) (bus : Bus) (bitmap : Word) (inside : n < 8 * size.toNat) :
    bit (op.run bitmap bus).mem bitmap n = (op.written n).getD (bit bus.mem bitmap n) := by
  cases op with
  | set i =>
      have assigns (byte : BitVec 8) (j : Nat) (small : j < 8) :
          (CInt.ofByte byte ||| (1 <<< (i.index % 8))).toByte.getLsbD j =
            if j = i.number % 8 then true else byte.getLsbD j := by
        rw [CInt.or_bit byte i.remainder small]
        by_cases here : j = i.number % 8 <;> simp [here]
      rw [written, getD_written]
      exact bit_assignByte i inside assigns
  | unset i =>
      have assigns (byte : BitVec 8) (j : Nat) (small : j < 8) :
          (CInt.ofByte byte &&& ~~~(1 <<< (i.index % 8))).toByte.getLsbD j =
            if j = i.number % 8 then false else byte.getLsbD j := by
        rw [CInt.and_not_bit byte i.remainder small]
        by_cases here : j = i.number % 8 <;> simp [here]
      rw [written, getD_written]
      exact bit_assignByte i inside assigns
  | clear => exact bit_clear inside

theorem run_writes (op : BitmapOp size) (bus : Bus) (bitmap : Word) :
    ∃ writes, (op.run bitmap bus).writes = bus.writes ++ writes ∧
      ∀ x ∈ writes, InRange bitmap size.toNat x := by
  have single (i : BitIndex size) : ∀ x ∈ [element bitmap (i.index / 8)],
      InRange bitmap size.toNat x := by
    intro x member
    rw [List.mem_singleton.mp member, element_eq]
    exact byteAddress_inRange i.number_lt
  cases op with
  | set i => exact ⟨_, rfl, single i⟩
  | unset i => exact ⟨_, rfl, single i⟩
  | clear =>
      refine ⟨_, bitmapClear_writes bus bitmap size, fun x member => ?_⟩
      exact (mem_addresses (Nat.le_of_lt size.isLt)).mp member

theorem run_mem (op : BitmapOp size) (bus : Bus) (bitmap : Word) {x : Word}
    (outside : ¬ InRange bitmap size.toNat x) : (op.run bitmap bus).mem x = bus.mem x := by
  have single (i : BitIndex size) : x ≠ element bitmap (i.index / 8) := by
    rintro rfl
    rw [element_eq] at outside
    exact outside (byteAddress_inRange i.number_lt)
  cases op with
  | set i => exact set_of_ne _ _ (single i)
  | unset i => exact set_of_ne _ _ (single i)
  | clear =>
      change (bitmapClear bus bitmap size).mem x = _
      rw [bitmapClear_mem]
      exact place_of_not_inRange (by rwa [List.length_replicate])

theorem written_eq_none_iff (op : BitmapOp size) : op.written n = none ↔ ¬ op.Concerns n := by
  cases op <;> simp [written, Concerns]

theorem written_eq_true_iff (op : BitmapOp size) :
    op.written n = some true ↔ ∃ j, op = .set j ∧ j.number = n := by
  cases op <;> simp [written]

end BitmapOp

/-! ## Runs -/

variable {ops : List (BitmapOp size)}

def runOps (bus : Bus) (bitmap : Word) (ops : List (BitmapOp size)) : Bus :=
  ops.foldl (BitmapOp.run bitmap) bus

theorem bit_runOps (bus : Bus) (bitmap : Word) (ops : List (BitmapOp size))
    (inside : n < 8 * size.toNat) :
    bit (runOps bus bitmap ops).mem bitmap n =
      (lastWrite BitmapOp.written ops n).getD (bit bus.mem bitmap n) :=
  view_foldl (fun bus : Bus => bit bus.mem bitmap n) (fun bus op _ => op.bit_run bus bitmap inside) bus

theorem runOps_writes (bus : Bus) (bitmap : Word) (ops : List (BitmapOp size)) :
    ∃ writes, (runOps bus bitmap ops).writes = bus.writes ++ writes ∧
      ∀ x ∈ writes, InRange bitmap size.toNat x := by
  induction ops generalizing bus with
  | nil => exact ⟨[], (List.append_nil _).symm, by simp⟩
  | cons op ops ih =>
      obtain ⟨first, wrote, within⟩ := op.run_writes bus bitmap
      obtain ⟨later, wrote', within'⟩ := ih (op.run bitmap bus)
      refine ⟨first ++ later, ?_, fun x member => ?_⟩
      · rw [← List.append_assoc, ← wrote, ← wrote']
        rfl
      · exact (List.mem_append.mp member).elim (within x) (within' x)

theorem runOps_mem (bus : Bus) (bitmap : Word) (ops : List (BitmapOp size)) {x : Word}
    (outside : ¬ InRange bitmap size.toNat x) : (runOps bus bitmap ops).mem x = bus.mem x := by
  induction ops generalizing bus with
  | nil => rfl
  | cons op ops ih => exact (ih (op.run bitmap bus)).trans (op.run_mem bus bitmap outside)

theorem bitmapReadBit_ne_zero (bus : Bus) (bitmap : Word) (i : BitIndex size) :
    (bitmapReadBit bus bitmap i.index).1.value ≠ 0 ↔ bit bus.mem bitmap i.number = true := by
  rw [bit, ← element_eq]
  exact CInt.and_bit_ne_zero _ i.remainder (Nat.mod_lt _ (by decide))

def LastSet (ops : List (BitmapOp size)) (n : Nat) : Prop :=
  ∃ before j after, ops = before ++ .set j :: after ∧ j.number = n ∧
    ∀ later ∈ after, ¬ later.Concerns n

theorem lastWrite_eq_true_iff : lastWrite BitmapOp.written ops n = some true ↔ LastSet ops n := by
  simp only [lastWrite_eq_some_iff, BitmapOp.written_eq_none_iff, BitmapOp.written_eq_true_iff]
  constructor
  · rintro ⟨before, _, after, rfl, ⟨j, rfl, same⟩, silent⟩
    exact ⟨before, j, after, rfl, same, silent⟩
  · rintro ⟨before, j, after, rfl, same, silent⟩
    exact ⟨before, .set j, after, rfl, ⟨j, rfl, same⟩, silent⟩

theorem bitmap_tracks_indices (bus : Bus) (bitmap size : Word) (ops : List (BitmapOp size)) :
    (∀ i : BitIndex size,
      (bitmapReadBit (runOps bus bitmap ops) bitmap i.index).1.value ≠ 0 ↔
        LastSet ops i.number ∨
          (∀ op ∈ ops, ¬ op.Concerns i.number) ∧ bit bus.mem bitmap i.number = true) ∧
    (∀ op : BitmapOp size, ∀ bus n, n < 8 * size.toNat → ¬ op.Concerns n →
      bit (op.run bitmap bus).mem bitmap n = bit bus.mem bitmap n) ∧
    (∃ writes, (runOps bus bitmap ops).writes = bus.writes ++ writes ∧
      ∀ x ∈ writes, InRange bitmap size.toNat x) ∧
    ∀ x, ¬ InRange bitmap size.toNat x → (runOps bus bitmap ops).mem x = bus.mem x := by
  refine ⟨fun i => ?_, fun op bus n inside other => ?_, runOps_writes bus bitmap ops,
    fun x => runOps_mem bus bitmap ops⟩
  · rw [bitmapReadBit_ne_zero, bit_runOps bus bitmap ops i.number_lt, Option.getD_eq_iff,
      lastWrite_eq_true_iff, lastWrite_eq_none_iff]
    simp only [BitmapOp.written_eq_none_iff]
  · rw [op.bit_run bus bitmap inside, op.written_eq_none_iff.mpr other]
    rfl

end Sphynx.Stdlib

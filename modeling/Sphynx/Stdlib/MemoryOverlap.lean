import Sphynx.Stdlib.MemoryMove

/-!
# Copies onto their own source (`string.cpp`)

What `memcpy` and `memmove` leave behind for every overlap, across the end of the address space too,
for which pointers they copy, and `memset`.
-/

namespace Sphynx.Stdlib
open Lib Memory

/-- `while (n--) *p++ = static_cast<unsigned char>(c);` -/
def fill (bus : Bus) (p : Word) (c : BitVec 8) : Nat → Bus
  | 0 => bus
  | n + 1 => fill (bus.write p c) (p + 1) c n

def memset (bus : Bus) (d : Word) (c : BitVec 32) (n : Word) : Word × Bus :=
  (d, fill bus d (c.setWidth 8) n.toNat)

variable {bus : Bus} {dest src x : Word} {n i : Nat}

/-! ## Upwards -/

theorem copyForward_frame (fits : n ≤ 2 ^ 64) (outside : ¬ InRange dest n x) :
    (copyForward bus dest src n).mem x = bus.mem x := by
  induction n generalizing bus dest src with
  | zero => rfl
  | succ n ih =>
      rw [inRange_succ (by omega), not_or] at outside
      rw [copyForward, ih (by omega) outside.2, Bus.copy_mem, set_of_ne _ _ outside.1]

/-- A copy that runs into what it wrote repeats the bytes between the two pointers. -/
theorem copyForward_byte (fits : n ≤ 2 ^ 64) (inside : i < n) :
    (copyForward bus dest src n).mem (dest + BitVec.ofNat 64 i) =
      bus.mem (src + BitVec.ofNat 64 (i % (dest - src).toNat)) := by
  induction n generalizing bus dest src i with
  | zero => contradiction
  | succ n ih =>
      cases i with
      | zero =>
          have behind : ¬ InRange (dest + 1) n dest := by
            unfold InRange
            bv_omega
          rw [Nat.zero_mod, BitVec.add_zero, BitVec.add_zero, copyForward,
            copyForward_frame (by omega) behind, Bus.copy_mem]
          exact if_pos rfl
      | succ i =>
          have distance : dest + 1 - (src + 1) = dest - src := by bv_omega
          rw [add_ofNat_succ, copyForward, ih (by omega) (by omega), distance, Bus.copy_mem,
            ← add_ofNat_succ, ← Nat.mod_add_mod]
          have bound := (dest - src).isLt
          -- The byte just written is read again after a remainder of one less than the distance.
          by_cases last : i % (dest - src).toNat + 1 = (dest - src).toNat
          · have reached : src + (dest - src) = dest := by bv_omega
            rw [last, Nat.mod_self, BitVec.add_zero, BitVec.ofNat_toNat, BitVec.setWidth_eq,
              reached]
            exact if_pos rfl
          · have next : (i % (dest - src).toNat + 1) % (dest - src).toNat =
                i % (dest - src).toNat + 1 := by
              cases distance : (dest - src).toNat with
              | zero => exact Nat.mod_zero _
              | succ k =>
                  rw [distance] at last
                  have below : i % (k + 1) < k + 1 := Nat.mod_lt i (Nat.succ_pos k)
                  exact Nat.mod_eq_of_lt (by omega)
            rw [next]
            apply set_of_ne
            intro reached
            have part := Nat.mod_le i (dest - src).toNat
            have measured := sub_toNat_of_lt src
              (show i % (dest - src).toNat + 1 < 2 ^ 64 by omega)
            rw [reached] at measured
            exact last measured.symm

/-! ## Downwards -/

/-- The same bytes at the opposite addresses, where a loop downwards runs upwards. -/
def flip (mem : Memory) : Memory := fun x => mem (-x)

theorem flip_set (mem : Memory) (a : Word) (v : BitVec 8) :
    flip (mem.set a v) = (flip mem).set (-a) v := by
  funext x
  have opposite : -x = a ↔ x = -a := by bv_omega
  simp only [flip, Memory.set, opposite]

theorem copyBackward_flip {bus bus' : Bus} (opposite : bus'.mem = flip bus.mem) (p1 p2 : Word)
    (n : Nat) :
    flip (copyBackward bus p1 p2 n).mem = (copyForward bus' (1 - p1) (1 - p2) n).mem := by
  induction n generalizing bus bus' p1 p2 with
  | zero => exact opposite.symm
  | succ n ih =>
      have down (p : Word) : 1 - (p - 1) = 1 - p + 1 := by bv_omega
      have below (p : Word) : -(p - 1) = 1 - p := by bv_omega
      have above : -(1 - p2) = p2 - 1 := by bv_omega
      have moved : (bus'.copy (1 - p1) (1 - p2)).2.mem =
          flip (bus.copy (p1 - 1) (p2 - 1)).2.mem := by
        rw [Bus.copy_mem, Bus.copy_mem, flip_set, below, opposite]
        simp only [flip, above]
      rw [copyBackward, copyForward, ih moved, down, down]

theorem copyBackward_byte {p1 p2 : Word} (fits : n ≤ 2 ^ 64) (inside : i < n) :
    (copyBackward bus p1 p2 n).mem (p1 - 1 - BitVec.ofNat 64 i) =
      bus.mem (p2 - 1 - BitVec.ofNat 64 (i % (p2 - p1).toNat)) := by
  have opposite (p : Word) (k : Nat) :
      -(1 - p + BitVec.ofNat 64 k) = p - 1 - BitVec.ofNat 64 k := by bv_omega
  have distance : 1 - p1 - (1 - p2) = p2 - p1 := by bv_omega
  have mirrored : ({ bus with mem := flip bus.mem } : Bus).mem = flip bus.mem := rfl
  have byte := congrFun (copyBackward_flip mirrored p1 p2 n) (1 - p1 + BitVec.ofNat 64 i)
  rw [copyForward_byte fits inside, distance] at byte
  simpa only [flip, opposite] using byte

/-! ## Which pointers they copy for -/

def Copies (copy : Bus → Word → Word → Word → Word × Bus) (dest src n : Word) : Prop :=
  ∀ bus, (copy bus dest src n).2.mem = bus.mem.place dest (bus.mem.bytes src n.toNat)

/-- A memory in which one byte differs from all others. -/
def marked (a : Word) : Bus where
  mem := fun x => if x = a then 1 else 0

theorem eq_of_marked {a : Word} (same : (marked a).mem x = (marked a).mem a) : x = a := by
  by_contra other
  simp [marked, other] at same

theorem forwardSafe_of_copies (fits : n ≤ 2 ^ 64)
    (copied : ∀ bus : Bus,
      (copyForward bus dest src n).mem = bus.mem.place dest (bus.mem.bytes src n)) :
    ForwardSafe dest src n := by
  by_contra unsafely
  obtain ⟨distinct, overlap⟩ := not_or.mp unsafely
  have inside : (dest - src).toNat < n := not_not.mp overlap
  have reached : src + (dest - src) = dest := by bv_omega
  -- The byte at `dest` is overwritten before its turn to be read comes.
  have byte := congrFun (copied (marked dest)) (dest + BitVec.ofNat 64 (dest - src).toNat)
  rw [copyForward_byte fits inside, place_add (by rwa [length_bytes]) (by rwa [length_bytes]),
    getElem_bytes, Nat.mod_self, BitVec.add_zero, BitVec.ofNat_toNat, BitVec.setWidth_eq,
    reached] at byte
  exact distinct (eq_of_marked byte).symm

theorem from_top (inside : i < n) (a : Word) :
    a + BitVec.ofNat 64 n - 1 - BitVec.ofNat 64 i = a + BitVec.ofNat 64 (n - 1 - i) := by
  have split : n - 1 - i + 1 + i = n := by omega
  have cancel (b c : Word) : b + 1 + c - 1 - c = b := by bv_omega
  calc a + BitVec.ofNat 64 n - 1 - BitVec.ofNat 64 i
    _ = a + BitVec.ofNat 64 (n - 1 - i + 1 + i) - 1 - BitVec.ofNat 64 i := by rw [split]
    _ = a + BitVec.ofNat 64 (n - 1 - i) + 1 + BitVec.ofNat 64 i - 1 - BitVec.ofNat 64 i := by
        rw [BitVec.ofNat_add, BitVec.ofNat_add, ← BitVec.add_assoc, ← BitVec.add_assoc]
        rfl
    _ = a + BitVec.ofNat 64 (n - 1 - i) := cancel _ _

theorem backwardSafe_of_copies (fits : n ≤ 2 ^ 64)
    (copied : ∀ bus : Bus,
      (copyBackward bus (dest + BitVec.ofNat 64 n) (src + BitVec.ofNat 64 n) n).mem =
        bus.mem.place dest (bus.mem.bytes src n)) :
    BackwardSafe dest src n := by
  by_contra unsafely
  obtain ⟨distinct, overlap⟩ := not_or.mp unsafely
  have inside : (src - dest).toNat < n := not_not.mp overlap
  have shift (c : Word) : src + c - (dest + c) = src - dest := by bv_omega
  have unmoved (a c : Word) (same : a - c = a) : c = 0 := by bv_omega
  have rest : n - 1 - (src - dest).toNat < n := by omega
  have byte := congrFun (copied (marked (src + BitVec.ofNat 64 n - 1)))
    (dest + BitVec.ofNat 64 (n - 1 - (src - dest).toNat))
  rw [place_add (by rwa [length_bytes]) (by rwa [length_bytes]), getElem_bytes, ← from_top inside,
    ← from_top inside, copyBackward_byte fits inside, shift, Nat.mod_self, BitVec.sub_zero,
    BitVec.ofNat_toNat, BitVec.setWidth_eq] at byte
  have zero := unmoved _ _ (eq_of_marked byte.symm)
  apply distinct
  bv_omega

/-- `memcpy` copies from exactly the pointers that a copy upwards is safe for, and `memmove` from
exactly those that lie closer to each other than the way around the address space. -/
theorem copies_iff (dest src n : Word) :
    (Copies memcpy dest src n ↔ dest = src ∨ n.toNat ≤ (dest - src).toNat) ∧
      (Copies memmove dest src n ↔
        dest.toNat + n.toNat ≤ 2 ^ 64 + src.toNat ∧ src.toNat + n.toNat ≤ 2 ^ 64 + dest.toNat) := by
  have small : n.toNat ≤ 2 ^ 64 := Nat.le_of_lt n.isLt
  have upwards : (∀ bus : Bus, (copyForward bus dest src n.toNat).mem =
      bus.mem.place dest (bus.mem.bytes src n.toNat)) ↔ ForwardSafe dest src n.toNat :=
    ⟨forwardSafe_of_copies small, fun safe bus => copyForward_mem bus safe small⟩
  have downwards : (∀ bus : Bus, (copyBackward bus (dest + n) (src + n) n.toNat).mem =
      bus.mem.place dest (bus.mem.bytes src n.toNat)) ↔ BackwardSafe dest src n.toNat := by
    have counted : BitVec.ofNat 64 n.toNat = n := by rw [BitVec.ofNat_toNat, BitVec.setWidth_eq]
    have iff : _ ↔ BackwardSafe dest src n.toNat :=
      ⟨backwardSafe_of_copies small, fun safe bus => copyBackward_mem bus safe small⟩
    rwa [counted] at iff
  constructor
  · unfold Copies memcpy
    rw [upwards, ForwardSafe, InRange, Nat.not_lt]
  · unfold Copies memmove
    by_cases before : dest < src
    · simp only [if_pos before]
      have order : dest.toNat < src.toNat := BitVec.lt_def.mp before
      have distinct : dest ≠ src := fun same => absurd (congrArg BitVec.toNat same) (by omega)
      have around : (dest - src).toNat = dest.toNat + 2 ^ 64 - src.toNat := by bv_omega
      rw [upwards, ForwardSafe, InRange, or_iff_right distinct, around]
      omega
    · simp only [if_neg before]
      have order : src.toNat ≤ dest.toNat := BitVec.le_def.mp (BitVec.not_lt.mp before)
      rw [downwards, BackwardSafe, InRange]
      by_cases same : dest = src
      · simp only [same, true_or, true_iff]
        omega
      · have distinct : dest.toNat ≠ src.toNat := fun equal => same (BitVec.eq_of_toNat_eq equal)
        have around : (src - dest).toNat = src.toNat + 2 ^ 64 - dest.toNat := by bv_omega
        rw [or_iff_right same, around]
        omega

/-! ## `memset` -/

theorem fill_mem (bus : Bus) (p : Word) (c : BitVec 8) (fits : n ≤ 2 ^ 64) :
    (fill bus p c n).mem = bus.mem.place p (List.replicate n c) := by
  induction n generalizing bus p with
  | zero => rfl
  | succ n ih =>
      have short : (List.replicate n c).length < 2 ^ 64 := by
        rw [List.length_replicate]
        omega
      rw [fill, ih _ _ (by omega), List.replicate_succ, ← place_cons short]
      rfl

/-- A range whose first byte is set is filled by copying it onto itself, one byte further up. -/
theorem copyForward_fill (bus : Bus) (d : Word) (c : BitVec 8) (fits : n < 2 ^ 64) :
    (copyForward (bus.write d c) (d + 1) d n).mem = (fill bus d c (n + 1)).mem := by
  have one : (d + 1 - d).toNat = 1 := by
    have step : d + 1 - d = 1 := by bv_omega
    rw [step]
    rfl
  have length : (List.replicate (n + 1) c).length = n + 1 := List.length_replicate
  rw [fill_mem _ _ _ (by omega)]
  funext x
  by_cases inside : InRange d (n + 1) x
  · rw [place, List.getD_replicate _ inside]
    rcases (inRange_succ fits).mp inside with rfl | behind
    · have outside : ¬ InRange (x + 1) n x := by
        unfold InRange
        bv_omega
      rw [copyForward_frame (by omega) outside]
      exact if_pos rfl
    · have reached : d + 1 + BitVec.ofNat 64 (x - (d + 1)).toNat = x := by
        rw [BitVec.ofNat_toNat, BitVec.setWidth_eq]
        bv_omega
      have byte : (copyForward (bus.write d c) (d + 1) d n).mem _ = _ :=
        copyForward_byte (Nat.le_of_lt fits) behind
      rw [reached, one, Nat.mod_one, BitVec.add_zero] at byte
      exact byte.trans (if_pos rfl)
  · have outside := mt (inRange_succ fits).mpr inside
    rw [not_or] at outside
    rw [copyForward_frame (by omega) outside.2, place_of_not_inRange (by rwa [length])]
    exact set_of_ne _ _ outside.1

theorem memset_by_memcpy (bus : Bus) (d : Word) (c : BitVec 32) (n : Word) :
    (memset bus d c n).2.mem = bus.mem.place d (List.replicate n.toNat (c.setWidth 8)) ∧
      (n ≠ 0 → (memset bus d c n).2.mem =
        (memcpy (bus.write d (c.setWidth 8)) (d + 1) d (n - 1)).2.mem) := by
  refine ⟨fill_mem bus d _ (Nat.le_of_lt n.isLt), ?_⟩
  intro nonempty
  have count : (n - 1).toNat + 1 = n.toNat := by bv_omega
  unfold memset memcpy
  rw [copyForward_fill bus d _ (n - 1).isLt, count]

theorem memset_by_memcpy_letters :
    (memcpy ((marked 0).write 0x1000 0x41) 0x1001 0x1000 3).2.mem 0x1003 = 0x41 := by
  obtain ⟨filled, copied⟩ := memset_by_memcpy (marked 0) 0x1000 0x141 4
  have same := (copied (by decide)).symm.trans filled
  exact congrFun same 0x1003

end Sphynx.Stdlib

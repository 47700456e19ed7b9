import Sphynx.Lib.Block

/-!
# Copying memory (`string.cpp`)

`memcpy` and `memmove`, byte by byte as their loops run, and why `memmove` copies in the right
direction for every overlap.
-/

namespace Sphynx.Stdlib
open Lib Memory

/-- `while (n--) *p1++ = *p2++;` -/
def copyForward (bus : Bus) (p1 p2 : Word) : Nat → Bus
  | 0 => bus
  | n + 1 => copyForward (bus.copy p1 p2).2 (p1 + 1) (p2 + 1) n

/-- `while (n--) *--p1 = *--p2;` -/
def copyBackward (bus : Bus) (p1 p2 : Word) : Nat → Bus
  | 0 => bus
  | n + 1 => copyBackward (bus.copy (p1 - 1) (p2 - 1)).2 (p1 - 1) (p2 - 1) n

def memcpy (bus : Bus) (dest src n : Word) : Word × Bus :=
  (dest, copyForward bus dest src n.toNat)

def memmove (bus : Bus) (dest src n : Word) : Word × Bus :=
  if dest < src then (dest, copyForward bus dest src n.toNat)
  else (dest, copyBackward bus (dest + n) (src + n) n.toNat)

variable {bus : Bus} {dest src : Word} {n : Nat}

/-! ## The safe directions -/

/-- Going up, no byte of the source is overwritten before it is read. -/
def ForwardSafe (dest src : Word) (n : Nat) : Prop := dest = src ∨ ¬ InRange src n dest

def BackwardSafe (dest src : Word) (n : Nat) : Prop := dest = src ∨ ¬ InRange dest n src

theorem ForwardSafe.step (safe : ForwardSafe dest src (n + 1)) (fits : n < 2 ^ 64) :
    ¬ InRange (src + 1) n dest ∧ ForwardSafe (dest + 1) (src + 1) n := by
  unfold ForwardSafe InRange at *
  rcases safe with rfl | outside
  · have last : (dest - (dest + 1)).toNat = 2 ^ 64 - 1 := by bv_omega
    exact ⟨by omega, Or.inl rfl⟩
  · have offset : dest + 1 - (src + 1) = dest - src := by bv_omega
    have before : (dest - (src + 1)).toNat = (dest - src).toNat - 1 := by bv_omega
    rw [offset, before]
    exact ⟨by omega, Or.inr (by omega)⟩

theorem copyForward_mem (bus : Bus) (safe : ForwardSafe dest src n) (fits : n ≤ 2 ^ 64) :
    (copyForward bus dest src n).mem = bus.mem.place dest (bus.mem.bytes src n) := by
  -- Induction on the bytes still to be copied; those of the source are as they were.
  induction n generalizing bus dest src with
  | zero => rfl
  | succ n ih =>
      obtain ⟨unread, safe'⟩ := safe.step (by omega)
      have length : (bus.mem.bytes (src + 1) n).length < 2 ^ 64 := by
        rw [length_bytes]
        omega
      rw [copyForward, ih _ safe' (by omega), Bus.copy_mem, bytes_set (by omega) unread,
        place_cons length]
      rfl

theorem BackwardSafe.step (safe : BackwardSafe dest src (n + 1)) (fits : n < 2 ^ 64) :
    ¬ InRange src n (dest + BitVec.ofNat 64 n) ∧ BackwardSafe dest src n := by
  unfold BackwardSafe InRange at *
  rcases safe with rfl | outside
  · rw [sub_toNat_of_lt dest fits]
    exact ⟨by omega, Or.inl rfl⟩
  · have bound := (src - dest).isLt
    have ahead : (dest + BitVec.ofNat 64 n - src).toNat = n + 2 ^ 64 - (src - dest).toNat := by
      bv_omega
    rw [ahead]
    exact ⟨by omega, Or.inr (by omega)⟩

theorem copyBackward_mem (bus : Bus) (safe : BackwardSafe dest src n) (fits : n ≤ 2 ^ 64) :
    (copyBackward bus (dest + BitVec.ofNat 64 n) (src + BitVec.ofNat 64 n) n).mem =
      bus.mem.place dest (bus.mem.bytes src n) := by
  induction n generalizing bus with
  | zero => rfl
  | succ n ih =>
      obtain ⟨unread, safe'⟩ := safe.step (by omega)
      have length : (bus.mem.bytes src n).length = n := length_bytes _ _ _
      have below (a : Word) : a + BitVec.ofNat 64 (n + 1) - 1 = a + BitVec.ofNat 64 n := by
        rw [BitVec.ofNat_add]
        bv_omega
      have last : (bus.mem.set (dest + BitVec.ofNat 64 (bus.mem.bytes src n).length)
          (bus.mem (src + BitVec.ofNat 64 n))).place dest (bus.mem.bytes src n) = _ :=
        place_concat (by omega)
      rw [length] at last
      rw [copyBackward, below, below, ih _ safe' (by omega), Bus.copy_mem, bytes_set (by omega) unread,
        last, bytes_add]
      rfl

/-! ## `memmove` and `memcpy` -/

section
variable {n : Word}

theorem forwardSafe_of_le (below : dest ≤ src) (fits : src.toNat + n.toNat ≤ 2 ^ 64) :
    ForwardSafe dest src n.toNat := by
  by_cases same : dest = src
  · exact Or.inl same
  · right
    unfold InRange
    bv_omega

theorem backwardSafe_of_le (above : src ≤ dest) (fits : dest.toNat + n.toNat ≤ 2 ^ 64) :
    BackwardSafe dest src n.toNat := by
  by_cases same : dest = src
  · exact Or.inl same
  · right
    unfold InRange
    bv_omega

theorem forwardSafe_of_apart (apart : Apart dest n.toNat src n.toNat) :
    ForwardSafe dest src n.toNat := by
  right
  by_cases empty : n.toNat = 0
  · rw [empty]
    exact inRange_zero src dest
  · apply apart
    rw [InRange, BitVec.sub_self]
    exact Nat.pos_of_ne_zero empty

theorem memmove_mem (bus : Bus) (src_fits : src.toNat + n.toNat ≤ 2 ^ 64)
    (dest_fits : dest.toNat + n.toNat ≤ 2 ^ 64) :
    (memmove bus dest src n).2.mem = bus.mem.place dest (bus.mem.bytes src n.toNat) := by
  have small : n.toNat ≤ 2 ^ 64 := Nat.le_of_lt n.isLt
  unfold memmove
  split_ifs with before
  · exact copyForward_mem bus (forwardSafe_of_le (BitVec.le_of_lt before) src_fits) small
  · have safe := backwardSafe_of_le (BitVec.not_lt.mp before) dest_fits
    have copied := copyBackward_mem bus safe small
    rwa [BitVec.ofNat_toNat, BitVec.setWidth_eq] at copied

theorem memcpy_mem (bus : Bus) (safe : ForwardSafe dest src n.toNat) :
    (memcpy bus dest src n).2.mem = bus.mem.place dest (bus.mem.bytes src n.toNat) :=
  copyForward_mem bus safe (Nat.le_of_lt n.isLt)

end

theorem memmove_copies (bus : Bus) (dest src n : Word)
    (src_fits : src.toNat + n.toNat ≤ 2 ^ 64) (dest_fits : dest.toNat + n.toNat ≤ 2 ^ 64) :
    (memmove bus dest src n).1 = dest ∧
      (∀ i < n.toNat, (memmove bus dest src n).2.mem (dest + BitVec.ofNat 64 i) =
        bus.mem (src + BitVec.ofNat 64 i)) ∧
      (∀ x, ¬ InRange dest n.toNat x → (memmove bus dest src n).2.mem x = bus.mem x) ∧
      (Apart dest n.toNat src n.toNat ∨ dest ≤ src →
        (memcpy bus dest src n).2.mem = (memmove bus dest src n).2.mem) := by
  have small : n.toNat ≤ 2 ^ 64 := Nat.le_of_lt n.isLt
  have length : (bus.mem.bytes src n.toNat).length = n.toNat := length_bytes _ _ _
  have moved := memmove_mem bus src_fits dest_fits
  rw [moved]
  refine ⟨?_, ?_, ?_, ?_⟩
  · unfold memmove
    split_ifs <;> rfl
  · intro i inside
    rw [place_add (by omega) (by omega), getElem_bytes]
  · intro x outside
    exact place_of_not_inRange (by rwa [length])
  · rintro (apart | below)
    · exact memcpy_mem bus (forwardSafe_of_apart apart)
    · exact memcpy_mem bus (forwardSafe_of_le below src_fits)

theorem memmove_copies_up :
    (memmove { mem := fun a => a.setWidth 8 } 0x1001 0x1000 2).2.mem 0x1002 = 1 := by
  obtain ⟨-, copied, -, -⟩ := memmove_copies { mem := fun a => a.setWidth 8 } 0x1001 0x1000 2
    (by decide) (by decide)
  exact copied 1 (by decide)

end Sphynx.Stdlib

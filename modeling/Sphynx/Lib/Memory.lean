import Mathlib.Data.BitVec

/-!
# Words in byte memory

A 64-bit address space of bytes, words stored in it in little-endian order, and runs of words that
lie one behind the other, as on a stack. Addresses wrap around; so do ranges.
-/

namespace Lib

abbrev Word := BitVec 64
abbrev Memory := Word → BitVec 8

def InRange (base : Word) (n : Nat) (a : Word) : Prop := (a - base).toNat < n

instance (base : Word) (n : Nat) (a : Word) : Decidable (InRange base n a) :=
  inferInstanceAs (Decidable (_ < _))

theorem InRange.below {top x : Word} {n k m : Nat} (h : InRange (top - BitVec.ofNat 64 n) k x)
    (ends : k ≤ n) (longer : n ≤ m) (fits : m < 2 ^ 64) : InRange (top - BitVec.ofNat 64 m) m x := by
  unfold InRange at h ⊢
  have split : x - (top - BitVec.ofNat 64 m) =
      x - (top - BitVec.ofNat 64 n) + BitVec.ofNat 64 (m - n) := by
    have sum : BitVec.ofNat 64 m = BitVec.ofNat 64 (m - n) + BitVec.ofNat 64 n := by
      rw [← BitVec.ofNat_add, Nat.sub_add_cancel longer]
    rw [sum]
    bv_omega
  rw [split, BitVec.toNat_add, BitVec.toNat_ofNat, Nat.mod_eq_of_lt (by omega : m - n < 2 ^ 64),
    Nat.mod_eq_of_lt (by omega)]
  omega

namespace Memory

def byte (mem : Memory) (a : Word) (i : Nat) : BitVec 8 := mem (a + BitVec.ofNat 64 i)

def load (mem : Memory) (a : Word) : Word :=
  mem.byte a 7 ++ mem.byte a 6 ++ mem.byte a 5 ++ mem.byte a 4 ++ mem.byte a 3 ++ mem.byte a 2 ++
    mem.byte a 1 ++ mem.byte a 0

def store (mem : Memory) (a w : Word) : Memory := fun x =>
  if InRange a 8 x then w.extractLsb' (8 * (x - a).toNat) 8 else mem x

def Words (mem : Memory) (base : Word) (ws : List Word) : Prop :=
  ∀ i (h : i < ws.length), load mem (base + BitVec.ofNat 64 (8 * i)) = ws[i]

variable {mem mem' : Memory} {a b base w : Word} {n : Nat} {ws vs : List Word}

theorem sub_toNat_of_lt (base : Word) (h : n < 2 ^ 64) :
    (base + BitVec.ofNat 64 n - base).toNat = n := by
  have offset : base + BitVec.ofNat 64 n - base = BitVec.ofNat 64 n := by bv_omega
  rw [offset, BitVec.toNat_ofNat, Nat.mod_eq_of_lt h]

theorem load_congr (same : ∀ x, InRange a 8 x → mem x = mem' x) : load mem a = load mem' a := by
  have byte (i : Nat) (h : i < 8) : mem.byte a i = mem'.byte a i := by
    apply same _
    rw [InRange, sub_toNat_of_lt a (by omega)]
    exact h
  unfold load
  rw [byte 7 (by decide), byte 6 (by decide), byte 5 (by decide), byte 4 (by decide),
    byte 3 (by decide), byte 2 (by decide), byte 1 (by decide), byte 0 (by decide)]

theorem byte_store (mem : Memory) (a w : Word) (i : Nat) (h : i < 8) :
    (store mem a w).byte a i = w.extractLsb' (8 * i) 8 := by
  have offset := sub_toNat_of_lt a (n := i) (by omega)
  have inside : InRange a 8 (a + BitVec.ofNat 64 i) := by
    rw [InRange, offset]
    exact h
  rw [byte, store, if_pos inside, offset]

theorem append_bytes (w : Word) :
    w.extractLsb' 56 8 ++ w.extractLsb' 48 8 ++ w.extractLsb' 40 8 ++ w.extractLsb' 32 8 ++
      w.extractLsb' 24 8 ++ w.extractLsb' 16 8 ++ w.extractLsb' 8 8 ++ w.extractLsb' 0 8 = w := by
  iterate 7 rw [BitVec.extractLsb'_append_extractLsb'_eq_extractLsb' (by decide)]
  exact BitVec.extractLsb'_eq_self

theorem load_store (mem : Memory) (a w : Word) : load (store mem a w) a = w := by
  have byte := byte_store mem a w
  unfold load
  rw [byte 7 (by decide), byte 6 (by decide), byte 5 (by decide), byte 4 (by decide),
    byte 3 (by decide), byte 2 (by decide), byte 1 (by decide), byte 0 (by decide)]
  exact append_bytes w

theorem store_of_not_inRange (mem : Memory) (w : Word) (outside : ¬ InRange a 8 b) :
    store mem a w b = mem b :=
  if_neg outside

theorem Words.congr (held : Words mem base ws)
    (same : ∀ x, InRange base (8 * ws.length) x → mem' x = mem x) (fits : 8 * ws.length ≤ 2 ^ 64) :
    Words mem' base ws := by
  intro i inside
  rw [← held i inside]
  refine load_congr fun x near => same x ?_
  unfold InRange at near ⊢
  have split : x - base = BitVec.ofNat 64 (8 * i) + (x - (base + BitVec.ofNat 64 (8 * i))) := by
    bv_omega
  rw [split, BitVec.toNat_add, BitVec.toNat_ofNat, Nat.mod_eq_of_lt (by omega : 8 * i < 2 ^ 64),
    Nat.mod_eq_of_lt (by omega)]
  omega

theorem words_nil (mem : Memory) (base : Word) : Words mem base [] := by
  intro i inside
  contradiction

theorem Words.drop (held : Words mem base (ws ++ vs)) :
    Words mem (base + BitVec.ofNat 64 (8 * ws.length)) vs := by
  intro i inside
  have later := held (ws.length + i) (by rw [List.length_append]; omega)
  rw [List.getElem_append_right (by omega)] at later
  simp only [Nat.add_sub_cancel_left] at later
  rw [← later, Nat.mul_add, BitVec.ofNat_add, BitVec.add_assoc]

theorem Words.push (held : Words mem base ws) (fits : 8 * (ws.length + 1) ≤ 2 ^ 64) (w : Word) :
    Words (store mem (base - 8) w) (base - 8) (w :: ws) := by
  intro i inside
  cases i with
  | zero => simpa using load_store mem (base - 8) w
  | succ i =>
      have kept : Words (store mem (base - 8) w) base ws := by
        refine held.congr (fun x near => store_of_not_inRange mem w ?_) (by omega)
        unfold InRange at near ⊢
        have split : x - (base - 8) = 8 + (x - base) := by bv_omega
        rw [split, BitVec.toNat_add, show BitVec.toNat (8 : Word) = 8 from rfl]
        omega
      have next : base - 8 + BitVec.ofNat 64 (8 * (i + 1)) = base + BitVec.ofNat 64 (8 * i) := by
        rw [Nat.mul_add, BitVec.ofNat_add]
        bv_omega
      rw [next, List.getElem_cons_succ]
      exact kept i (by simpa using inside)

end Memory

end Lib

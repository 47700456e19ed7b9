import Mathlib.Data.List.Basic
import Mathlib.Data.List.GetD
import Sphynx.Lib.Memory

/-!
# Runs of bytes

What lies in memory from an address on, and memories in which a run of bytes has been placed.
Addresses wrap around, so a run may lie across the end of the address space. `Bus` is a memory with
a record of the accesses to it.
-/

namespace Lib
open Memory

variable {mem mem' : Memory} {a b x : Word} {n m k : Nat} {v : BitVec 8} {bs cs : List (BitVec 8)}

/-! ## Addresses -/

def addresses (a : Word) : Nat → List Word
  | 0 => []
  | n + 1 => a :: addresses (a + 1) n

@[simp]
theorem length_addresses (a : Word) (n : Nat) : (addresses a n).length = n := by
  induction n generalizing a with
  | zero => rfl
  | succ n ih => rw [addresses, List.length_cons, ih]

theorem add_ofNat_succ (a : Word) (n : Nat) :
    a + BitVec.ofNat 64 (n + 1) = a + 1 + BitVec.ofNat 64 n := by
  rw [BitVec.ofNat_add, BitVec.add_comm (BitVec.ofNat 64 n), BitVec.add_assoc]
  rfl

theorem addresses_add (a : Word) (n m : Nat) :
    addresses a (n + m) = addresses a n ++ addresses (a + BitVec.ofNat 64 n) m := by
  induction n generalizing a with
  | zero => simp [addresses]
  | succ n ih =>
      rw [Nat.succ_add, addresses, addresses, ih, add_ofNat_succ, List.cons_append]

theorem getElem_addresses {i : Nat} (inside : i < (addresses a n).length) :
    (addresses a n)[i] = a + BitVec.ofNat 64 i := by
  induction n generalizing a i with
  | zero => contradiction
  | succ n ih =>
      cases i with
      | zero => exact (BitVec.add_zero a).symm
      | succ i =>
          rw [add_ofNat_succ]
          exact ih (Nat.lt_of_succ_lt_succ inside)

theorem inRange_zero (a x : Word) : ¬ InRange a 0 x := Nat.not_lt_zero _

theorem inRange_succ (fits : n < 2 ^ 64) : InRange a (n + 1) x ↔ x = a ∨ InRange (a + 1) n x := by
  unfold InRange
  have step : x - a = x - (a + 1) + 1 := by bv_omega
  have bound := (x - (a + 1)).isLt
  have zero : x = a ↔ (x - a).toNat = 0 := by bv_omega
  rw [zero, step, BitVec.toNat_add, show BitVec.toNat (1 : Word) = 1 from rfl]
  omega

theorem mem_addresses (fits : n ≤ 2 ^ 64) : x ∈ addresses a n ↔ InRange a n x := by
  induction n generalizing a with
  | zero => simp [addresses, inRange_zero]
  | succ n ih => rw [addresses, List.mem_cons, ih (by omega), inRange_succ (by omega)]

theorem InRange.mono (h : InRange a n x) (le : n ≤ m) : InRange a m x := Nat.lt_of_lt_of_le h le

theorem InRange.of_add (h : InRange (a + BitVec.ofNat 64 n) m x) (fits : n + m ≤ 2 ^ 64) :
    InRange a (n + m) x := by
  unfold InRange at h ⊢
  have split : x - a = BitVec.ofNat 64 n + (x - (a + BitVec.ofNat 64 n)) := by bv_omega
  have bound := (x - (a + BitVec.ofNat 64 n)).isLt
  rw [split, BitVec.toNat_add, BitVec.toNat_ofNat]
  by_cases small : n < 2 ^ 64
  · rw [Nat.mod_eq_of_lt small, Nat.mod_eq_of_lt (by omega)]
    omega
  · omega

def Apart (a : Word) (n : Nat) (b : Word) (m : Nat) : Prop :=
  ∀ x, InRange a n x → ¬ InRange b m x

theorem Apart.mono (apart : Apart a n b m) {n' m' : Nat} (le : n' ≤ n) (le' : m' ≤ m) :
    Apart a n' b m' :=
  fun x left right => apart x (left.mono le) (right.mono le')

theorem Apart.lt (apart : Apart a n b (m + 1)) : n < 2 ^ 64 := by
  by_contra whole
  apply apart b
  · exact Nat.lt_of_lt_of_le (b - a).isLt (Nat.not_lt.mp whole)
  · rw [InRange, BitVec.sub_self]
    exact Nat.succ_pos m

theorem Apart.tail (apart : Apart a (n + 1) b (m + 1)) (fits : n < 2 ^ 64) (fits' : m < 2 ^ 64) :
    Apart (a + 1) n (b + 1) m :=
  fun x left right =>
    apart x ((inRange_succ fits).mpr (Or.inr left)) ((inRange_succ fits').mpr (Or.inr right))

/-! ## Placing bytes -/

namespace Memory

def set (mem : Memory) (a : Word) (v : BitVec 8) : Memory := fun x => if x = a then v else mem x

def bytes (mem : Memory) (a : Word) (n : Nat) : List (BitVec 8) := (addresses a n).map mem

def place (mem : Memory) (a : Word) (bs : List (BitVec 8)) : Memory := fun x =>
  bs.getD (x - a).toNat (mem x)

@[simp]
theorem length_bytes (mem : Memory) (a : Word) (n : Nat) : (mem.bytes a n).length = n := by
  rw [bytes, List.length_map, length_addresses]

theorem getElem_bytes {i : Nat} (inside : i < (mem.bytes a n).length) :
    (mem.bytes a n)[i] = mem (a + BitVec.ofNat 64 i) := by
  simp only [bytes, List.getElem_map, getElem_addresses]

theorem bytes_succ (mem : Memory) (a : Word) (n : Nat) :
    mem.bytes a (n + 1) = mem a :: mem.bytes (a + 1) n := rfl

theorem bytes_add (mem : Memory) (a : Word) (n m : Nat) :
    mem.bytes a (n + m) = mem.bytes a n ++ mem.bytes (a + BitVec.ofNat 64 n) m := by
  rw [bytes, addresses_add, List.map_append]
  rfl

theorem bytes_congr (fits : n ≤ 2 ^ 64) (same : ∀ x, InRange a n x → mem x = mem' x) :
    mem.bytes a n = mem'.bytes a n :=
  List.map_congr_left fun x member => same x ((mem_addresses fits).mp member)

theorem set_of_ne (mem : Memory) (v : BitVec 8) (other : x ≠ a) : mem.set a v x = mem x :=
  if_neg other

theorem bytes_set (fits : n ≤ 2 ^ 64) (outside : ¬ InRange b n a) :
    (mem.set a v).bytes b n = mem.bytes b n := by
  apply bytes_congr fits
  intro x inside
  apply set_of_ne
  rintro rfl
  exact outside inside

@[simp]
theorem place_nil (mem : Memory) (a : Word) : mem.place a [] = mem := rfl

theorem place_of_not_inRange (outside : ¬ InRange a bs.length x) : mem.place a bs x = mem x :=
  List.getD_eq_default _ _ (Nat.le_of_not_lt outside)

theorem place_add (inside : n < bs.length) (fits : bs.length ≤ 2 ^ 64) :
    mem.place a bs (a + BitVec.ofNat 64 n) = bs[n] := by
  rw [place, sub_toNat_of_lt a (by omega), List.getD_eq_getElem _ _ inside]

theorem place_cons (fits : bs.length < 2 ^ 64) :
    (mem.set a v).place (a + 1) bs = mem.place a (v :: bs) := by
  funext x
  unfold place
  by_cases here : x = a
  · subst here
    have last : (x - (x + 1)).toNat = 2 ^ 64 - 1 := by bv_omega
    rw [last, List.getD_eq_default _ _ (by omega), BitVec.sub_self, set, if_pos rfl]
    rfl
  · have step : (x - a).toNat = (x - (a + 1)).toNat + 1 := by bv_omega
    rw [step, List.getD_cons_succ, set_of_ne mem v here]

theorem place_concat (fits : bs.length < 2 ^ 64) :
    (mem.set (a + BitVec.ofNat 64 bs.length) v).place a bs = mem.place a (bs ++ [v]) := by
  funext x
  unfold place
  by_cases inside : (x - a).toNat < bs.length
  · have longer : (x - a).toNat < (bs ++ [v]).length := by
      rw [List.length_append]
      omega
    rw [List.getD_eq_getElem _ _ inside, List.getD_eq_getElem _ _ longer, List.getElem_append_left]
  · rw [List.getD_eq_default _ _ (by omega)]
    by_cases here : x = a + BitVec.ofNat 64 bs.length
    · subst here
      rw [sub_toNat_of_lt a fits, set, if_pos rfl, List.getD_append_right _ _ _ _ (Nat.le_refl _),
        Nat.sub_self]
      rfl
    · have beyond : bs.length ≠ (x - a).toNat := by
        intro same
        apply here
        rw [same, BitVec.ofNat_toNat]
        bv_omega
      rw [set_of_ne mem v here, List.getD_eq_default]
      rw [List.length_append, List.length_singleton]
      omega

theorem place_again (covered : bs.length ≤ cs.length) :
    (mem.place a bs).place a cs = mem.place a cs := by
  funext x
  by_cases inside : (x - a).toNat < cs.length
  · simp only [place, List.getD_eq_getElem _ _ inside]
  · have outside : ¬ InRange a bs.length x := fun within => inside (within.mono covered)
    rw [place_of_not_inRange inside, place_of_not_inRange inside, place_of_not_inRange outside]

theorem place_over {ds : List (BitVec 8)} (covered : cs.length ≤ ds.length)
    (fits : bs.length + ds.length ≤ 2 ^ 64) :
    (mem.place a (bs ++ cs)).place (a + BitVec.ofNat 64 bs.length) ds = mem.place a (bs ++ ds) := by
  induction bs generalizing mem a with
  | nil => simpa using place_again covered
  | cons b bs ih =>
      simp only [List.length_cons] at fits ⊢
      have short (es : List (BitVec 8)) (le : es.length ≤ ds.length) : (bs ++ es).length < 2 ^ 64 := by
        rw [List.length_append]
        omega
      rw [List.cons_append, List.cons_append, ← place_cons (short cs covered),
        ← place_cons (short ds (Nat.le_refl _)), add_ofNat_succ]
      exact ih (by omega)

theorem bytes_place (fits : bs.length ≤ 2 ^ 64) : (mem.place a bs).bytes a bs.length = bs := by
  induction bs generalizing mem a with
  | nil => rfl
  | cons b bs ih =>
      rw [List.length_cons] at fits ⊢
      have behind : ¬ InRange (a + 1) bs.length a := by
        unfold InRange
        have last : (a - (a + 1)).toNat = 2 ^ 64 - 1 := by bv_omega
        omega
      rw [bytes_succ, ← place_cons (by omega), ih (by omega), place_of_not_inRange behind, set,
        if_pos rfl]

end Memory

/-! ## Strings -/

/-- A NUL-terminated string lies at `a`: its characters and the NUL behind them. -/
structure StringAt (mem : Memory) (a : Word) (text : List (BitVec 8)) : Prop where
  nonzero : 0 ∉ text
  short : text.length < 2 ^ 64
  held : mem.bytes a (text.length + 1) = text ++ [0]

section
variable {text : List (BitVec 8)} {c : BitVec 8}

theorem StringAt.nil_iff : StringAt mem a [] ↔ mem a = 0 := by
  constructor
  · intro h
    exact (List.cons.inj h.held).1
  · intro zero
    exact ⟨List.not_mem_nil, by decide, congrArg (fun c => [c]) zero⟩

theorem StringAt.cons_iff : StringAt mem a (c :: text) ↔
    text.length + 1 < 2 ^ 64 ∧ c ≠ 0 ∧ mem a = c ∧ StringAt mem (a + 1) text := by
  constructor
  · rintro ⟨nonzero, short, held⟩
    rw [List.mem_cons, not_or] at nonzero
    rw [List.length_cons] at short held
    rw [bytes_succ, List.cons_append, List.cons.injEq] at held
    exact ⟨short, Ne.symm nonzero.1, held.1, nonzero.2, by omega, held.2⟩
  · rintro ⟨short, nonzero, head, tail⟩
    refine ⟨?_, short, ?_⟩
    · rw [List.mem_cons, not_or]
      exact ⟨Ne.symm nonzero, tail.nonzero⟩
    · rw [List.length_cons, bytes_succ, head, tail.held]
      rfl

theorem StringAt.getElem (h : StringAt mem a text) {i : Nat} (inside : i < text.length) :
    text[i] = mem (a + BitVec.ofNat 64 i) := by
  have longer : i < (mem.bytes a (text.length + 1)).length := by
    rw [length_bytes]
    omega
  have held : (mem.bytes a (text.length + 1))[i]? = (text ++ [0])[i]? := by rw [h.held]
  rw [List.getElem?_append_left inside, List.getElem?_eq_getElem inside,
    List.getElem?_eq_getElem longer, getElem_bytes] at held
  exact (Option.some.inj held).symm

theorem StringAt.congr (h : StringAt mem a text)
    (same : ∀ x, InRange a (text.length + 1) x → mem x = mem' x) : StringAt mem' a text :=
  ⟨h.nonzero, h.short, (bytes_congr h.short same) ▸ h.held⟩

theorem StringAt.set (h : StringAt mem a text) (outside : ¬ InRange a (text.length + 1) b)
    (v : BitVec 8) : StringAt (mem.set b v) a text :=
  ⟨h.nonzero, h.short, (bytes_set h.short outside).trans h.held⟩

theorem StringAt.place (h : StringAt mem a text) (apart : Apart b bs.length a (text.length + 1)) :
    StringAt (mem.place b bs) a text := by
  apply h.congr
  intro x inside
  exact (place_of_not_inRange fun within => apart x within inside).symm

theorem StringAt.set_tail (h : StringAt mem a (c :: text))
    (apart : Apart b (n + 1) a ((c :: text).length + 1)) (v : BitVec 8) :
    StringAt (mem.set b v) (a + 1) text := by
  obtain ⟨short, -, -, tail⟩ := StringAt.cons_iff.mp h
  apply tail.set
  intro inside
  have here : InRange b (n + 1) b := by
    rw [InRange, BitVec.sub_self]
    exact Nat.succ_pos n
  exact apart b here ((inRange_succ short).mpr (Or.inr inside))

theorem stringAt_place (nonzero : 0 ∉ text) (short : text.length < 2 ^ 64) :
    StringAt (mem.place a (text ++ [0])) a text := by
  refine ⟨nonzero, short, ?_⟩
  have length : text.length + 1 = (text ++ [(0 : BitVec 8)]).length := by
    rw [List.length_append, List.length_singleton]
  rw [length, bytes_place (by omega)]

end

/-! ## Memory under observation -/

structure Bus where
  mem : Memory
  reads : List Word := []
  writes : List Word := []

namespace Bus

def read (bus : Bus) (a : Word) : BitVec 8 × Bus :=
  (bus.mem a, { bus with reads := bus.reads ++ [a] })

def write (bus : Bus) (a : Word) (v : BitVec 8) : Bus :=
  { bus with mem := bus.mem.set a v, writes := bus.writes ++ [a] }

/-- The assignment `*d = *s`, with the value assigned. -/
def copy (bus : Bus) (d s : Word) : BitVec 8 × Bus :=
  let (c, bus) := bus.read s
  (c, bus.write d c)

@[simp]
theorem copy_fst (bus : Bus) (d s : Word) : (bus.copy d s).1 = bus.mem s := rfl

@[simp]
theorem copy_mem (bus : Bus) (d s : Word) : (bus.copy d s).2.mem = bus.mem.set d (bus.mem s) := rfl

end Bus

end Lib

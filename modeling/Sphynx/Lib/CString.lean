import Mathlib.Data.List.Infix
import Mathlib.Data.List.TakeDrop

/-!
# C strings in byte buffers

A `const char*` is the list of bytes from where it points to the end of the object it points into:
`*p` is the head, `p + n` is `drop n`, and dereferencing the empty list is a read outside the
object.
-/

namespace Lib

inductive Fault where
  | outOfBounds
  | nullPointer
deriving DecidableEq, Repr

theorem bind_eq_ok {ε α β : Type} {x : Except ε α} {f : α → Except ε β} {b : β} :
    x >>= f = .ok b ↔ ∃ a, x = .ok a ∧ f a = .ok b := by
  cases x <;> simp [bind, Except.bind]

def deref : List UInt8 → Except Fault UInt8
  | [] => .error .outOfBounds
  | c :: _ => .ok c

def cstr : List UInt8 → Except Fault (List UInt8)
  | [] => .error .outOfBounds
  | c :: p => if c = 0 then .ok [] else (cstr p).map (c :: ·)

@[ext]
structure CString where
  chars : List UInt8
  nonzero : 0 ∉ chars

instance : DecidableEq CString := fun s t =>
  decidable_of_iff (s.chars = t.chars) (CString.ext_iff).symm

/-- A pointer to a C string in memory, the bytes after its terminator included. -/
def CString.stored (s : CString) (after : List UInt8) : List UInt8 := s.chars ++ 0 :: after

def CString.take (s : CString) (n : Nat) : CString :=
  ⟨s.chars.take n, fun member => s.nonzero (List.mem_of_mem_take member)⟩

theorem CString.take_of_length_lt {s : CString} {n : Nat} (longer : s.chars.length < n) :
    s.take n = s :=
  CString.ext (List.take_of_length_le (Nat.le_of_lt longer))

theorem deref_drop_eq_ok {p : List UInt8} {i : Nat} {c : UInt8} :
    deref (p.drop i) = .ok c ↔ p[i]? = some c := by
  rw [← List.head?_drop]
  cases p.drop i <;> simp [deref]

theorem cstr_append (s after : List UInt8) (h : 0 ∉ s) : cstr (s ++ 0 :: after) = .ok s := by
  induction s with
  | nil => simp [cstr]
  | cons c s ih =>
      rw [List.mem_cons, not_or] at h
      simp [cstr, Ne.symm h.1, ih h.2, Except.map]

theorem cstr_stored (s : CString) (after : List UInt8) : cstr (s.stored after) = .ok s.chars :=
  cstr_append s.chars after s.nonzero

theorem cstr_eq_ok {p s : List UInt8} :
    cstr p = .ok s ↔ 0 ∉ s ∧ ∃ after, p = s ++ 0 :: after := by
  constructor
  · intro h
    induction p generalizing s with
    | nil => cases h
    | cons c p ih =>
        rw [cstr] at h
        split_ifs at h with zero
        · cases h
          exact ⟨by simp, p, by rw [zero]; rfl⟩
        · cases tail : cstr p with
          | error e => simp [tail, Except.map] at h
          | ok t =>
              obtain rfl : c :: t = s := by simpa [tail, Except.map] using h
              obtain ⟨clean, after, rfl⟩ := ih tail
              exact ⟨by simp [Ne.symm zero, clean], after, rfl⟩
  · rintro ⟨clean, after, rfl⟩
    exact cstr_append s after clean

theorem cstr_ok_iff {p : List UInt8} : (∃ s, cstr p = .ok s) ↔ 0 ∈ p := by
  constructor
  · rintro ⟨s, h⟩
    obtain ⟨_, after, rfl⟩ := cstr_eq_ok.mp h
    simp
  · intro h
    obtain ⟨s, after, rfl, clean⟩ := List.eq_append_cons_of_mem h
    exact ⟨s, cstr_append s after clean⟩

theorem terminated_prefix_iff {s t : List UInt8} (hs : 0 ∉ s) (ht : 0 ∉ t) (after : List UInt8) :
    s ++ [0] <+: t ++ 0 :: after ↔ s = t := by
  constructor
  · rintro ⟨rest, h⟩
    have left := cstr_append s rest hs
    have right := cstr_append t after ht
    rw [← h, List.append_assoc] at right
    exact Except.ok.inj (left.symm.trans right)
  · rintro rfl
    exact ⟨after, by simp⟩

end Lib

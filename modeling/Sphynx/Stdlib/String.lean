import Sphynx.Lib.CString

namespace Sphynx.Stdlib
open Lib

/-- `strcmp`. The loop condition and the returned difference read both strings in every turn. -/
def strcmp : List UInt8 → List UInt8 → Except Fault Int
  | c₁ :: s₁, c₂ :: s₂ =>
      if c₁ ≠ 0 ∧ c₁ = c₂ then strcmp s₁ s₂ else .ok ((c₁.toNat : Int) - c₂.toNat)
  | _, _ => .error .outOfBounds

theorem uchar_difference_eq_zero (c d : UInt8) : (c.toNat : Int) - d.toNat = 0 ↔ c = d := by
  rw [← UInt8.toNat_inj]
  omega

theorem strcmp_eq_zero_iff (p : List UInt8) (t : CString) (after : List UInt8) :
    strcmp p (t.stored after) = .ok 0 ↔ t.chars ++ [0] <+: p := by
  obtain ⟨t, clean⟩ := t
  change strcmp p (t ++ 0 :: after) = .ok 0 ↔ _
  induction t generalizing p with
  | nil =>
      cases p with
      | nil => simp [strcmp]
      | cons c p =>
          have difference := uchar_difference_eq_zero c 0
          by_cases h : c = 0
          · simp [strcmp, h]
          · simpa [strcmp, h, Ne.symm h] using difference.not.mpr h
  | cons d t ih =>
      rw [List.mem_cons, not_or] at clean
      cases p with
      | nil => simp [strcmp]
      | cons c p =>
          rw [List.cons_append, List.cons_append, List.cons_prefix_cons, strcmp]
          by_cases same : c = d
          · subst same
            simp [Ne.symm clean.1, ih p clean.2]
          · have apart := (uchar_difference_eq_zero c d).not.mpr same
            simp [same, Ne.symm same, apart]

theorem strcmp_ok (p : List UInt8) (t : CString) (after : List UInt8)
    (room : 0 ∈ p ∨ t.chars.length < p.length) : ∃ r, strcmp p (t.stored after) = .ok r := by
  obtain ⟨t, clean⟩ := t
  change _ ∨ t.length < p.length at room
  change ∃ r, strcmp p (t ++ 0 :: after) = .ok r
  induction t generalizing p with
  | nil =>
      cases p with
      | nil => simp at room
      | cons c p =>
          by_cases h : c = 0 <;> simp [strcmp, h]
  | cons d t ih =>
      rw [List.mem_cons, not_or] at clean
      cases p with
      | nil => simp at room
      | cons c p =>
          rw [List.cons_append, strcmp]
          split_ifs with step
          · apply ih p clean.2
            rcases room with member | longer
            · exact Or.inl ((List.mem_cons.mp member).resolve_left (Ne.symm step.1))
            · exact Or.inr (by simpa using longer)
          · exact ⟨_, rfl⟩

end Sphynx.Stdlib

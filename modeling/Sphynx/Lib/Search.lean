import Mathlib.Tactic.SplitIfs

/-!
# Searches by index

What a search over an index range answers: the least or the greatest index with a property, or none
when no index has it. A search from left to right meets the properties shifted by one.
-/

namespace Lib

def First (P : Nat → Prop) : Option Nat → Prop
  | some i => P i ∧ ∀ j, P j → i ≤ j
  | none => ∀ i, ¬ P i

def Last (P : Nat → Prop) : Option Nat → Prop
  | some i => P i ∧ ∀ j, P j → j ≤ i
  | none => ∀ i, ¬ P i

variable {P Q : Nat → Prop} {r r' : Option Nat} {i : Nat}

theorem First.congr (same : ∀ i, P i ↔ Q i) (h : First P r) : First Q r := by
  obtain rfl : P = Q := funext fun i => propext (same i)
  exact h

theorem Last.congr (same : ∀ i, P i ↔ Q i) (h : Last P r) : Last Q r := by
  obtain rfl : P = Q := funext fun i => propext (same i)
  exact h

theorem First.of_holds (h : First P r) (holds : P i) : ∃ j, r = some j ∧ P j ∧ j ≤ i := by
  cases r with
  | none => exact absurd holds (h i)
  | some j => exact ⟨j, rfl, h.1, h.2 i holds⟩

theorem Last.of_holds (h : Last P r) (holds : P i) : ∃ j, r = some j ∧ P j ∧ i ≤ j := by
  cases r with
  | none => exact absurd holds (h i)
  | some j => exact ⟨j, rfl, h.1, h.2 i holds⟩

theorem First.eq_none (h : First P r) (absent : ∀ i, ¬ P i) : r = none := by
  cases r with
  | none => rfl
  | some i => exact absurd h.1 (absent i)

theorem Last.eq_none (h : Last P r) (absent : ∀ i, ¬ P i) : r = none := by
  cases r with
  | none => rfl
  | some i => exact absurd h.1 (absent i)

theorem First.zero (here : P 0) : First P (some 0) := ⟨here, fun j _ => Nat.zero_le j⟩

theorem First.succ (other : ¬ P 0) (later : First (fun i => P (i + 1)) r) :
    First P (r.map (· + 1)) := by
  cases r with
  | none =>
      intro i
      cases i with
      | zero => exact other
      | succ i => exact later i
  | some i =>
      refine ⟨later.1, fun j holds => ?_⟩
      cases j with
      | zero => contradiction
      | succ j => exact Nat.succ_le_succ (later.2 j holds)

theorem Last.succ [Decidable (P 0)] (later : Last (fun i => P (i + 1)) r) :
    Last P (r.elim (if P 0 then some 0 else none) fun i => some (i + 1)) := by
  cases r with
  | none =>
      change Last P (if P 0 then some 0 else none)
      split_ifs with here
      · refine ⟨here, fun j holds => ?_⟩
        cases j with
        | zero => exact Nat.le_refl 0
        | succ j => exact absurd holds (later j)
      · intro i
        cases i with
        | zero => exact here
        | succ i => exact later i
  | some i =>
      refine ⟨later.1, fun j holds => ?_⟩
      cases j with
      | zero => exact Nat.zero_le _
      | succ j => exact Nat.succ_le_succ (later.2 j holds)

end Lib

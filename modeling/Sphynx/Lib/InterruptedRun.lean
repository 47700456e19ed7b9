import Mathlib.Logic.Function.Iterate

/-!
# Interrupted runs

A program goes from state to state; between two of its steps something else may change the state,
any number of times. What it then computes is what it computes alone, up to a relation that every
interruption keeps and no step of the program sees through.
-/

namespace Lib

variable {σ : Type*} {step : σ → σ} {interruption : σ → σ → Prop} {R : σ → σ → Prop}
  {s t : σ} {n : Nat}

/-- `n` steps from `s` to `t`, with interruptions between them. -/
inductive InterruptedRun (step : σ → σ) (interruption : σ → σ → Prop) (s : σ) : Nat → σ → Prop
  | start : InterruptedRun step interruption s 0 s
  | step {n : Nat} {t : σ} : InterruptedRun step interruption s n t →
      InterruptedRun step interruption s (n + 1) (step t)
  | interrupt {n : Nat} {t t' : σ} : InterruptedRun step interruption s n t → interruption t t' →
      InterruptedRun step interruption s n t'

/-- The step from `s` does not tell `s` from a related state. -/
def Blind (step : σ → σ) (R : σ → σ → Prop) (s : σ) : Prop := ∀ t, R s t → R (step s) (step t)

theorem InterruptedRun.related (run : InterruptedRun step interruption s n t) (start : R s s)
    (blind : ∀ k < n, Blind step R (step^[k] s))
    (kept : ∀ a b c, R a b → interruption b c → R a c) : R (step^[n] s) t := by
  induction run with
  | start => exact start
  | step run ih =>
      rename_i k t
      have before := ih fun j less => blind j (Nat.lt_succ_of_lt less)
      rw [Function.iterate_succ_apply']
      exact blind k (Nat.lt_succ_self k) t before
  | interrupt run interrupted ih => exact kept _ _ _ (ih blind) interrupted

end Lib

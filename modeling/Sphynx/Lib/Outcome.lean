import Mathlib.Data.Option.Basic

/-!
# Outcomes

A computation with a state, a way to stop short and a way to have no answer at all. Its outcome is
what it ends with, when that is the same from every state.
-/

namespace Lib

variable {ε σ α β : Type}

/-- From every state the computation ends with `result`. -/
def Outcome (m : ExceptT ε (StateT σ Option) α) (result : Except ε α) : Prop :=
  ∀ s, ∃ s', m s = some (result, s')

def Unanswered (m : ExceptT ε (StateT σ Option) α) : Prop := ∀ s, m s = none

section
variable {m : ExceptT ε (StateT σ Option) α} {f : α → ExceptT ε (StateT σ Option) β} {a : α} {e : ε}
  {s s' : σ}

theorem bind_run_ok (h : m s = some (.ok a, s')) : (m >>= f) s = f a s' := by
  change (m s).bind _ = _
  rw [h]
  rfl

theorem bind_run_error (h : m s = some (.error e, s')) : (m >>= f) s = some (.error e, s') := by
  change (m s).bind _ = _
  rw [h]
  rfl

theorem bind_run_none (h : m s = none) : (m >>= f) s = none := by
  change (m s).bind _ = _
  rw [h]
  rfl

end

namespace Outcome
variable {m : ExceptT ε (StateT σ Option) α} {f : α → ExceptT ε (StateT σ Option) β} {a : α} {e : ε}
  {result : Except ε β}

theorem pure (a : α) : Outcome (Pure.pure a : ExceptT ε (StateT σ Option) α) (.ok a) :=
  fun s => ⟨s, rfl⟩

theorem throw (e : ε) : Outcome (MonadExcept.throw e : ExceptT ε (StateT σ Option) α) (.error e) :=
  fun s => ⟨s, rfl⟩

theorem bind (first : Outcome m (.ok a)) (later : Outcome (f a) result) :
    Outcome (m >>= f) result := by
  intro s
  obtain ⟨s', run⟩ := first s
  obtain ⟨s'', run'⟩ := later s'
  exact ⟨s'', by rw [bind_run_ok run, run']⟩

theorem bind_error (first : Outcome m (.error e)) : Outcome (m >>= f) (.error e) := by
  intro s
  obtain ⟨s', run⟩ := first s
  exact ⟨s', bind_run_error run⟩

theorem unique [Nonempty σ] {r r' : Except ε α} (h : Outcome m r) (h' : Outcome m r') : r = r' := by
  obtain ⟨s⟩ := ‹Nonempty σ›
  obtain ⟨t, run⟩ := h s
  obtain ⟨t', run'⟩ := h' s
  exact congrArg Prod.fst (Option.some.inj (run.symm.trans run'))

theorem not_unanswered [Nonempty σ] {r : Except ε α} (h : Outcome m r) : ¬ Unanswered m := by
  intro none
  obtain ⟨s⟩ := ‹Nonempty σ›
  obtain ⟨s', run⟩ := h s
  rw [none s] at run
  cases run

theorem bind_unanswered (first : Outcome m (.ok a)) (later : Unanswered (f a)) :
    Unanswered (m >>= f) := by
  intro s
  obtain ⟨s', run⟩ := first s
  rw [bind_run_ok run, later s']

end Outcome

theorem Unanswered.bind {m : ExceptT ε (StateT σ Option) α} (first : Unanswered m)
    (f : α → ExceptT ε (StateT σ Option) β) : Unanswered (m >>= f) :=
  fun s => bind_run_none (first s)

end Lib

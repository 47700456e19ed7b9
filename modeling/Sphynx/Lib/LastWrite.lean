/-!
# The last write under a key

Operations that write values under some keys and leave the others alone. Where one operation does so
to a state, a run of them leaves under each key what the last operation concerning it wrote.
-/

namespace Lib

variable {σ ω α β : Type} {effect : ω → α → Option β} {ops : List ω} {a : α} {b : β}

/-- The value that the last of `ops` to write under `a` wrote there. -/
def lastWrite (effect : ω → α → Option β) : List ω → α → Option β
  | [], _ => none
  | op :: ops, a => (lastWrite effect ops a).or (effect op a)

theorem lastWrite_eq_none_iff :
    lastWrite effect ops a = none ↔ ∀ op ∈ ops, effect op a = none := by
  induction ops with
  | nil => simp [lastWrite]
  | cons op ops ih =>
      rw [lastWrite, Option.or_eq_none_iff, ih, List.forall_mem_cons, and_comm]

theorem lastWrite_eq_some_iff :
    lastWrite effect ops a = some b ↔ ∃ before op after, ops = before ++ op :: after ∧
      effect op a = some b ∧ ∀ later ∈ after, effect later a = none := by
  induction ops with
  | nil => simp [lastWrite]
  | cons op ops ih =>
      rw [lastWrite, Option.or_eq_some_iff, ih, lastWrite_eq_none_iff]
      constructor
      · rintro (⟨before, last, after, rfl, wrote, silent⟩ | ⟨silent, wrote⟩)
        · exact ⟨op :: before, last, after, rfl, wrote, silent⟩
        · exact ⟨[], op, ops, rfl, wrote, silent⟩
      · rintro ⟨before, last, after, split, wrote, silent⟩
        cases before with
        | nil =>
            cases split
            exact Or.inr ⟨silent, wrote⟩
        | cons first before =>
            cases split
            exact Or.inl ⟨before, last, after, rfl, wrote, silent⟩

theorem lastWrite_of_agree (some_write : ∃ op ∈ ops, effect op a = some b)
    (agree : ∀ op ∈ ops, ∀ b', effect op a = some b' → b' = b) :
    lastWrite effect ops a = some b := by
  obtain ⟨op, member, wrote⟩ := some_write
  cases last : lastWrite effect ops a with
  | none =>
      rw [lastWrite_eq_none_iff.mp last op member] at wrote
      contradiction
  | some b' =>
      obtain ⟨before, op', after, rfl, wrote', -⟩ := lastWrite_eq_some_iff.mp last
      rw [agree op' (by simp) b' wrote']

/-- The run rule. `view` reads what a state holds under the key. -/
theorem view_foldl {step : σ → ω → σ} (view : σ → β)
    (one : ∀ s, ∀ op ∈ ops, view (step s op) = (effect op a).getD (view s)) (s : σ) :
    view (ops.foldl step s) = (lastWrite effect ops a).getD (view s) := by
  induction ops generalizing s with
  | nil => rfl
  | cons op ops ih =>
      have later := ih (fun s op member => one s op (List.mem_cons_of_mem _ member)) (step s op)
      rw [List.foldl_cons, later, one s op List.mem_cons_self, lastWrite]
      cases lastWrite effect ops a with
      | none => rfl
      | some b => rfl

end Lib

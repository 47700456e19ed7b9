import Mathlib.Logic.Relation
import Mathlib.Data.List.Infix

/-!
# Loops with a fallible body

A `while` loop is a body run turn after turn: each turn fails, leaves the loop with a result, or
goes round again from a new state. `loop` runs a body under a bound on its turns; `Ends`, `Reaches`
and `visits` say what an unbounded run does.
-/

namespace Lib
open Relation

inductive Turn (σ ρ : Type*) where
  | again (state : σ)
  | leave (result : ρ)
deriving DecidableEq, Repr

variable {σ τ ρ ρ' ε ε' : Type*}

/-- At most `fuel` turns of a loop; `none` when they did not suffice. -/
def loop (body : σ → Except ε (Turn σ ρ)) : Nat → σ → Option (Except ε ρ)
  | 0, _ => none
  | fuel + 1, s => match body s with
      | .error e => some (.error e)
      | .ok (.leave r) => some (.ok r)
      | .ok (.again s') => loop body fuel s'

/-- The states in which the first `fuel` turns of a loop start, in order. -/
def visits (body : σ → Except ε (Turn σ ρ)) : Nat → σ → List σ
  | 0, _ => []
  | fuel + 1, s => s :: match body s with
      | .error _ | .ok (.leave _) => []
      | .ok (.again s') => visits body fuel s'

def Again (body : σ → Except ε (Turn σ ρ)) (s s' : σ) : Prop := body s = .ok (.again s')

def Reaches (body : σ → Except ε (Turn σ ρ)) : σ → σ → Prop := ReflTransGen (Again body)

def Ends (body : σ → Except ε (Turn σ ρ)) (s : σ) (out : Except ε ρ) : Prop :=
  ∃ fuel, loop body fuel s = some out

section
variable {body : σ → Except ε (Turn σ ρ)} {s s' s'' : σ} {out out' : Except ε ρ} {n m : Nat}

theorem loop_again (h : Again body s s') (n : Nat) : loop body (n + 1) s = loop body n s' := by
  simp only [loop, show body s = .ok (.again s') from h]

theorem visits_again (h : Again body s s') (n : Nat) :
    visits body (n + 1) s = s :: visits body n s' := by
  simp only [visits, show body s = .ok (.again s') from h]

theorem loop_leave {r : ρ} (h : body s = .ok (.leave r)) (n : Nat) :
    loop body (n + 1) s = some (.ok r) := by
  simp only [loop, h]

theorem loop_error {e : ε} (h : body s = .error e) (n : Nat) :
    loop body (n + 1) s = some (.error e) := by
  simp only [loop, h]

theorem loop_mono (le : n ≤ m) (h : loop body n s = some out) : loop body m s = some out := by
  induction n generalizing m s with
  | zero => cases h
  | succ n ih =>
      obtain ⟨m, rfl⟩ : ∃ k, m = k + 1 := ⟨m - 1, by omega⟩
      cases turn : body s with
      | error e => rwa [loop_error turn] at h ⊢
      | ok t =>
          cases t with
          | leave r => rwa [loop_leave turn] at h ⊢
          | again s' =>
              rw [loop_again turn] at h ⊢
              exact ih (by omega) h

theorem Ends.unique (h : Ends body s out) (h' : Ends body s out') : out = out' := by
  obtain ⟨n, hn⟩ := h
  obtain ⟨m, hm⟩ := h'
  have left := loop_mono (Nat.le_max_left n m) hn
  have right := loop_mono (Nat.le_max_right n m) hm
  exact Option.some.inj (left.symm.trans right)

theorem ends_leave {r : ρ} (h : body s = .ok (.leave r)) : Ends body s (.ok r) :=
  ⟨1, loop_leave h 0⟩

theorem ends_error {e : ε} (h : body s = .error e) : Ends body s (.error e) :=
  ⟨1, loop_error h 0⟩

theorem Again.ends_iff (h : Again body s s') : Ends body s out ↔ Ends body s' out := by
  constructor
  · rintro ⟨n, hn⟩
    cases n with
    | zero => cases hn
    | succ n => exact ⟨n, by rwa [loop_again h] at hn⟩
  · rintro ⟨n, hn⟩
    exact ⟨n + 1, by rwa [loop_again h]⟩

theorem Reaches.ends_iff (h : Reaches body s s') : Ends body s out ↔ Ends body s' out := by
  induction h with
  | refl => rfl
  | tail _ last ih => exact ih.trans last.ends_iff

theorem Reaches.invariant {I : σ → Prop} (h : Reaches body s s') (start : I s)
    (step : ∀ a b, I a → Again body a b → I b) : I s' := by
  induction h with
  | refl => exact start
  | tail _ last ih => exact step _ _ ih last

theorem Ends.last_turn (h : Ends body s out) :
    ∃ t, Reaches body s t ∧ body t = out.map Turn.leave := by
  obtain ⟨n, hn⟩ := h
  induction n generalizing s with
  | zero => cases hn
  | succ n ih =>
      cases turn : body s with
      | error e =>
          rw [loop_error turn] at hn
          cases hn
          exact ⟨s, .refl, turn⟩
      | ok t =>
          cases t with
          | leave r =>
              rw [loop_leave turn] at hn
              cases hn
              exact ⟨s, .refl, turn⟩
          | again s' =>
              rw [loop_again turn] at hn
              obtain ⟨t, reach, last⟩ := ih hn
              exact ⟨t, .head turn reach, last⟩

theorem loop_isSome_of_measure (μ : σ → Nat)
    (drops : ∀ a b, Reaches body s a → Again body a b → μ b < μ a) (enough : μ s < n) :
    (loop body n s).isSome := by
  induction n generalizing s with
  | zero => omega
  | succ n ih =>
      cases turn : body s with
      | error e => rw [loop_error turn]; rfl
      | ok t =>
          cases t with
          | leave r => rw [loop_leave turn]; rfl
          | again s' =>
              rw [loop_again turn]
              have less := drops s s' .refl turn
              exact ih (fun a b reach => drops a b (.head turn reach)) (by omega)

theorem countP_visits_le (p : σ → Bool) (μ : σ → Nat)
    (positive : ∀ a, Reaches body s a → p a → 0 < μ a)
    (drops : ∀ a b, Reaches body s a → Again body a b → μ b < μ a) (n : Nat) :
    (visits body n s).countP p ≤ μ s := by
  have single (a : σ) (h : p a → 0 < μ a) : [a].countP p ≤ μ a := by
    cases hp : p a with
    | false => simp [hp]
    | true =>
        rw [List.countP_singleton, if_pos hp]
        exact h hp
  induction n generalizing s with
  | zero => simp [visits]
  | succ n ih =>
      have one := single s (positive s .refl)
      cases turn : body s with
      | error e => simpa only [visits, turn] using one
      | ok t =>
          cases t with
          | leave r => simpa only [visits, turn] using one
          | again b =>
              have less := drops s b .refl turn
              have rest := ih (fun a reach => positive a (.head turn reach))
                (fun a c reach => drops a c (.head turn reach))
              rw [visits_again turn, List.countP_cons]
              split_ifs <;> omega

theorem mem_visits_reaches (h : s' ∈ visits body n s) : Reaches body s s' := by
  induction n generalizing s with
  | zero => simp [visits] at h
  | succ n ih =>
      cases turn : body s with
      | error e =>
          simp only [visits, turn, List.mem_singleton] at h
          exact h ▸ .refl
      | ok t =>
          cases t with
          | leave r =>
              simp only [visits, turn, List.mem_singleton] at h
              exact h ▸ .refl
          | again b =>
              rw [visits_again turn, List.mem_cons] at h
              rcases h with rfl | h
              · exact .refl
              · exact .head turn (ih h)

theorem visits_pairwise (R : σ → σ → Prop) [IsTrans σ R]
    (grows : ∀ a b, Reaches body s a → Again body a b → R a b) (n : Nat) :
    (visits body n s).Pairwise R := by
  induction n generalizing s with
  | zero => exact List.Pairwise.nil
  | succ n ih =>
      cases turn : body s with
      | error e => simp [visits, turn]
      | ok t =>
          cases t with
          | leave r => simp [visits, turn]
          | again b =>
              rw [visits_again turn, List.pairwise_cons]
              refine ⟨fun c member => ?_, ih fun a c reach => grows a c (.head turn reach)⟩
              have reach : Reaches body b c := mem_visits_reaches member
              have first : R s b := grows s b .refl turn
              refine reach.rec first fun before last sofar => ?_
              exact IsTrans.trans _ _ _ sofar (grows _ _ (.head turn before) last)

end

theorem visits_prefix {body : σ → Except ε (Turn σ ρ)} {body' : τ → Except ε' (Turn τ ρ')}
    (view : τ → σ)
    (follows : ∀ t s', Again body (view t) s' → ∃ t', Again body' t t' ∧ view t' = s')
    (n : Nat) (t : τ) :
    visits body n (view t) <+: (visits body' n t).map view := by
  induction n generalizing t with
  | zero => exact List.prefix_rfl
  | succ n ih =>
      cases turn : body (view t) with
      | error e =>
          simp only [visits, turn, List.map_cons]
          exact List.cons_prefix_cons.mpr ⟨rfl, List.nil_prefix⟩
      | ok next =>
          cases next with
          | leave r =>
              simp only [visits, turn, List.map_cons]
              exact List.cons_prefix_cons.mpr ⟨rfl, List.nil_prefix⟩
          | again s' =>
              obtain ⟨t', again, rfl⟩ := follows t s' turn
              rw [visits_again turn, visits_again again, List.map_cons]
              exact List.cons_prefix_cons.mpr ⟨rfl, ih t'⟩

/-! ## Bodies that do not fail -/

def runLoop (body : σ → Turn σ ρ) (fuel : Nat) (s : σ) : Option ρ :=
  match loop (fun s => (.ok (body s) : Except Empty (Turn σ ρ))) fuel s with
  | some (.ok r) => some r
  | none => none

theorem runLoop_again {body : σ → Turn σ ρ} {s s' : σ} (h : body s = .again s') (n : Nat) :
    runLoop body (n + 1) s = runLoop body n s' := by
  have again : Again (fun s => (.ok (body s) : Except Empty (Turn σ ρ))) s s' := congrArg Except.ok h
  unfold runLoop
  rw [loop_again again]

theorem runLoop_leave {body : σ → Turn σ ρ} {s : σ} {r : ρ} (h : body s = .leave r) (n : Nat) :
    runLoop body (n + 1) s = some r := by
  have leave : (.ok (body s) : Except Empty (Turn σ ρ)) = .ok (.leave r) := congrArg Except.ok h
  unfold runLoop
  rw [loop_leave leave]

/-- Enough fuel gives `out`, and more gives it too. -/
def Yields (f : Nat → Option ρ) (out : ρ) : Prop := ∃ n, ∀ m, n ≤ m → f m = some out

section
variable {f : Nat → Option ρ} {out : ρ}

theorem yields_pure (out : ρ) : Yields (fun _ => some out) out := ⟨0, fun _ _ => rfl⟩

theorem Yields.bind {α β : Type} {f : Nat → Option α} {g : Nat → α → Option β} {a : α} {b : β}
    (h : Yields f a) (next : Yields (g · a) b) : Yields (fun fuel => f fuel >>= g fuel) b := by
  obtain ⟨n, enough⟩ := h
  obtain ⟨n', enough'⟩ := next
  refine ⟨max n n', fun m le => ?_⟩
  have first := enough m (Nat.le_trans (Nat.le_max_left n n') le)
  have second := enough' m (Nat.le_trans (Nat.le_max_right n n') le)
  change (f m).bind (g m) = some b
  rw [first]
  exact second

theorem Yields.map (h : Yields f out) (g : ρ → ρ') : Yields (fun fuel => (f fuel).map g) (g out) := by
  obtain ⟨n, enough⟩ := h
  exact ⟨n, fun m le => congrArg (Option.map g) (enough m le)⟩

end

theorem yields_leave {body : σ → Turn σ ρ} {s : σ} {r : ρ} (h : body s = .leave r) :
    Yields (runLoop body · s) r := by
  refine ⟨1, fun m le => ?_⟩
  obtain ⟨m, rfl⟩ : ∃ k, m = k + 1 := ⟨m - 1, by omega⟩
  exact runLoop_leave h m

theorem yields_again {body : σ → Turn σ ρ} {s s' : σ} {r : ρ} (h : body s = .again s')
    (later : Yields (runLoop body · s') r) : Yields (runLoop body · s) r := by
  obtain ⟨n, enough⟩ := later
  refine ⟨n + 1, fun m le => ?_⟩
  obtain ⟨m, rfl⟩ : ∃ k, m = k + 1 := ⟨m - 1, by omega⟩
  exact (runLoop_again h m).trans (enough m (by omega))

end Lib

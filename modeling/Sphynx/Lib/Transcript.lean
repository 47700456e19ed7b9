import Sphynx.Lib.Outcome

/-!
# Transcripts

What a computation writes into its state, event by event, and ends with, when both are the same
from every state.
-/

namespace Lib

variable {ε σ ω α β : Type} {emit : σ → ω → σ} {events events' : List ω}

/-- From every state the computation emits `events` in their order and ends with `result`. -/
def Writes (emit : σ → ω → σ) (m : ExceptT ε (StateT σ Option) α) (events : List ω)
    (result : Except ε α) : Prop :=
  ∀ s, m s = some (result, events.foldl emit s)

namespace Writes
variable {m : ExceptT ε (StateT σ Option) α} {f : α → ExceptT ε (StateT σ Option) β} {a : α} {e : ε}

theorem pure (a : α) : Writes emit (pure a : ExceptT ε (StateT σ Option) α) [] (.ok a) := fun _ => rfl

theorem throw (e : ε) : Writes emit (throw e : ExceptT ε (StateT σ Option) α) [] (.error e) :=
  fun _ => rfl

theorem bind {result : Except ε β} (first : Writes emit m events (.ok a))
    (later : Writes emit (f a) events' result) :
    Writes emit (m >>= f) (events ++ events') result := by
  intro s
  rw [bind_run_ok (first s), later, List.foldl_append]

theorem bind_error (first : Writes emit m events (.error e)) :
    Writes emit (m >>= f) events (.error e) :=
  fun s => bind_run_error (first s)

theorem bind_silent {result : Except ε β} (first : Writes emit m [] (.ok a))
    (later : Writes emit (f a) events result) : Writes emit (m >>= f) events result :=
  first.bind later

theorem bind_one {result : Except ε β} {event : ω} (first : Writes emit m [event] (.ok a))
    (later : Writes emit (f a) events result) : Writes emit (m >>= f) (event :: events) result :=
  first.bind later

theorem forM {γ : Type} {l : List γ} {act : γ → ExceptT ε (StateT σ Option) Unit} {event : γ → ω}
    (each : ∀ c ∈ l, Writes emit (act c) [event c] (.ok ())) :
    Writes emit (l.forM act) (l.map event) (.ok ()) := by
  induction l with
  | nil => exact .pure ()
  | cons c l ih =>
      have later := ih fun c member => each c (List.mem_cons_of_mem _ member)
      exact (each c List.mem_cons_self).bind_one later

end Writes

end Lib

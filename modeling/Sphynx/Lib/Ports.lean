import Mathlib.Data.BitVec
import Sphynx.Lib.Loop

/-!
# Devices behind I/O ports

A device answers accesses to its ports, and between two accesses it may change by itself; `moves`
says how, access by access, so that a statement about all `moves` is one about all timings.
-/

namespace Lib

abbrev Port := BitVec 16

structure PortBus (δ : Type*) where
  read : Port → δ → BitVec 8 × δ
  write : Port → BitVec 8 → δ → δ
  moves : Nat → δ → δ

/-- A device, and how many accesses have been made to it. -/
structure PortState (δ : Type*) where
  device : δ
  accesses : Nat := 0

variable {δ : Type*} (bus : PortBus δ) (port : Port)

namespace PortBus

def moved (s : PortState δ) : δ := bus.moves s.accesses s.device

def inb (s : PortState δ) : BitVec 8 × PortState δ :=
  let (value, device) := bus.read port (bus.moved s)
  (value, { device := device, accesses := s.accesses + 1 })

def outb (value : BitVec 8) (s : PortState δ) : PortState δ :=
  { device := bus.write port value (bus.moved s), accesses := s.accesses + 1 }

end PortBus

/-! ## Waiting -/

section
variable {σ : Type*} (ask : σ → Bool × σ)

/-- `while (!ask());` -/
def waitTurn (s : σ) : Turn σ σ :=
  let (yes, s) := ask s
  if yes then .leave s else .again s

def waitFor (fuel : Nat) (s : σ) : Option σ := runLoop (waitTurn ask) fuel s

/-- The state after asking `n` times. -/
def asked : Nat → σ → σ
  | 0, s => s
  | n + 1, s => asked n (ask s).2

variable {ask} {s s' : σ} {n fuel : Nat}

theorem waitTurn_yes (yes : (ask s).1 = true) : waitTurn ask s = .leave (ask s).2 := if_pos yes

theorem waitTurn_no (no : (ask s).1 = false) : waitTurn ask s = .again (ask s).2 :=
  if_neg (by rw [no]; exact Bool.false_ne_true)

theorem waitFor_end {P : σ → Prop} (start : P s) (kept : ∀ s, P s → (ask s).1 = false → P (ask s).2)
    (run : waitFor ask fuel s = some s') : ∃ t, P t ∧ (ask t).1 = true ∧ s' = (ask t).2 := by
  induction fuel generalizing s with
  | zero => cases run
  | succ fuel ih =>
      cases answer : (ask s).1 with
      | true =>
          rw [waitFor, runLoop_leave (waitTurn_yes answer)] at run
          cases run
          exact ⟨s, start, answer, rfl⟩
      | false =>
          rw [waitFor, runLoop_again (waitTurn_no answer)] at run
          exact ih (kept s start answer) run

theorem waitFor_yields (yes : (ask (asked ask n s)).1 = true) :
    ∃ s', Yields (waitFor ask · s) s' := by
  induction n generalizing s with
  | zero => exact ⟨_, yields_leave (waitTurn_yes yes)⟩
  | succ n ih =>
      cases answer : (ask s).1 with
      | true => exact ⟨_, yields_leave (waitTurn_yes answer)⟩
      | false =>
          obtain ⟨s', later⟩ := ih yes
          exact ⟨s', yields_again (waitTurn_no answer) later⟩

end

end Lib

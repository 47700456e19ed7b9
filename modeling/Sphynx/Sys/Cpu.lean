import Sphynx.Core.Idt
import Sphynx.Dev.Tty
import Sphynx.Lib.Outcome

/-!
# Running and stopping the kernel (`cpu.hpp`, `cpu.cpp`)
-/

namespace Sphynx.Sys
open Lib Dev External Sphynx.Core

/-- How the kernel stops before it is done: in `hcf`, or by a read it must not make. -/
inductive Stop where
  | hcf
  | fault (fault : Fault)
deriving DecidableEq, Repr

/-- Code of the kernel. It prints; it has no answer where a loop ran out of fuel, or where arguments
do not match their format. -/
abbrev Run := ExceptT Stop (StateT Tty Option)

variable {α : Type}

def print (output : Tty → Option Tty) : Run Unit := fun tty =>
  (output tty).map fun tty => (.ok (), tty)

def hcf : Run α := throw .hcf

def use : Option α → Run α
  | some target => pure target
  | none => throw (.fault .nullPointer)

def finish : Option (Except Fault α) → Run α
  | none => fun _ => none
  | some (.ok value) => pure value
  | some (.error fault) => throw (.fault fault)

/-- `_kpanic_handler` with `SPHYNX_SIMPLE_PANIC` set. -/
def kpanic (frame : Option IntFrame) (reason file : List UInt8) (line : UInt64) : Run α := do
  let rip : UInt64 := match frame with
    | none => 0x0
    | some frame => .ofBitVec frame.rip
  print (kmprintf (ascii "\x1b[31mKernel Panic @ CPU %s (0x%.16llx), Reason: \"%s\", %s:%d\n")
    [.str (ascii "???"), .word rip, .str reason, .str file, .word line])
  hcf

theorem print_outcome {output : Tty → Option Tty} (prints : ∀ tty, (output tty).isSome) :
    Outcome (print output) (.ok ()) := by
  intro tty
  obtain ⟨tty', run⟩ := Option.isSome_iff_exists.mp (prints tty)
  exact ⟨tty', by simp [print, run]⟩

theorem log_outcome (logger : Logger) {call : LogCall} (matched : call.Matched) :
    Outcome (print (logger.log call)) (.ok ()) := by
  obtain ⟨text, emits⟩ := logger.log_emits matched
  exact print_outcome fun tty => by rw [emits]; rfl

theorem logAll_outcome (logger : Logger) {calls : List LogCall}
    (matched : ∀ call ∈ calls, call.Matched) : Outcome (print (logger.logAll calls)) (.ok ()) := by
  obtain ⟨text, emits⟩ := logger.logAll_emits matched
  exact print_outcome fun tty => by rw [emits]; rfl

theorem hcf_outcome : Outcome (hcf : Run α) (.error .hcf) := .throw _

theorem kpanic_outcome (frame : Option IntFrame) (reason file : List UInt8) (line : UInt64) :
    Outcome (kpanic frame reason file line : Run α) (.error .hcf) := by
  unfold kpanic
  refine .bind (a := ()) (print_outcome fun tty => ?_) hcf_outcome
  generalize (match frame with | none => (0x0 : UInt64) | some frame => .ofBitVec frame.rip) = rip
  have kinds := npfVpprintf_kinds
    (ascii "\x1b[31mKernel Panic @ CPU %s (0x%.16llx), Reason: \"%s\", %s:%d\n")
    [.str (ascii "???"), .word rip, .str reason, .str file, .word line]
    [.str [], .word 0, .str [], .str [], .word 0] rfl
  have matched := kinds.trans (b := _) (c := true) (by decide)
  obtain ⟨text, formatted⟩ := Option.isSome_iff_exists.mp matched
  rw [kmprintf_eq formatted]
  rfl

end Sphynx.Sys

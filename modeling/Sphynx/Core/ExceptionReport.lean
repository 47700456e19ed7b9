import Sphynx.Core.IdtStub
import Sphynx.Sys.Console

/-!
# What an exception leaves on the screen

From the state an exception interrupts, through the stub, the frame and the formatter, to the bytes
on the two sinks.
-/

namespace Sphynx.Core
open Lib Dev External Sys

theorem reasons_short : ∀ i < 32, (reasons.getD i []).length ≤ 40 := by decide

theorem panicLine_fits {digits reason : List UInt8} (length : digits.length = 16)
    (short : reason.length ≤ 40) :
    shown (panicLine digits reason (ascii "src/core/idt.cpp") (ascii "110")) =
      panicLine digits reason (ascii "src/core/idt.cpp") (ascii "110") := by
  have file : (ascii "src/core/idt.cpp").length = 16 := by decide
  have number : (ascii "110").length = 3 := by decide
  refine shown_whole ?_
  rw [panicLine_length, length, file, number, bufferSize]
  omega

theorem immediate_toNat (v : UInt8) : (immediate v).toNat = v.toNat := by
  rw [immediate, BitVec.toNat_setWidth]
  exact Nat.mod_eq_of_lt (by have := v.toNat_lt; omega)

theorem immediate_exception (v : UInt8) : immediate v < 0x20 ↔ v < 0x20 := by
  rw [BitVec.lt_def, UInt8.lt_iff_toNat_lt, immediate_toNat]
  rfl

theorem excpHandler_silent {frame : IntFrame} (other : ¬ frame.vector < 0x20) (tty : Tty) :
    excpHandler frame tty = some (.ok (), tty) := by
  rw [excpHandler, if_neg other]
  split_ifs <;> rfl

theorem excpHandler_reports {frame : IntFrame} (exception : frame.vector < 0x20) (tty : Tty) :
    excpHandler frame tty = some (.error .hcf, tty.emit (panicLine
      (hexDigits (.ofBitVec frame.rip)) (reasons.getD frame.vector.toNat [])
      (ascii "src/core/idt.cpp") (ascii "110"))) := by
  have number : intSpec.text 110 = ascii "110" := by decide
  have panics := kpanic_prints (α := Unit) (some frame) (reasons.getD frame.vector.toNat [])
    (ascii "src/core/idt.cpp") 110 tty
  have short := reasons_short frame.vector.toNat (BitVec.lt_def.mp exception)
  have file : counted (ascii "src/core/idt.cpp") = ascii "src/core/idt.cpp" := by decide
  rw [excpHandler, if_pos exception, bind_run_error panics, number, file,
    counted_eq (Nat.lt_of_le_of_lt short (by decide)), panicLine_fits (hexDigits_length _) short]
  rfl

/-- An exception prints one line with its reason and the address of the interrupted instruction,
or for the two vectors whose stub drops no error code that code instead, and stops the kernel;
every other vector is handled in silence. -/
theorem exception_reported (s : Interrupted) (v : UInt8) (tty : Tty) :
    let address : Word := if v = 21 ∨ v = 29 then s.errorCode else s.machine.rip
    readNumeral 16 (hexDigits (.ofBitVec address)) = some address.toNat ∧
      excpHandler (s.argument v) tty =
        if v < 0x20 then some (.error .hcf, tty.emit (panicLine (hexDigits (.ofBitVec address))
          (reasons.getD v.toNat []) (ascii "src/core/idt.cpp") (ascii "110")))
        else some (.ok (), tty) := by
  intro address
  refine ⟨hexDigits_reads _, ?_⟩
  have vector : (s.argument v).vector < 0x20 ↔ v < 0x20 := by
    rw [s.argument_vector, immediate_exception]
  by_cases exception : v < 0x20
  · rw [if_pos exception, excpHandler_reports (vector.mpr exception), s.argument_rip,
      s.argument_vector, immediate_toNat]
  · rw [if_neg exception, excpHandler_silent (mt vector.mp exception)]

end Sphynx.Core

import Sphynx.External.FormatTexts
import Sphynx.Lib.Transcript
import Sphynx.Sys.Cpu

/-!
# What the kernel sends to the console
-/

namespace Sphynx.Sys
open Lib Dev External Sphynx.Core

/-! ## Sending -/

inductive Sent where
  | port (text : List UInt8)
  | both (text : List UInt8)
deriving DecidableEq, Repr

namespace Sent

def emit (tty : Tty) : Sent → Tty
  | .port text => { tty with debugPort := tty.debugPort ++ text }
  | .both text => tty.emit text

def onTerminal : Sent → List UInt8
  | .port _ => []
  | .both text => text

def onPort : Sent → List UInt8
  | .port text | .both text => text

theorem foldl_emit (sent : List Sent) (tty : Tty) :
    sent.foldl emit tty =
      { terminal := tty.terminal ++ sent.flatMap onTerminal
        debugPort := tty.debugPort ++ sent.flatMap onPort } := by
  induction sent generalizing tty with
  | nil => simp
  | cons first later ih => cases first <;> simp [ih, emit, onTerminal, onPort, Tty.emit]

end Sent

def Sends {α : Type} (m : Run α) (sent : List Sent) (result : Except Stop α) : Prop :=
  Writes Sent.emit m sent result

variable {α : Type} {text : List UInt8}

theorem print_sends {output : Tty → Option Tty} (sends : ∀ tty, output tty = some (tty.emit text)) :
    Sends (print output) [.both text] (.ok ()) := by
  intro tty
  rw [print, sends]
  rfl

/-! ## The line a panic prints -/

def panicLine (digits reason file number : List UInt8) : List UInt8 :=
  ascii "\x1b[31mKernel Panic @ CPU ??? (0x" ++ (digits ++ (ascii "), Reason: \"" ++ (reason ++
    (ascii "\", " ++ (file ++ (ascii ":" ++ (number ++ ascii "\n")))))))

theorem panicLine_length (digits reason file number : List UInt8) :
    (panicLine digits reason file number).length =
      48 + digits.length + reason.length + file.length + number.length := by
  have before : (ascii "\x1b[31mKernel Panic @ CPU ??? (0x").length = 31 := by decide
  have behind : (ascii "), Reason: \"").length = 12 := by decide
  have place : (ascii "\", ").length = 3 := by decide
  have colon : (ascii ":").length = 1 := by decide
  have newline : (ascii "\n").length = 1 := by decide
  simp only [panicLine, List.length_append, before, behind, place, colon, newline]
  omega

theorem panic_pieces :
    pieces (ascii "\x1b[31mKernel Panic @ CPU %s (0x%.16llx), Reason: \"%s\", %s:%d\n") =
      (ascii "\x1b[31mKernel Panic @ CPU ").map .char ++ .spec stringSpec :: ((ascii " (0x").map .char ++
        .spec hexSpec :: ((ascii "), Reason: \"").map .char ++ .spec stringSpec ::
          ((ascii "\", ").map .char ++ .spec stringSpec :: ((ascii ":").map .char ++ .spec intSpec ::
            ((ascii "\n").map .char ++ []))))) := by
  decide

theorem panic_text (reason file : List UInt8) (rip line : UInt64) :
    npfVpprintf (ascii "\x1b[31mKernel Panic @ CPU %s (0x%.16llx), Reason: \"%s\", %s:%d\n")
      [.str (ascii "???"), .word rip, .str reason, .str file, .word line] =
      some (panicLine (hexDigits rip) (counted reason) (counted file) (intSpec.text line)) := by
  have cpu : counted (ascii "???") = ascii "???" := by decide
  have front : ascii "\x1b[31mKernel Panic @ CPU " ++ (ascii "???" ++ ascii " (0x") =
      ascii "\x1b[31mKernel Panic @ CPU ??? (0x" := by decide
  have decimal : intSpec.print [.word line] = some (intSpec.text line, []) :=
    FormatSpec.print_word (by decide) (by decide) (by decide) line []
  rw [npfVpprintf_eq, panic_pieces, printPieces_chars, printPieces_spec (stringSpec_prints _ _),
    printPieces_chars, printPieces_spec (hexSpec_prints _ _), printPieces_chars,
    printPieces_spec (stringSpec_prints _ _), printPieces_chars,
    printPieces_spec (stringSpec_prints _ _), printPieces_chars, printPieces_spec decimal,
    printPieces_chars]
  simp only [printPieces, Option.map_some, List.append_nil, panicLine, cpu, ← front,
    List.append_assoc]

def reportedRip : Option IntFrame → UInt64
  | none => 0x0
  | some frame => .ofBitVec frame.rip

/-- A panic prints one line on both sinks, unless it does not fit, and stops. -/
theorem kpanic_prints (frame : Option IntFrame) (reason file : List UInt8) (line : UInt64)
    (tty : Tty) : (kpanic frame reason file line : Run α) tty = some (.error .hcf, tty.emit (shown
      (panicLine (hexDigits (reportedRip frame)) (counted reason) (counted file)
        (intSpec.text line)))) := by
  have text := kmprintf_eq (panic_text reason file (reportedRip frame) line) tty
  have printed : print (kmprintf
      (ascii "\x1b[31mKernel Panic @ CPU %s (0x%.16llx), Reason: \"%s\", %s:%d\n")
      [.str (ascii "???"), .word (reportedRip frame), .str reason, .str file, .word line]) tty =
      some (.ok (), tty.emit (shown
        (panicLine (hexDigits (reportedRip frame)) (counted reason) (counted file)
          (intSpec.text line)))) := by
    rw [print, text]
    rfl
  exact bind_run_ok printed

end Sphynx.Sys

import Sphynx.Lib.Parts
import Sphynx.Sys.Console

/-!
# The register dump of a panic (`_kpanic_handler`)

The handler under all settings of its switches, and the interrupted registers read back from what
it prints.
-/

namespace Sphynx.Sys
open Lib Dev External Sphynx.Core

/-! ## The handler -/

structure PanicSwitches where
  simplePanic : Bool
  verboseIdt : Bool
  dumpRegOnInt : Bool
deriving DecidableEq, Repr

/-- The settings in `config.hpp`. -/
def shippedSwitches : PanicSwitches :=
  { simplePanic := true, verboseIdt := false, dumpRegOnInt := false }

def registers (frame : IntFrame) : List (List UInt8 × BitVec 64) :=
  [ (ascii "CR2", frame.cr2),
    (ascii "CR3", frame.cr3),
    (ascii "RAX", frame.rax),
    (ascii "RBX", frame.rbx),
    (ascii "RCX", frame.rcx),
    (ascii "RDX", frame.rdx),
    (ascii "RSI", frame.rsi),
    (ascii "RDI", frame.rdi),
    (ascii "RBP", frame.rbp),
    (ascii "R8 ", frame.r8),
    (ascii "R9 ", frame.r9),
    (ascii "R10", frame.r10),
    (ascii "R11", frame.r11),
    (ascii "R12", frame.r12),
    (ascii "R13", frame.r13),
    (ascii "R14", frame.r14),
    (ascii "R15", frame.r15),
    (ascii "RIP", frame.rip),
    (ascii "CS ", frame.cs),
    (ascii "RFLAGS", frame.rflags),
    (ascii "RSP", frame.rsp),
    (ascii "SS ", frame.ss),
    (ascii "DS ", frame.ds),
    (ascii "ERR", frame.err),
    (ascii "VECTOR", frame.vector) ]

def basicRegisters (frame : IntFrame) : List (List UInt8 × BitVec 64) :=
  [ (ascii "RIP", frame.rip),
    (ascii "RSP", frame.rsp),
    (ascii "RFLAGS", frame.rflags),
    (ascii "CS ", frame.cs),
    (ascii "SS ", frame.ss) ]

def dumpRegister (register : List UInt8 × BitVec 64) : Run Unit :=
  print (dprintf (ascii "\x1b[31m  %-12s: 0x%016llx\x1b[0m\n")
    [.str register.1, .word (.ofBitVec register.2)])

def dump (switches : PanicSwitches) (frame : IntFrame) : Run Unit :=
  if switches.verboseIdt then do
    print (dprintf (ascii "\x1b[31mRegister dump:\x1b[0m\n") [])
    (registers frame).forM dumpRegister
  else if switches.dumpRegOnInt then do
    print (dprintf (ascii "\x1b[31mBasic register dump:\x1b[0m\n") [])
    (basicRegisters frame).forM dumpRegister
  else return

def dprintfIf (c : Prop) [Decidable c] (text : List UInt8) : Run Unit :=
  if c then print (dprintf text []) else return

def pageFaultDetails (frame : IntFrame) : Run Unit :=
  if frame.vector = 14 then do
    print (dprintf (ascii "\x1b[31mPage Fault Details:\x1b[0m\n") [])
    print (dprintf (ascii "\x1b[31m  Operation: %s\x1b[0m\n") [.str
      (if frame.err &&& 0x1 ≠ 0 then ascii "Protection Violation" else ascii "Non-Present Page")])
    print (dprintf (ascii "\x1b[31m  Access Type: %s\x1b[0m\n") [.str
      (if frame.err &&& 0x2 ≠ 0 then ascii "Write" else ascii "Read")])
    print (dprintf (ascii "\x1b[31m  Privilege Level: %s\x1b[0m\n") [.str
      (if frame.err &&& 0x4 ≠ 0 then ascii "User Mode" else ascii "Supervisor Mode")])
    dprintfIf (frame.err &&& 0x8 ≠ 0) (ascii "\x1b[31m  Reserved Write: Yes\x1b[0m\n")
    dprintfIf (frame.err &&& 0x10 ≠ 0) (ascii "\x1b[31m  Instruction Fetch: Yes\x1b[0m\n")
  else return

/-- `_kpanic_handler`. -/
def kpanicHandler {α : Type} (switches : PanicSwitches) (frame : Option IntFrame)
    (file : List UInt8) (line : UInt64) (reason : List UInt8) : Run α := do
  if switches.simplePanic then
    kpanic frame reason file line
  else
    print (kmprintf (ascii "\n\x1b[31mKernel panic - cpu %s: %s\x1b[0m\n")
      [.str (ascii "???"), .str reason])
    print (kmprintf (ascii "\x1b[31mIn file: %s, line: %d\x1b[0m\n") [.str file, .word line])
    frame.forM (dump switches)
    frame.forM pageFaultDetails
    print (kmprintf (ascii "\x1b[31mStack trace:\x1b[0m\n") [])
    print (kmprintf (ascii "\x1b[31m  (TODO: Implement stack trace)\x1b[0m\n") [])
    hcf

/-! ## The lines it prints -/

def newline : UInt8 := 10

def registerLine (register : List UInt8 × BitVec 64) : List UInt8 :=
  ascii "\x1b[31m  " ++ (blankPadded 12 register.1 ++ (ascii ": 0x" ++
    (hexDigits (.ofBitVec register.2) ++ ascii "\x1b[0m")))

def detailLine (title text : List UInt8) : List UInt8 :=
  ascii "\x1b[31m  " ++ (title ++ (ascii ": " ++ (text ++ ascii "\x1b[0m")))

def faultLines (frame : IntFrame) : List (List UInt8) :=
  if frame.vector = 14 then
    [ascii "\x1b[31mPage Fault Details:\x1b[0m",
      detailLine (ascii "Operation")
        (if frame.err &&& 0x1 ≠ 0 then ascii "Protection Violation" else ascii "Non-Present Page"),
      detailLine (ascii "Access Type")
        (if frame.err &&& 0x2 ≠ 0 then ascii "Write" else ascii "Read"),
      detailLine (ascii "Privilege Level")
        (if frame.err &&& 0x4 ≠ 0 then ascii "User Mode" else ascii "Supervisor Mode")] ++
    (if frame.err &&& 0x8 ≠ 0 then [detailLine (ascii "Reserved Write") (ascii "Yes")] else []) ++
    (if frame.err &&& 0x10 ≠ 0 then [detailLine (ascii "Instruction Fetch") (ascii "Yes")] else [])
  else []

def dumpHeading : List UInt8 := ascii "\x1b[31mRegister dump:\x1b[0m"

def traceLines : List (List UInt8) :=
  [ascii "\x1b[31mStack trace:\x1b[0m", ascii "\x1b[31m  (TODO: Implement stack trace)\x1b[0m"]

def sentLine (line : List UInt8) : Sent := .both (line ++ [newline])

variable {α : Type} {text line : List UInt8} {args : List Arg} {fmt : List UInt8}

theorem dprintf_sends (formatted : npfVpprintf fmt args = some (line ++ [newline]))
    (fits : line.length < 1023) :
    Sends (print (dprintf fmt args)) [sentLine line] (.ok ()) := by
  have whole : shown (line ++ [newline]) = line ++ [newline] := by
    apply shown_whole
    rw [List.length_append, List.length_singleton, bufferSize]
    omega
  apply print_sends
  intro tty
  rw [← whole]
  exact kmprintf_eq formatted tty

theorem register_text {register : List UInt8 × BitVec 64} (short : register.1.length ≤ 12) :
    npfVpprintf (ascii "\x1b[31m  %-12s: 0x%016llx\x1b[0m\n")
      [.str register.1, .word (.ofBitVec register.2)] = some (registerLine register ++ [newline]) := by
  have format : pieces (ascii "\x1b[31m  %-12s: 0x%016llx\x1b[0m\n") =
      (ascii "\x1b[31m  ").map .char ++ .spec (leftSpec 12) :: ((ascii ": 0x").map .char ++
        .spec zeroHexSpec :: ((ascii "\x1b[0m" ++ [newline]).map .char ++ [])) := by decide
  have name : register.1.length < 2 ^ 31 := Nat.lt_of_le_of_lt short (by decide)
  rw [npfVpprintf_eq, format, printPieces_chars,
    printPieces_spec (leftSpec_prints (by decide) name _), printPieces_chars,
    printPieces_spec (zeroHexSpec_prints _ _), printPieces_chars]
  simp only [printPieces, Option.map_some, List.append_nil, registerLine, List.append_assoc]

theorem registerLine_length {register : List UInt8 × BitVec 64} (short : register.1.length ≤ 12) :
    (registerLine register).length = 43 := by
  have front : (ascii "\x1b[31m  ").length = 7 := by decide
  have middle : (ascii ": 0x").length = 4 := by decide
  have behind : (ascii "\x1b[0m").length = 4 := by decide
  simp only [registerLine, List.length_append, front, middle, behind, blankPadded_length,
    hexDigits_length]
  omega

def zeroFrame : IntFrame :=
  ⟨0, 0, 0, 0, 0, 0, 0, 0, 0, 0, 0, 0, 0, 0, 0, 0, 0, 0, 0, 0, 0, 0, 0, 0, 0⟩

def registerNames : List (List UInt8) := (registers zeroFrame).map Prod.fst

theorem registers_names (frame : IntFrame) : (registers frame).map Prod.fst = registerNames := rfl

theorem registerNames_plain : ∀ name ∈ registerNames, name.length ≤ 12 ∧ newline ∉ name := by decide

theorem register_plain {frame : IntFrame} {register : List UInt8 × BitVec 64}
    (member : register ∈ registers frame) : register.1.length ≤ 12 ∧ newline ∉ register.1 := by
  apply registerNames_plain
  rw [← registers_names frame]
  exact List.mem_map_of_mem member

theorem hexDigits_plain {c : UInt8} {w : UInt64} (member : c ∈ hexDigits w) : c ≠ newline := by
  obtain ⟨ds, spells, -⟩ := hexDigits_spells w
  obtain ⟨d, -, value⟩ := spells.digit member
  rintro rfl
  cases value

/-- A line that stands for itself in the dump: one line, and not the heading. -/
structure DumpLine (line : List UInt8) : Prop where
  single : newline ∉ line
  other : line ≠ dumpHeading
  fits : line.length < 1023

theorem registerLine_dumpLine {register : List UInt8 × BitVec 64}
    (plain : register.1.length ≤ 12 ∧ newline ∉ register.1) : DumpLine (registerLine register) := by
  have length := registerLine_length plain.1
  refine ⟨?_, ?_, ?_⟩
  · have front : newline ∉ ascii "\x1b[31m  " := by decide
    have middle : newline ∉ ascii ": 0x" := by decide
    have behind : newline ∉ ascii "\x1b[0m" := by decide
    have digits : newline ∉ hexDigits (.ofBitVec register.2) := fun member =>
      hexDigits_plain member rfl
    have padding : newline ∉ blankPadded 12 register.1 := by
      rw [blankPadded, List.mem_append, List.mem_replicate]
      rintro (inside | ⟨-, blank⟩)
      · exact plain.2 inside
      · exact absurd blank (by decide)
    simp [registerLine, front, middle, behind, digits, padding]
  · intro same
    rw [same] at length
    revert length
    decide
  · rw [length]
    decide

theorem dumpRegister_sends {register : List UInt8 × BitVec 64} (short : register.1.length ≤ 12) :
    Sends (dumpRegister register) [sentLine (registerLine register)] (.ok ()) :=
  dprintf_sends (register_text short) (by rw [registerLine_length short]; decide)

theorem dump_sends {switches : PanicSwitches} (verbose : switches.verboseIdt = true)
    (frame : IntFrame) :
    Sends (dump switches frame)
      ((dumpHeading :: (registers frame).map registerLine).map sentLine) (.ok ()) := by
  rw [dump, if_pos verbose]
  refine Writes.bind_one (dprintf_sends (by decide) (by decide)) ?_
  rw [List.map_map]
  exact Writes.forM fun register member => dumpRegister_sends (register_plain member).1

theorem detailLine_dumpLine {title text : List UInt8} (single : newline ∉ title)
    (plain : newline ∉ text) (short : title.length + text.length ≤ 100) :
    DumpLine (detailLine title text) := by
  refine ⟨?_, ?_, ?_⟩
  · have front : newline ∉ ascii "\x1b[31m  " := by decide
    have middle : newline ∉ ascii ": " := by decide
    have behind : newline ∉ ascii "\x1b[0m" := by decide
    simp [detailLine, front, middle, behind, single, plain]
  · intro same
    have blank : (detailLine title text)[5]? = some 32 := rfl
    rw [same] at blank
    revert blank
    decide
  · have front : (ascii "\x1b[31m  ").length = 7 := by decide
    have middle : (ascii ": ").length = 2 := by decide
    have behind : (ascii "\x1b[0m").length = 4 := by decide
    simp only [detailLine, List.length_append, front, middle, behind]
    omega

theorem faultLines_dumpLine (frame : IntFrame) : ∀ line ∈ faultLines frame, DumpLine line := by
  intro line member
  by_cases fault : frame.vector = 14
  · rw [faultLines, if_pos fault] at member
    rcases List.mem_append.mp member with member | fetch
    · rcases List.mem_append.mp member with member | reserved
      · simp only [List.mem_cons, List.not_mem_nil, or_false] at member
        rcases member with rfl | rfl | rfl | rfl
        · exact ⟨by decide, by decide, by decide⟩
        · split_ifs <;> exact detailLine_dumpLine (by decide) (by decide) (by decide)
        · split_ifs <;> exact detailLine_dumpLine (by decide) (by decide) (by decide)
        · split_ifs <;> exact detailLine_dumpLine (by decide) (by decide) (by decide)
      · split_ifs at reserved
        · obtain rfl := List.mem_singleton.mp reserved
          exact detailLine_dumpLine (by decide) (by decide) (by decide)
        · cases reserved
    · split_ifs at fetch
      · obtain rfl := List.mem_singleton.mp fetch
        exact detailLine_dumpLine (by decide) (by decide) (by decide)
      · cases fetch
  · rw [faultLines, if_neg fault] at member
    cases member

theorem dprintfIf_sends (c : Prop) [Decidable c] (same : text = line ++ [newline])
    (plain : npfVpprintf text [] = some text) (fits : line.length < 1023) :
    Sends (dprintfIf c text) ((if c then [line] else []).map sentLine) (.ok ()) := by
  rw [same] at plain
  rw [dprintfIf, same]
  split_ifs
  · exact dprintf_sends plain fits
  · exact Writes.pure ()

theorem pageFaultDetails_sends (frame : IntFrame) :
    Sends (pageFaultDetails frame) ((faultLines frame).map sentLine) (.ok ()) := by
  by_cases fault : frame.vector = 14
  · rw [pageFaultDetails, faultLines, if_pos fault, if_pos fault, List.map_append, List.map_append]
    simp only [List.map_cons, List.map_nil, List.cons_append, List.nil_append]
    apply Writes.bind_one (dprintf_sends (by decide) (by decide))
    apply Writes.bind_one (dprintf_sends (by split_ifs <;> decide) (by split_ifs <;> decide))
    apply Writes.bind_one (dprintf_sends (by split_ifs <;> decide) (by split_ifs <;> decide))
    apply Writes.bind_one (dprintf_sends (by split_ifs <;> decide) (by split_ifs <;> decide))
    apply Writes.bind (dprintfIf_sends _ (by decide) (by decide) (by decide))
    exact dprintfIf_sends _ (by decide) (by decide) (by decide)
  · rw [pageFaultDetails, faultLines, if_neg fault, if_neg fault]
    exact Writes.pure ()

/-! ## The whole report -/

def panicText (reason : List UInt8) : List UInt8 :=
  ascii "\n\x1b[31mKernel panic - cpu ???: " ++ (reason ++ ascii "\x1b[0m\n")

def fileLine (file : List UInt8) (number : UInt64) : List UInt8 :=
  ascii "\x1b[31mIn file: " ++ (file ++ (ascii ", line: " ++ (intSpec.text number ++ ascii "\x1b[0m")))

theorem panicText_prints (reason : List UInt8) :
    npfVpprintf (ascii "\n\x1b[31mKernel panic - cpu %s: %s\x1b[0m\n")
      [.str (ascii "???"), .str reason] = some (panicText (counted reason)) := by
  have format : pieces (ascii "\n\x1b[31mKernel panic - cpu %s: %s\x1b[0m\n") =
      (ascii "\n\x1b[31mKernel panic - cpu ").map .char ++ .spec stringSpec ::
        ((ascii ": ").map .char ++ .spec stringSpec :: ((ascii "\x1b[0m\n").map .char ++ [])) := by
    decide
  have cpu : counted (ascii "???") = ascii "???" := by decide
  have front : ascii "\n\x1b[31mKernel panic - cpu " ++ (ascii "???" ++ ascii ": ") =
      ascii "\n\x1b[31mKernel panic - cpu ???: " := by decide
  rw [npfVpprintf_eq, format, printPieces_chars, printPieces_spec (stringSpec_prints _ _),
    printPieces_chars, printPieces_spec (stringSpec_prints _ _), printPieces_chars]
  simp only [printPieces, Option.map_some, List.append_nil, panicText, cpu, ← front,
    List.append_assoc]

theorem fileLine_prints (file : List UInt8) (number : UInt64) :
    npfVpprintf (ascii "\x1b[31mIn file: %s, line: %d\x1b[0m\n") [.str file, .word number] =
      some (fileLine (counted file) number ++ [newline]) := by
  have format : pieces (ascii "\x1b[31mIn file: %s, line: %d\x1b[0m\n") =
      (ascii "\x1b[31mIn file: ").map .char ++ .spec stringSpec :: ((ascii ", line: ").map .char ++
        .spec intSpec :: ((ascii "\x1b[0m" ++ [newline]).map .char ++ [])) := by decide
  have decimal : intSpec.print [.word number] = some (intSpec.text number, []) :=
    FormatSpec.print_word (by decide) (by decide) (by decide) number []
  rw [npfVpprintf_eq, format, printPieces_chars, printPieces_spec (stringSpec_prints _ _),
    printPieces_chars, printPieces_spec decimal, printPieces_chars]
  simp only [printPieces, Option.map_some, List.append_nil, fileLine, List.append_assoc]

def reportLines (frame : IntFrame) : List (List UInt8) :=
  (dumpHeading :: (registers frame).map registerLine) ++ (faultLines frame ++ traceLines)

theorem kpanicHandler_sends {switches : PanicSwitches} (verbose : switches.verboseIdt = true)
    (detailed : switches.simplePanic = false) (frame : IntFrame) (file reason : List UInt8)
    (number : UInt64) :
    Sends (kpanicHandler switches (some frame) file number reason : Run α)
      (.both (shown (panicText (counted reason))) ::
        .both (shown (fileLine (counted file) number ++ [newline])) ::
        (reportLines frame).map sentLine) (.error .hcf) := by
  have simple : ¬ switches.simplePanic = true := by simp [detailed]
  rw [kpanicHandler, if_neg simple, reportLines, List.map_append, List.map_append]
  apply Writes.bind_one (print_sends (kmprintf_eq (panicText_prints reason)))
  apply Writes.bind_one (print_sends (kmprintf_eq (fileLine_prints file number)))
  apply Writes.bind (dump_sends verbose frame)
  apply Writes.bind (pageFaultDetails_sends frame)
  apply Writes.bind_one (dprintf_sends (by decide) (by decide))
  exact Writes.bind_one (dprintf_sends (by decide) (by decide)) (Writes.throw _)

theorem kpanicHandler_shipped (frame : Option IntFrame) (file reason : List UInt8) (number : UInt64) :
    (kpanicHandler shippedSwitches frame file number reason : Run α) =
      kpanic frame reason file number := rfl

/-! ## Reading the registers back -/

def readRegister (line : List UInt8) : Option (List UInt8 × BitVec 64) :=
  (readNumeral 16 ((line.drop 23).take 16)).map fun n =>
    (((line.drop 7).take 12).rdropWhile (· = chr ' '), .ofNat 64 n)

def frameOf (values : List (List UInt8 × BitVec 64)) : Option IntFrame := do
  let field (name : String) := values.lookup (ascii name)
  return {
    ds := ← field "DS"
    cr2 := ← field "CR2"
    cr3 := ← field "CR3"
    r15 := ← field "R15"
    r14 := ← field "R14"
    r13 := ← field "R13"
    r12 := ← field "R12"
    r11 := ← field "R11"
    r10 := ← field "R10"
    r9 := ← field "R9"
    r8 := ← field "R8"
    rbp := ← field "RBP"
    rdi := ← field "RDI"
    rsi := ← field "RSI"
    rdx := ← field "RDX"
    rcx := ← field "RCX"
    rbx := ← field "RBX"
    rax := ← field "RAX"
    vector := ← field "VECTOR"
    err := ← field "ERR"
    rip := ← field "RIP"
    cs := ← field "CS"
    rflags := ← field "RFLAGS"
    rsp := ← field "RSP"
    ss := ← field "SS" }

/-- The frame in the last register dump on a sink. -/
def readFrame (sent : List UInt8) : Option IntFrame := do
  let lines := (sent.splitOn newline).rtakeWhile (· ≠ dumpHeading)
  let values ← (lines.take 25).mapM readRegister
  frameOf values

def trimmed (register : List UInt8 × BitVec 64) : List UInt8 × BitVec 64 :=
  (register.1.rdropWhile (· = chr ' '), register.2)

theorem readRegister_line {register : List UInt8 × BitVec 64} (short : register.1.length ≤ 12) :
    readRegister (registerLine register) = some (trimmed register) := by
  have width : (blankPadded 12 register.1).length = 12 := by
    rw [blankPadded_length]
    omega
  have name : ((registerLine register).drop 7).take 12 = blankPadded 12 register.1 := by
    change (blankPadded 12 register.1 ++ _).take 12 = _
    exact List.take_left' width
  have behind : (registerLine register).drop 23 =
      hexDigits (.ofBitVec register.2) ++ ascii "\x1b[0m" := by
    change (blankPadded 12 register.1 ++ (ascii ": 0x" ++ _)).drop 16 = _
    rw [List.drop_append, List.drop_eq_nil_of_le (by omega), width]
    rfl
  have digits : ((registerLine register).drop 23).take 16 = hexDigits (.ofBitVec register.2) := by
    rw [behind]
    exact List.take_left' (hexDigits_length _)
  have value : BitVec.ofNat 64 (UInt64.ofBitVec register.2).toNat = register.2 :=
    BitVec.ofNat_toNat _ _
  rw [readRegister, digits, hexDigits_reads, name, blankPadded_rdropWhile, Option.map_some, value,
    trimmed]

theorem frameOf_registers (frame : IntFrame) :
    frameOf ((registers frame).map trimmed) = some frame := by
  rfl

theorem traceLines_dumpLine : ∀ line ∈ traceLines, DumpLine line := by
  intro line member
  simp only [traceLines, List.mem_cons, List.not_mem_nil, or_false] at member
  rcases member with rfl | rfl <;> exact ⟨by decide, by decide, by decide⟩

theorem reportLines_dumpLine (frame : IntFrame) :
    ∀ line ∈ (registers frame).map registerLine ++ (faultLines frame ++ traceLines),
      DumpLine line := by
  intro line member
  rcases List.mem_append.mp member with member | member
  · obtain ⟨register, inside, rfl⟩ := List.mem_map.mp member
    exact registerLine_dumpLine (register_plain inside)
  · rcases List.mem_append.mp member with member | member
    · exact faultLines_dumpLine frame line member
    · exact traceLines_dumpLine line member

theorem registers_length (frame : IntFrame) : (registers frame).length = 25 := rfl

theorem readRegister_lines {values : List (List UInt8 × BitVec 64)}
    (short : ∀ register ∈ values, register.1.length ≤ 12) :
    (values.map registerLine).mapM readRegister = some (values.map trimmed) := by
  induction values with
  | nil => rfl
  | cons register values ih =>
      have later := ih fun register member => short register (List.mem_cons_of_mem _ member)
      rw [List.map_cons, List.mapM_cons, readRegister_line (short register List.mem_cons_self), later]
      rfl

theorem reportLines_split (before : List UInt8) (frame : IntFrame) :
    ((before ++ newline :: (reportLines frame).flatMap (· ++ [newline])).splitOn newline).rtakeWhile
        (· ≠ dumpHeading) =
      (registers frame).map registerLine ++ (faultLines frame ++ traceLines ++ [[]]) := by
  have behind := reportLines_dumpLine frame
  have single : ∀ line ∈ reportLines frame, newline ∉ line := by
    intro line member
    rw [reportLines, List.cons_append] at member
    rcases List.mem_cons.mp member with rfl | member
    · decide
    · exact (behind line member).single
  have other : ∀ line ∈ (registers frame).map registerLine ++ (faultLines frame ++ traceLines) ++ [[]],
      decide (line ≠ dumpHeading) = true := by
    intro line member
    rcases List.mem_append.mp member with member | last
    · simpa using (behind line member).other
    · obtain rfl := List.mem_singleton.mp last
      decide
  rw [List.splitOn_append_cons_self, splitOn_terminated single, reportLines, List.cons_append,
    List.cons_append, rtakeWhile_behind _ other (by simp), List.append_assoc]

theorem readFrame_report (before : List UInt8) (frame : IntFrame) :
    readFrame (before ++ newline :: (reportLines frame).flatMap (· ++ [newline])) = some frame := by
  have length : ((registers frame).map registerLine).length = 25 := by
    rw [List.length_map, registers_length]
  have values : ((registers frame).map registerLine).mapM readRegister =
      some ((registers frame).map trimmed) :=
    readRegister_lines fun register member => (register_plain member).1
  rw [readFrame, reportLines_split, List.take_left' length, values]
  rw [Option.bind_eq_bind, Option.bind_some, frameOf_registers]

/-- With the register dump switched on, all the fields of the interrupt frame can be read back from
either sink, whatever has been printed before. -/
theorem frame_read_back {switches : PanicSwitches} (detailed : switches.simplePanic = false)
    (verbose : switches.verboseIdt = true) (frame : IntFrame) (file reason : List UInt8)
    (number : UInt64) (short : file.length ≤ 900) (tty : Tty) :
    ∃ tty', (kpanicHandler switches (some frame) file number reason : Run Unit) tty =
        some (.error .hcf, tty') ∧
      readFrame tty'.debugPort = some frame ∧ readFrame tty'.terminal = some frame := by
  have whole : shown (fileLine file number ++ [newline]) = fileLine file number ++ [newline] := by
    have front : (ascii "\x1b[31mIn file: ").length = 14 := by decide
    have middle : (ascii ", line: ").length = 8 := by decide
    have behind : (ascii "\x1b[0m").length = 4 := by decide
    have few := intSpec_length number
    apply shown_whole
    simp only [fileLine, List.length_append, front, middle, behind, List.length_singleton, bufferSize]
    omega
  have sends := kpanicHandler_sends (α := Unit) verbose detailed frame file reason number tty
  rw [counted_eq (Nat.lt_of_le_of_lt short (by decide))] at sends
  refine ⟨_, sends, ?_, ?_⟩
  · rw [Sent.foldl_emit, whole]
    have bytes : ((reportLines frame).map sentLine).flatMap Sent.onPort =
        (reportLines frame).flatMap (· ++ [newline]) := by
      rw [List.flatMap_map]
      rfl
    simp only [List.flatMap_cons, bytes, Sent.onPort]
    simpa [List.append_assoc] using
      readFrame_report (tty.debugPort ++ shown (panicText (counted reason)) ++ fileLine file number)
        frame
  · rw [Sent.foldl_emit, whole]
    have bytes : ((reportLines frame).map sentLine).flatMap Sent.onTerminal =
        (reportLines frame).flatMap (· ++ [newline]) := by
      rw [List.flatMap_map]
      rfl
    simp only [List.flatMap_cons, bytes, Sent.onTerminal]
    simpa [List.append_assoc] using
      readFrame_report (tty.terminal ++ shown (panicText (counted reason)) ++ fileLine file number)
        frame

/-- A page fault, with a value of its own in each field. -/
def pageFaultFrame : IntFrame :=
  ⟨0x10, 0xFEED002, 0x1000, 0xF15, 0xF14, 0xF13, 0xF12, 0xF11, 0xF10, 0xF09, 0xF08, 0x7FFE0, 0xD1,
    0x51, 0xD0, 0xC0, 0xB0, 0xA0, 14, 2, 0x101000, 0x8, 0x202, 0x80000, 0x18⟩

theorem frame_read_back_pageFault :
    ∃ tty, (kpanicHandler ⟨false, true, false⟩ (some pageFaultFrame) (ascii "src/core/idt.cpp") 110
        (ascii "Page Fault ") : Run Unit) ⟨ascii "up\n", ascii "up"⟩ = some (.error .hcf, tty) ∧
      readFrame tty.debugPort = some pageFaultFrame ∧
      readFrame tty.terminal = some pageFaultFrame :=
  @frame_read_back ⟨false, true, false⟩ rfl rfl pageFaultFrame (ascii "src/core/idt.cpp")
    (ascii "Page Fault ") 110 (by decide) ⟨ascii "up\n", ascii "up"⟩

end Sphynx.Sys

import Sphynx.Dev.Log
import Sphynx.External.FormatTexts
import Sphynx.Lib.Parts

/-!
# Lines of the log

The bytes of a log line, the log read back from what a sink has received, and when one call prints
what two do.
-/

namespace Sphynx.Dev
open Lib External

structure LogRecord where
  lvl : Level
  name : List UInt8
  text : List UInt8
deriving DecidableEq, Repr

/-! ## The bytes of a line -/

def escape : UInt8 := 27

def resetPart : List UInt8 := ascii "[0m"

/-- A line up to the name, without the escape byte in front. -/
def Level.opening (lvl : Level) : List UInt8 :=
  lvl.color.tail ++ (ascii "[" ++ (blankPadded 6 lvl.kind ++ ascii "] ["))

def LogRecord.part (r : LogRecord) : List UInt8 :=
  r.lvl.opening ++ (blankPadded 10 r.name ++ (ascii "] " ++ r.text))

def LogRecord.line (r : LogRecord) : List UInt8 := [r.part, resetPart].flatMap (escape :: ·)

theorem header_pieces : pieces (ascii "%s[%-6s] [%-10s] ") =
    .spec stringSpec :: ((ascii "[").map .char ++ .spec (leftSpec 6) :: ((ascii "] [").map .char ++
      .spec (leftSpec 10) :: ((ascii "] ").map .char ++ []))) := by
  decide

theorem Level.kind_short (lvl : Level) : lvl.kind.length < 2 ^ 31 := by cases lvl <;> decide

theorem Level.color_short (lvl : Level) : lvl.color.length < 2 ^ 31 := by cases lvl <;> decide

theorem Logger.header_text {logger : Logger} (short : logger.name.length < 2 ^ 31) (lvl : Level) :
    logger.header lvl = escape :: (lvl.opening ++ (blankPadded 10 logger.name ++ ascii "] ")) := by
  have colored : lvl.color = escape :: lvl.color.tail := by cases lvl <;> rfl
  have text := logger.header_eq lvl
  rw [npfVpprintf_eq, header_pieces, printPieces_spec (stringSpec_prints _ _), printPieces_chars,
    printPieces_spec (leftSpec_prints (by decide) lvl.kind_short _), printPieces_chars,
    printPieces_spec (leftSpec_prints (by decide) short _), printPieces_chars,
    counted_eq lvl.color_short] at text
  simp only [printPieces, Option.map_some, Option.some.injEq, List.append_nil] at text
  rw [← text, Level.opening]
  nth_rewrite 1 [colored]
  simp only [List.cons_append, List.append_assoc]

theorem Level.opening_length (lvl : Level) : lvl.opening.length ≤ 28 := by cases lvl <;> decide

theorem Logger.header_fits {logger : Logger} (short : logger.name.length ≤ 992) (lvl : Level) :
    (logger.header lvl).length < bufferSize := by
  have opening := lvl.opening_length
  have behind : (ascii "] ").length = 2 := by decide
  rw [header_text (Nat.lt_of_le_of_lt short (by decide)), List.length_cons, List.length_append, List.length_append, blankPadded_length,
    behind, bufferSize]
  omega

/-- A text that does not fit is left out of its line. -/
theorem Logger.log_line {logger : Logger} {call : LogCall} {text : List UInt8}
    (short : logger.name.length ≤ 992) (loud : ¬ call.lvl.rank < logger.level.rank)
    (formatted : npfVpprintf call.fmt call.args = some text) (tty : Tty) :
    logger.log call tty =
      some (tty.emit (LogRecord.line ⟨call.lvl, logger.name, shown text⟩)) := by
  have header : shown (logger.header call.lvl) = logger.header call.lvl :=
    shown_whole (header_fits short call.lvl)
  have reset : shown (ascii "\x1b[0m") = escape :: resetPart := by decide
  rw [Logger.log_eq loud formatted, header, reset,
    header_text (Nat.lt_of_le_of_lt short (by decide))]
  simp only [LogRecord.line, LogRecord.part, List.flatMap_cons, List.flatMap_nil, List.append_nil,
    List.cons_append, List.append_assoc]

/-! ## Reading the log -/

def levels : List Level := [.debug, .info, .ok, .warn, .error]

def readLevel (part : List UInt8) : Option (Level × List UInt8) :=
  levels.findSome? fun lvl =>
    if lvl.opening.isPrefixOf part then some (lvl, part.drop lvl.opening.length) else none

def readPart (part : List UInt8) : Option LogRecord := do
  let (lvl, rest) ← readLevel part
  let name := rest.takeWhile (· ≠ chr ']')
  return ⟨lvl, name.rdropWhile (· = chr ' '), rest.drop (name.length + 2)⟩

def readParts : List (List UInt8) → Option (List LogRecord)
  | [] => some []
  | [_] => none
  | part :: reset :: parts => do
      let r ← if reset = resetPart then readPart part else none
      let records ← readParts parts
      return r :: records

def readLog (sent : List UInt8) : Option (List LogRecord) :=
  match sent.splitOn escape with
  | [] :: parts => readParts parts
  | _ => none

/-- A name that stands out from what surrounds it. -/
structure Distinct (name : List UInt8) : Prop where
  escape : escape ∉ name
  bracket : chr ']' ∉ name
  blank : name.getLast? ≠ some (chr ' ')

structure LogRecord.Readable (r : LogRecord) : Prop where
  name : Distinct r.name
  text : escape ∉ r.text

variable {r : LogRecord}

theorem readLevel_opening (lvl : Level) (rest : List UInt8) :
    readLevel (lvl.opening ++ rest) = some (lvl, rest) := by
  cases lvl <;> rfl

theorem blankPadded_trimmed {name : List UInt8} (blank : name.getLast? ≠ some (chr ' ')) (n : Nat) :
    (blankPadded n name).rdropWhile (· = chr ' ') = name := by
  rw [blankPadded_rdropWhile, List.rdropWhile_eq_self_iff]
  intro nonempty last
  apply blank
  rw [List.getLast?_eq_some_getLast nonempty]
  simpa using last

theorem readPart_part (readable : r.Readable) : readPart r.part = some r := by
  have name : (blankPadded 10 r.name ++ (ascii "] " ++ r.text)).takeWhile (· ≠ chr ']') =
      blankPadded 10 r.name := by
    have stops : (ascii "] " ++ r.text).takeWhile (· ≠ chr ']') = [] := rfl
    rw [List.takeWhile_append_of_pos, stops, List.append_nil]
    intro c member
    rw [decide_eq_true_eq]
    rintro rfl
    rcases List.mem_append.mp member with inside | padding
    · exact readable.name.bracket inside
    · exact absurd (List.eq_of_mem_replicate padding) (by decide)
  have text : (blankPadded 10 r.name ++ (ascii "] " ++ r.text)).drop
      ((blankPadded 10 r.name).length + 2) = r.text := by
    rw [List.drop_append, List.drop_eq_nil_of_le (Nat.le_add_right _ _), Nat.add_sub_cancel_left]
    rfl
  simp only [readPart, LogRecord.part, readLevel_opening, bind, Option.bind, pure, name, text,
    blankPadded_trimmed readable.name.blank]

theorem LogRecord.Readable.part (readable : r.Readable) : escape ∉ r.part := by
  have opening : escape ∉ r.lvl.opening := by cases r.lvl <;> decide
  have padding : escape ∉ blankPadded 10 r.name := by
    rw [blankPadded, List.mem_append, List.mem_replicate]
    rintro (inside | ⟨-, blank⟩)
    · exact readable.name.escape inside
    · exact absurd blank (by decide)
  have bracket : escape ∉ ascii "] " := by decide
  simp [LogRecord.part, opening, padding, bracket, readable.text]

theorem readLog_lines {records : List LogRecord} (readable : ∀ r ∈ records, r.Readable) :
    readLog (records.flatMap LogRecord.line) = some records := by
  have parts : records.flatMap LogRecord.line =
      (records.flatMap fun r => [r.part, resetPart]).flatMap (escape :: ·) := by
    rw [List.flatMap_assoc]
    rfl
  have unmarked : ∀ part ∈ records.flatMap fun r => [r.part, resetPart], escape ∉ part := by
    intro part member
    obtain ⟨r, recorded, part_of⟩ := List.mem_flatMap.mp member
    rcases List.mem_cons.mp part_of with rfl | last
    · exact (readable r recorded).part
    · rw [List.mem_singleton.mp last]
      decide
  rw [readLog, parts, splitOn_marked unmarked]
  clear parts unmarked
  induction records with
  | nil => rfl
  | cons r records ih =>
      have later := ih fun r member => readable r (List.mem_cons_of_mem _ member)
      have first := readPart_part (readable r List.mem_cons_self)
      simp only [List.flatMap_cons, List.cons_append, List.nil_append, readParts, if_pos, first, bind,
        Option.bind, pure] at later ⊢
      rw [later]

/-! ## The lines that calls leave -/

structure LogEntry where
  logger : Logger
  call : LogCall
deriving DecidableEq, Repr

namespace LogEntry

def printCall (entry : LogEntry) : PrintCall := .log entry.logger entry.call

/-- What the call says, unless its level is below the threshold. -/
def record (entry : LogEntry) : Option LogRecord :=
  if entry.call.lvl.rank < entry.logger.level.rank then none
  else (npfVpprintf entry.call.fmt entry.call.args).map fun text =>
    ⟨entry.call.lvl, entry.logger.name, text⟩

/-- A call below the threshold, or one whose header and text fit the printing buffer and can be
told apart. -/
def Readable (entry : LogEntry) : Prop :=
  entry.call.lvl.rank < entry.logger.level.rank ∨
    Distinct entry.logger.name ∧ entry.logger.name.length ≤ 992 ∧
      ∃ text, npfVpprintf entry.call.fmt entry.call.args = some text ∧ text.length ≤ 1023 ∧
        escape ∉ text

variable {entry : LogEntry}

theorem Readable.matched (readable : entry.Readable) : entry.printCall.Matched := by
  refine readable.imp_right ?_
  rintro ⟨-, -, text, formatted, -⟩
  exact Option.isSome_of_eq_some formatted

theorem Readable.record (readable : entry.Readable) : ∀ r ∈ entry.record, r.Readable := by
  intro r member
  by_cases quiet : entry.call.lvl.rank < entry.logger.level.rank
  · rw [LogEntry.record, if_pos quiet] at member
    cases member
  · obtain ⟨name, -, text, formatted, -, clean⟩ := readable.resolve_left quiet
    rw [LogEntry.record, if_neg quiet, formatted] at member
    obtain rfl := Option.some.inj member
    exact ⟨name, clean⟩

theorem Readable.sends (readable : entry.Readable) :
    entry.printCall.formats.flatMap contribution = (entry.record.map LogRecord.line).getD [] := by
  by_cases quiet : entry.call.lvl.rank < entry.logger.level.rank
  · rw [printCall, PrintCall.formats, LogEntry.record, if_pos quiet, if_pos quiet]
    rfl
  · obtain ⟨-, short, text, formatted, fits, -⟩ := readable.resolve_left quiet
    have header : contribution (ascii "%s[%-6s] [%-10s] ",
        [.str entry.call.lvl.color, .str entry.call.lvl.kind, .str entry.logger.name]) =
        entry.logger.header entry.call.lvl := by
      rw [contribution_eq (entry.logger.header_eq entry.call.lvl)]
      exact shown_whole (Logger.header_fits short entry.call.lvl)
    have message : contribution (entry.call.fmt, entry.call.args) = text := by
      rw [contribution_eq formatted]
      exact shown_whole (Nat.lt_succ_of_le fits)
    have reset : contribution (ascii "\x1b[0m", []) = escape :: resetPart := by decide
    rw [printCall, PrintCall.formats, LogEntry.record, if_neg quiet, if_neg quiet, formatted]
    simp only [List.flatMap_cons, List.flatMap_nil, List.append_nil, header, message, reset,
      Logger.header_text (Nat.lt_of_le_of_lt short (by decide)), Option.map_some, Option.getD_some, LogRecord.line, LogRecord.part,
      List.cons_append, List.append_assoc]

end LogEntry

theorem entries_send {entries : List LogEntry} (readable : ∀ entry ∈ entries, entry.Readable)
    (tty : Tty) :
    runCalls (entries.map LogEntry.printCall) tty =
      some (tty.emit ((entries.filterMap LogEntry.record).flatMap LogRecord.line)) := by
  have matched : ∀ call ∈ entries.map LogEntry.printCall, call.Matched := by
    intro call member
    obtain ⟨entry, logged, rfl⟩ := List.mem_map.mp member
    exact (readable entry logged).matched
  rw [runCalls_eq matched]
  congr 2
  clear matched
  induction entries with
  | nil => rfl
  | cons entry entries ih =>
      have first := (readable entry List.mem_cons_self).sends
      have later := ih fun entry member => readable entry (List.mem_cons_of_mem _ member)
      rw [List.map_cons, List.flatMap_cons, List.flatMap_append, first, later]
      cases recorded : entry.record with
      | none => rw [List.filterMap_cons_none recorded]; rfl
      | some r => rw [List.filterMap_cons_some recorded]; rfl

theorem readLog_entries {entries : List LogEntry} (readable : ∀ entry ∈ entries, entry.Readable) :
    readLog ((entries.filterMap LogEntry.record).flatMap LogRecord.line) =
      some (entries.filterMap LogEntry.record) := by
  apply readLog_lines
  intro r member
  obtain ⟨entry, logged, recorded⟩ := List.mem_filterMap.mp member
  exact (readable entry logged).record r recorded

/-- The log can be read back from either sink: the level, the name and the text of every call that
its threshold lets through, in their order, and nothing else. -/
theorem log_read_back (entries : List LogEntry) (readable : ∀ entry ∈ entries, entry.Readable) :
    ∃ tty, runCalls (entries.map LogEntry.printCall) {} = some tty ∧
      readLog tty.terminal = some (entries.filterMap LogEntry.record) ∧
      readLog tty.debugPort = some (entries.filterMap LogEntry.record) := by
  refine ⟨_, entries_send readable {}, ?_, ?_⟩
  · rw [Tty.emit, List.nil_append, readLog_entries readable]
  · rw [Tty.emit, List.nil_append, readLog_entries readable]

def countEntries : List LogEntry :=
  [⟨{ name := ascii "Main" }, ⟨.warn, ascii "%d left\n", [.word 5]⟩⟩,
    ⟨{ name := ascii "Main" }, ⟨.debug, ascii "%s", []⟩⟩]

theorem log_read_back_count :
    ∃ tty, runCalls (countEntries.map LogEntry.printCall) {} = some tty ∧
      readLog tty.terminal = some [⟨.warn, ascii "Main", ascii "5 left\n"⟩] := by
  have readable : ∀ entry ∈ countEntries, entry.Readable := by
    intro entry member
    simp only [countEntries, List.mem_cons, List.not_mem_nil, or_false] at member
    rcases member with rfl | rfl
    · exact Or.inr ⟨⟨by decide, by decide, by decide⟩, by decide, ascii "5 left\n", by decide,
        by decide, by decide⟩
    · exact Or.inl (by decide)
  obtain ⟨tty, run, terminal, -⟩ := log_read_back countEntries readable
  exact ⟨tty, run, terminal⟩

/-! ## One call for two -/

theorem shown_append_iff {text more : List UInt8} (short : (text ++ more).length < 2 ^ 32) :
    shown (text ++ more) = shown text ++ shown more ↔
      (text ++ more).length < bufferSize ∨ (shown text = [] ∧ shown more = []) := by
  have sum : (text ++ more).length = text.length + more.length := List.length_append
  by_cases fits : (text ++ more).length < bufferSize
  · have front : text.length < bufferSize := by omega
    have behind : more.length < bufferSize := by omega
    rw [shown_whole fits, shown_whole front, shown_whole behind]
    exact iff_of_true rfl (Or.inl fits)
  · rw [or_iff_right fits, shown_of_lt short, if_neg fits, eq_comm, List.append_eq_nil_iff]

/-- A call can be cut in two where its pieces part, when the text of the whole fits the buffer that
each call prints from. From 2^32 bytes on what is sent out depends on how the counts wrap around. -/
theorem printf_cut_iff {format more text text' : List UInt8} {args args' : List Arg}
    (split : pieces (format ++ more) = pieces format ++ pieces more)
    (count : args.length = wanted (pieces format))
    (formatted : npfVpprintf format args = some text)
    (formatted' : npfVpprintf more args' = some text') (tty : Tty) :
    printf (format ++ more) (args ++ args') tty =
        (printf format args tty).bind (printf more args') ↔
      if (text ++ text').length < 2 ^ 32 then
        (text ++ text').length < bufferSize ∨ (shown text = [] ∧ shown text' = [])
      else shown (text ++ text') = shown text ++ shown text' := by
  have joined : npfVpprintf (format ++ more) (args ++ args') = some (text ++ text') := by
    rw [npfVpprintf_append split count, formatted, formatted']
    rfl
  have one : printf (format ++ more) (args ++ args') tty = some (tty.emit (shown (text ++ text'))) :=
    kmprintf_eq joined tty
  have first : printf format args tty = some (tty.emit (shown text)) := kmprintf_eq formatted tty
  have second : printf more args' (tty.emit (shown text)) =
      some ((tty.emit (shown text)).emit (shown text')) := kmprintf_eq formatted' _
  have sent : printf (format ++ more) (args ++ args') tty =
      (printf format args tty).bind (printf more args') ↔
        shown (text ++ text') = shown text ++ shown text' := by
    rw [one, first, Option.bind_some, second, Tty.emit_append]
    constructor
    · intro same
      exact emit_injective (Option.some.inj same)
    · intro same
      rw [same]
  split_ifs with short
  · rw [sent, shown_append_iff short]
  · exact sent

theorem printf_cut_iff_screen :
    printf (ascii "%dx%y" ++ ascii "%d\n") [.word 640, .word 480] ⟨[], []⟩ =
      (printf (ascii "%dx%y") [.word 640] ⟨[], []⟩).bind (printf (ascii "%d\n") [.word 480]) := by
  have width : npfVpprintf (ascii "%dx%y") [.word 640] = some (ascii "640x%y") := by decide
  have height : npfVpprintf (ascii "%d\n") [.word 480] = some (ascii "480\n") := by decide
  have fits : (ascii "640x%y" ++ ascii "480\n").length < bufferSize := by decide
  have short : (ascii "640x%y" ++ ascii "480\n").length < 2 ^ 32 := by decide
  refine (printf_cut_iff (by decide) rfl width height ⟨[], []⟩).mpr ?_
  rw [if_pos short]
  exact Or.inl fits

end Sphynx.Dev

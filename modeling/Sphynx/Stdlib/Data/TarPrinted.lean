import Sphynx.Dev.LogLine
import Sphynx.Stdlib.Data.TarLookup

/-!
# The printed listing

What `list_dir_tar` leaves on the sinks for a written archive, and the entries read back from it.
-/

namespace Sphynx.Stdlib
open Lib Dev External

variable {buffer rest : List UInt8} {size ptr : Nat} {e : Entry} {entries : List Entry}

/-! ## What the listing comes to -/

def Entry.listed (e : Entry) : Listed := .of e.name e.content.length.toUInt32 e.header.typeflag

theorem Entry.cstr_name (here : buffer.drop ptr = e.bytes ++ rest)
    (terminated : 0 ∈ e.header.name.val) : cstr (buffer.drop ptr) = .ok e.name := by
  rcases e.name_field with filled | ⟨padding, split⟩
  · rw [filled] at terminated
    exact absurd terminated e.name_nonzero
  · apply cstr_eq_ok.mpr
    refine ⟨e.name_nonzero, padding ++ (e.header.afterName ++ (paddedContent e.content ++ rest)), ?_⟩
    rw [here]
    simp only [Entry.bytes, TarHeader.bytes, split, List.append_assoc, List.cons_append]

theorem listing_ends (acc : List Listed) (here : buffer.drop ptr = image entries)
    (inside : buffer.length ≤ size) (fits : ∀ e ∈ entries, e.content.length ≤ maxStep)
    (terminated : ∀ e ∈ entries, 0 ∈ e.header.name.val) :
    Ends (listDirTarTurn buffer size) (ptr, acc) (.ok (acc ++ entries.map Entry.listed)) := by
  induction entries generalizing ptr acc with
  | nil =>
      rw [List.map_nil, List.append_nil]
      exact ends_leave (listDirTarTurn_none (noHeaderAt_end here) acc)
  | cons e entries ih =>
      have before := image_before_end here inside
      rw [image_cons] at here
      have named := Entry.cstr_name here (terminated e List.mem_cons_self)
      have again : Again (listDirTarTurn buffer size) (ptr, acc) _ :=
        listDirTarTurn_header (Entry.headerAt here before) named acc
      rw [exactAdvance_eq_length (fits e List.mem_cons_self)] at again
      have next : buffer.drop (ptr + e.length) = image entries := by
        rw [← List.drop_drop, here, List.drop_left' e.length_bytes]
      have later := ih (acc ++ [e.listed]) next
        (fun e member => fits e (List.mem_cons_of_mem _ member))
        (fun e member => terminated e (List.mem_cons_of_mem _ member))
      rw [List.append_assoc] at later
      exact again.ends_iff.mpr later

/-! ## The text of an entry -/

def Listed.text : Listed → List UInt8
  | .directory name => ascii "- Directory: " ++ (name ++ ascii "\n")
  | .file name bytes => ascii "- File: " ++ (name ++ (ascii " (" ++
      (unsignedSpec.text bytes.toUInt64 ++ ascii " bytes)\n")))

theorem Listed.formatted {l : Listed} (short : l.name.length ≤ 99) :
    npfVpprintf l.logCall.fmt l.logCall.args = some l.text := by
  have counted : counted l.name = l.name := counted_eq (Nat.lt_of_le_of_lt short (by decide))
  cases l with
  | directory name =>
      have format : pieces (ascii "- Directory: %s\n") = (ascii "- Directory: ").map .char ++
          .spec stringSpec :: ((ascii "\n").map .char ++ []) := by decide
      rw [Listed.logCall, npfVpprintf_eq, format, printPieces_chars,
        printPieces_spec (stringSpec_prints _ _), printPieces_chars]
      rw [Listed.name] at counted
      simp only [printPieces, Option.map_some, List.append_nil, Listed.text, counted]
  | file name bytes =>
      have format : pieces (ascii "- File: %s (%u bytes)\n") = (ascii "- File: ").map .char ++
          .spec stringSpec :: ((ascii " (").map .char ++ .spec unsignedSpec ::
            ((ascii " bytes)\n").map .char ++ [])) := by decide
      rw [Listed.logCall, npfVpprintf_eq, format, printPieces_chars,
        printPieces_spec (stringSpec_prints _ _), printPieces_chars,
        printPieces_spec (unsignedSpec_prints _ _), printPieces_chars]
      rw [Listed.name] at counted
      simp only [printPieces, Option.map_some, List.append_nil, Listed.text, counted]

theorem digits_plain {c : UInt8} {w : UInt64} (member : c ∈ unsignedSpec.text w) :
    c ≠ escape ∧ c ≠ chr '(' := by
  obtain ⟨ds, spells, -⟩ := unsignedSpec_spells w
  obtain ⟨d, -, value⟩ := spells.digit member
  constructor <;> (rintro rfl; cases value)

structure Listed.Plain (l : Listed) : Prop where
  short : l.name.length ≤ 99
  clean : escape ∉ l.name

theorem Listed.Plain.entry {l : Listed} (plain : l.Plain) :
    l.text.length ≤ 1023 ∧ escape ∉ l.text := by
  obtain ⟨short, clean⟩ := plain
  cases l with
  | directory name =>
      have front : (ascii "- Directory: ").length = 13 ∧ escape ∉ ascii "- Directory: " := by decide
      have behind : (ascii "\n").length = 1 ∧ escape ∉ ascii "\n" := by decide
      simp only [Listed.name] at short clean
      constructor
      · rw [Listed.text, List.length_append, List.length_append, front.1, behind.1]
        omega
      · simp [Listed.text, front.2, behind.2, clean]
  | file name bytes =>
      have front : (ascii "- File: ").length = 8 ∧ escape ∉ ascii "- File: " := by decide
      have middle : (ascii " (").length = 2 ∧ escape ∉ ascii " (" := by decide
      have behind : (ascii " bytes)\n").length = 8 ∧ escape ∉ ascii " bytes)\n" := by decide
      have few := unsignedSpec_length bytes.toUInt64
      have digits : escape ∉ unsignedSpec.text bytes.toUInt64 := fun member =>
        (digits_plain member).1 rfl
      simp only [Listed.name] at short clean
      constructor
      · rw [Listed.text, List.length_append, List.length_append, List.length_append,
          List.length_append, front.1, middle.1, behind.1]
        omega
      · simp [Listed.text, front.2, middle.2, behind.2, digits, clean]

/-! ## Reading the entries back -/

def readListed (text : List UInt8) : Option Listed :=
  if (ascii "- Directory: ").isPrefixOf text then some (.directory (text.drop 13).dropLast)
  else if (ascii "- File: ").isPrefixOf text then
    let body := (text.drop 8).take (text.length - 16)
    let digits := body.rtakeWhile (· ≠ chr '(')
    (readNumeral 10 digits).map fun n =>
      .file (body.take (body.length - digits.length - 2)) n.toUInt32
  else none

theorem readListed_text (l : Listed) : readListed l.text = some l := by
  cases l with
  | directory name =>
      have front : (ascii "- Directory: ").isPrefixOf (Listed.directory name).text = true := rfl
      have name_back : ((Listed.directory name).text.drop 13).dropLast = name :=
        List.dropLast_concat
      rw [readListed, if_pos front, name_back]
  | file name bytes =>
      have other : (ascii "- Directory: ").isPrefixOf (Listed.file name bytes).text = false := rfl
      have front : (ascii "- File: ").isPrefixOf (Listed.file name bytes).text = true := rfl
      have text : (Listed.file name bytes).text.drop 8 =
          (name ++ chr ' ' :: chr '(' :: unsignedSpec.text bytes.toUInt64) ++ ascii " bytes)\n" := by
        change name ++ (ascii " (" ++ (unsignedSpec.text bytes.toUInt64 ++ ascii " bytes)\n")) = _
        simp only [List.append_assoc, List.cons_append]
        rfl
      have length : (Listed.file name bytes).text.length - 16 =
          (name ++ chr ' ' :: chr '(' :: unsignedSpec.text bytes.toUInt64).length := by
        have behind : (ascii " bytes)\n").length = 8 := by decide
        have whole := congrArg List.length text
        rw [List.length_drop, List.length_append, behind] at whole
        omega
      have body : ((Listed.file name bytes).text.drop 8).take ((Listed.file name bytes).text.length - 16) =
          name ++ chr ' ' :: chr '(' :: unsignedSpec.text bytes.toUInt64 := by
        rw [text, length, List.take_left]
      have digits : (name ++ chr ' ' :: chr '(' :: unsignedSpec.text bytes.toUInt64).rtakeWhile
          (· ≠ chr '(') = unsignedSpec.text bytes.toUInt64 := by
        rw [← List.singleton_append, ← List.append_assoc]
        apply rtakeWhile_behind
        · intro c member
          simpa using (digits_plain member).2
        · simp
      have name_back : (name ++ chr ' ' :: chr '(' :: unsignedSpec.text bytes.toUInt64).take
          ((name ++ chr ' ' :: chr '(' :: unsignedSpec.text bytes.toUInt64).length -
            (unsignedSpec.text bytes.toUInt64).length - 2) = name := by
        apply List.take_left'
        simp only [List.length_append, List.length_cons]
        omega
      have value : bytes.toUInt64.toUInt32 = bytes := UInt32.toUInt32_toUInt64 bytes
      rw [readListed, other, front]
      simp only [Bool.false_eq_true, if_false, if_true, body, digits, name_back, unsignedSpec_reads,
        value, Option.map_some]
      simp

def readListing (sent : List UInt8) : Option (List Listed) := do
  let records ← readLog sent
  (records.drop 2).dropLast.mapM fun r => readListed r.text

/-! ## The listing on the sinks -/

def tarRecord (text : List UInt8) : LogRecord := ⟨.ok, ascii "TarParser", text⟩

def listingRecords (logged : List Listed) : List LogRecord :=
  tarRecord (ascii "---------------\n") :: tarRecord (ascii "Listing contents:\n") ::
    (logged.map fun l => tarRecord l.text) ++ [tarRecord (ascii "---------------\n")]

def tarEntries (calls : List LogCall) : List LogEntry := calls.map fun call => ⟨tarLogger, call⟩

theorem logAll_entries (calls : List LogCall) (tty : Tty) :
    tarLogger.logAll calls tty = runCalls ((tarEntries calls).map LogEntry.printCall) tty := by
  rw [Logger.logAll, runCalls, tarEntries, List.map_map, List.foldlM_map]
  rfl

theorem tarEntry_record {l : Listed} (short : l.name.length ≤ 99) :
    LogEntry.record ⟨tarLogger, l.logCall⟩ = some (tarRecord l.text) := by
  have level : l.logCall.lvl = .ok := by cases l <;> rfl
  have loud : ¬ l.logCall.lvl.rank < tarLogger.level.rank := by
    rw [level]
    decide
  rw [LogEntry.record, if_neg loud, Listed.formatted short, level]
  rfl

theorem listing_records {logged : List Listed} (plain : ∀ l ∈ logged, l.Plain) :
    (tarEntries (listingCalls logged)).filterMap LogEntry.record = listingRecords logged := by
  have middle : (logged.map Listed.logCall).filterMap (fun call => LogEntry.record ⟨tarLogger, call⟩) =
      logged.map fun l => tarRecord l.text := by
    rw [List.filterMap_map, ← List.filterMap_eq_map]
    exact List.filterMap_congr fun l member => tarEntry_record (plain l member).short
  have dashes : LogEntry.record ⟨tarLogger, ⟨.ok, ascii "---------------\n", []⟩⟩ =
      some (tarRecord (ascii "---------------\n")) := by decide
  have title : LogEntry.record ⟨tarLogger, ⟨.ok, ascii "Listing contents:\n", []⟩⟩ =
      some (tarRecord (ascii "Listing contents:\n")) := by decide
  have each : (tarEntries (listingCalls logged)).filterMap LogEntry.record =
      (listingCalls logged).filterMap fun call => LogEntry.record ⟨tarLogger, call⟩ :=
    List.filterMap_map
  rw [each, listingCalls, List.filterMap_append, List.filterMap_append, middle, listingRecords]
  simp only [List.filterMap_cons, List.filterMap_nil, dashes, title, List.cons_append, List.nil_append]

theorem listing_readable {logged : List Listed} (plain : ∀ l ∈ logged, l.Plain) :
    ∀ entry ∈ tarEntries (listingCalls logged), entry.Readable := by
  have name : Distinct tarLogger.name := ⟨by decide, by decide, by decide⟩
  have short : tarLogger.name.length ≤ 992 := by decide
  have readable {call : LogCall} {text : List UInt8}
      (formatted : npfVpprintf call.fmt call.args = some text)
      (fits : text.length ≤ 1023 ∧ escape ∉ text) : LogEntry.Readable ⟨tarLogger, call⟩ :=
    Or.inr ⟨name, short, text, formatted, fits⟩
  intro entry member
  obtain ⟨call, called, rfl⟩ := List.mem_map.mp member
  simp only [listingCalls, List.mem_append, List.mem_map, List.mem_cons, List.not_mem_nil,
    or_false] at called
  rcases called with ((rfl | rfl) | ⟨l, logged, rfl⟩) | rfl
  · exact readable (by decide : _ = some (ascii "---------------\n")) (by decide)
  · exact readable (by decide : _ = some (ascii "Listing contents:\n")) (by decide)
  · exact readable (Listed.formatted (plain l logged).short) (plain l logged).entry
  · exact readable (by decide : _ = some (ascii "---------------\n")) (by decide)

theorem readListing_sent {logged : List Listed} (plain : ∀ l ∈ logged, l.Plain) :
    readListing ((listingRecords logged).flatMap LogRecord.line) = some logged := by
  have records : readLog ((listingRecords logged).flatMap LogRecord.line) =
      some (listingRecords logged) := by
    rw [← listing_records plain]
    exact readLog_entries (listing_readable plain)
  have middle : ((listingRecords logged).drop 2).dropLast = logged.map fun l => tarRecord l.text :=
    List.dropLast_concat
  have texts : (logged.map fun l => tarRecord l.text).mapM (fun r => readListed r.text) =
      some logged := by
    clear plain records middle
    induction logged with
    | nil => rfl
    | cons l logged ih =>
        rw [List.map_cons, List.mapM_cons, ih]
        simp only [tarRecord, readListed_text, bind, Option.bind, pure]
  rw [readListing, records]
  change List.mapM _ _ = _
  rw [middle, texts]

/-- The listing of a written archive, read back from either sink, names its members in their order,
with their kinds and sizes. -/
theorem listing_read_back (members : List Member) (short : ∀ m ∈ members, m.name.length ≤ 99)
    (clean : ∀ m ∈ members, escape ∉ m.name)
    (fits : ∀ m ∈ members, m.content.length ≤ 2 ^ 32 - 1024) :
    ∃ fuel logged tty, listDirTar fuel (archive members) (archive members).length =
        some (.ok logged) ∧
      tarLogger.logAll (listingCalls logged) {} = some tty ∧
      readListing tty.terminal =
        some (members.map fun m => .of m.name m.content.length.toUInt32 m.typeflag) ∧
      readListing tty.debugPort = readListing tty.terminal := by
  have logged : (members.map Member.toEntry).map Entry.listed =
      members.map fun m => Listed.of m.name m.content.length.toUInt32 m.typeflag := by
    rw [List.map_map]
    apply List.map_congr_left
    intro m member
    rw [Function.comp_apply, Entry.listed, Member.name_toEntry]
    rfl
  have ends : Ends (listDirTarTurn (archive members) (archive members).length) (0, [])
      (.ok ([] ++ (members.map Member.toEntry).map Entry.listed)) := by
    apply listing_ends [] rfl (Nat.le_refl _)
    · intro e member
      obtain ⟨m, inside, rfl⟩ := List.mem_map.mp member
      exact fits m inside
    · intro e member
      obtain ⟨m, inside, rfl⟩ := List.mem_map.mp member
      exact m.terminated (short m inside)
  rw [logged, List.nil_append] at ends
  obtain ⟨fuel, run⟩ := ends
  have plain : ∀ l ∈ members.map fun m => Listed.of m.name m.content.length.toUInt32 m.typeflag,
      l.Plain := by
    intro l member
    obtain ⟨m, inside, rfl⟩ := List.mem_map.mp member
    exact ⟨by simpa using short m inside, by simpa using clean m inside⟩
  have sends := entries_send (listing_readable plain) {}
  rw [listing_records plain] at sends
  refine ⟨fuel, _, _, run, (logAll_entries _ _).trans sends, ?_, rfl⟩
  exact readListing_sent plain

def directoryMember : Member :=
  { prefixedMember with
    name := ascii "etc/"
    typeflag := chr '5'
    name_pos := by decide
    name_le := by decide
    name_nonzero := by decide }

def fileMember : Member :=
  { prefixedMember with
    name := ascii "etc/motd"
    content := ascii "Welcome\n"
    name_pos := by decide
    name_le := by decide
    name_nonzero := by decide
    content_lt := by decide }

theorem listing_read_back_directory :
    ∃ fuel logged tty, listDirTar fuel (archive [directoryMember, fileMember])
        (archive [directoryMember, fileMember]).length = some (.ok logged) ∧
      tarLogger.logAll (listingCalls logged) {} = some tty ∧
      readListing tty.terminal =
        some [.directory (ascii "etc/"), .file (ascii "etc/motd") 8] := by
  obtain ⟨fuel, logged, tty, run, prints, reads, -⟩ :=
    listing_read_back [directoryMember, fileMember] (by decide) (by decide) (by decide)
  exact ⟨fuel, logged, tty, run, prints, reads⟩

end Sphynx.Stdlib

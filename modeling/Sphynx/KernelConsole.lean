import Sphynx.Dev.LogLine
import Sphynx.Kernel
import Sphynx.Sys.Console

/-!
# What a boot leaves on the console

Everything that `_start` sends to the two sinks, whatever boot record it is given.
-/

namespace Sphynx
open Lib Dev External Sphynx.Core Sys Stdlib

variable {α : Type} {text : List UInt8}

/-! ## Its parts -/

def mainRecord (lvl : Level) (text : List UInt8) : LogRecord :=
  ⟨lvl, ascii "SphynxMain", shown text⟩

theorem log_sends (lvl : Level) {fmt : List UInt8} {args : List Arg}
    (formatted : npfVpprintf fmt args = some text) :
    Sends (log lvl fmt args) [.both (mainRecord lvl text).line] (.ok ()) :=
  print_sends (Logger.log_line (by decide) (Nat.not_lt_zero _) formatted)

theorem logDebugPort_sends (plain : npfVpprintf text [] = some text) (fits : text.length < bufferSize) :
    Sends (logDebugPort text) [.port text] (.ok ()) := by
  intro tty
  have whole : shown text = text := shown_whole fits
  rw [logDebugPort, print, kdprintf, printWith_eq Tty.dputc plain, foldl_dputc, whole]
  rfl

theorem require_found {resource : Option α} {a : α} {absent : Run α} (present : resource = some a) :
    Sends (require resource absent) [] (.ok a) := by
  rw [present]
  exact Writes.pure a

theorem require_missing {resource : Option α} {absent : Run α} {sent : List Sent} {e : Stop}
    (missing : resource = none) (stops : Sends absent sent (.error e)) :
    Sends (require resource absent) sent (.error e) := by
  rw [missing]
  exact stops

/-! ## Boots that stop at a check -/

/-- The check that fails first. -/
inductive Cause where
  | noData
  | noFramebuffer
  | noFlanterm
  | noRamfs
  | noMemoryMap
deriving DecidableEq, Repr

def greeting : List LogRecord :=
  [mainRecord .ok (ascii "Flanterm Initialized\n"), mainRecord .ok (ascii "GDT Initialized\n"),
    mainRecord .ok (ascii "IDT Initialized\n")]

def loaded : List LogRecord := greeting ++ [mainRecord .info (ascii "ramfs loaded\n")]

def clear : Sent := .port (ascii "\x1bc")

def lines (records : List LogRecord) : List Sent := records.map fun r => .both r.line

namespace Cause

def complaint : Cause → List UInt8
  | noData => ascii " - Error: Failed to get bootdata\n"
  | noFramebuffer => ascii " - Error: Failed to get framebuffer\n"
  | noFlanterm => ascii "- Error: Failed to initialize flanterm\n"
  | noRamfs => panicLine (hexDigits 0) (ascii "Sphynx got no ramfs, expected ramfs in /sphynx/ramfs")
      kernelFile (ascii "97")
  | noMemoryMap => panicLine (hexDigits 0) (ascii "Failed to get memory map") kernelFile (ascii "104")

def sent : Cause → List Sent
  | noRamfs => clear :: lines greeting ++ [.both noRamfs.complaint]
  | noMemoryMap => clear :: lines loaded ++ [.both noMemoryMap.complaint]
  | cause => [clear, .port cause.complaint]

end Cause

section
variable (flantermFbInit : Framebuffer → Bool)

def firstCause : Option BootRecord → Option Cause
  | none => some .noData
  | some data => match data.framebuffer.filter (·.address ≠ 0) with
    | none => some .noFramebuffer
    | some framebuffer =>
        if flantermFbInit framebuffer = false then some .noFlanterm
        else if data.ramfs.isNone then some .noRamfs
        else if data.memoryMap.isNone then some .noMemoryMap
        else none

end

variable {flantermFbInit : Framebuffer → Bool} {fuel : Nat} {boot : Option BootRecord}
  {data : BootRecord} {framebuffer : Framebuffer} {ramfs : BootFile} {info : BootloaderInfo}
  {msg : File} {calls : List LogCall} {cause : Cause}

theorem complain {cause : Cause} (plain : npfVpprintf text [] = some text)
    (fits : text.length < bufferSize) (same : cause.complaint = text) :
    Sends (do logDebugPort text; hcf : Run α) [.port cause.complaint] (.error .hcf) := by
  rw [same]
  exact (logDebugPort_sends plain fits).bind (Writes.throw _)

theorem clear_sends : Sends (logDebugPort (ascii "\x1bc")) [clear] (.ok ()) :=
  logDebugPort_sends (by decide) (by decide)

theorem greeting_sends {rest : Run α} {sent : List Sent} {result : Except Stop α}
    (later : Sends rest sent result) : Sends (do
      log .ok (ascii "Flanterm Initialized\n")
      log .ok (ascii "GDT Initialized\n")
      log .ok (ascii "IDT Initialized\n")
      rest) (lines greeting ++ sent) result := by
  apply Writes.bind_one (log_sends .ok (by decide))
  apply Writes.bind_one (log_sends .ok (by decide))
  exact Writes.bind_one (log_sends .ok (by decide)) later

theorem kpanic_complains {reason number : List UInt8} {line : UInt64} (short : reason.length ≤ 60)
    (digits : intSpec.text line = number) (few : number.length ≤ 3) :
    Sends (kpanic none reason kernelFile line : Run α)
      [.both (panicLine (hexDigits 0) reason kernelFile number)] (.error .hcf) := by
  have whole : shown (panicLine (hexDigits 0) reason kernelFile number) =
      panicLine (hexDigits 0) reason kernelFile number := by
    have file : kernelFile.length = 14 := by decide
    refine shown_whole ?_
    rw [panicLine_length, hexDigits_length, file, bufferSize]
    omega
  have file : counted kernelFile = kernelFile := by decide
  intro tty
  rw [kpanic_prints, digits, file, counted_eq (Nat.lt_of_le_of_lt short (by decide))]
  exact congrArg (fun text => some (Except.error Stop.hcf, tty.emit text)) whole

def loadRamfs (data : BootRecord) (framebuffer : Framebuffer) :
    Run (BootRecord × Framebuffer × BootFile) := do
  let ramfs ← require data.ramfs do
    kpanic none (ascii "Sphynx got no ramfs, expected ramfs in /sphynx/ramfs") kernelFile 97
  log .info (ascii "ramfs loaded\n")
  require data.memoryMap do
    kpanic none (ascii "Failed to get memory map") kernelFile 104
  return (data, framebuffer, ramfs)

theorem checkResources_ready {sent : List Sent}
    {result : Except Stop (BootRecord × Framebuffer × BootFile)}
    (screen : data.framebuffer.filter (·.address ≠ 0) = some framebuffer)
    (flanterm : flantermFbInit framebuffer = true)
    (later : Sends (loadRamfs data framebuffer) sent result) :
    Sends (checkResources flantermFbInit (some data)) (clear :: (lines greeting ++ sent)) result := by
  unfold checkResources
  apply Writes.bind_one clear_sends
  apply Writes.bind_silent (require_found rfl)
  rw [screen]
  apply Writes.bind_silent (require_found rfl)
  apply Writes.bind_silent (require_found (if_pos flanterm))
  exact greeting_sends later

theorem checkResources_stops (first : firstCause flantermFbInit boot = some cause) :
    Sends (checkResources flantermFbInit boot) cause.sent (.error .hcf) := by
  cases given : boot with
  | none =>
      rw [given] at first
      obtain rfl := Option.some.inj first
      apply Writes.bind_one clear_sends
      exact Writes.bind_error (require_missing rfl (complain (by decide) (by decide) rfl))
  | some data =>
      rw [given, firstCause] at first
      cases screen : data.framebuffer.filter (·.address ≠ 0) with
      | none =>
          rw [screen] at first
          obtain rfl := Option.some.inj first
          apply Writes.bind_one clear_sends
          apply Writes.bind_silent (require_found rfl)
          rw [screen]
          exact Writes.bind_error (require_missing rfl (complain (by decide) (by decide) rfl))
      | some framebuffer =>
          rw [screen] at first
          by_cases flanterm : flantermFbInit framebuffer = true
          · cases files : data.ramfs with
            | none =>
                obtain rfl : .noRamfs = cause := by simpa [flanterm, files] using first
                apply checkResources_ready screen flanterm
                refine Writes.bind_error (require_missing files ?_)
                exact kpanic_complains (by decide) (by decide) (by decide)
            | some ramfs =>
                cases map : data.memoryMap with
                | none =>
                    obtain rfl : .noMemoryMap = cause := by simpa [flanterm, files, map] using first
                    apply checkResources_ready screen flanterm
                    apply Writes.bind_silent (require_found files)
                    apply Writes.bind_one (log_sends .info (by decide))
                    refine Writes.bind_error (require_missing map ?_)
                    exact kpanic_complains (by decide) (by decide) (by decide)
                | some _ => simp [flanterm, files, map] at first
          · obtain rfl : .noFlanterm = cause := by simpa [flanterm] using first
            apply Writes.bind_one clear_sends
            apply Writes.bind_silent (require_found rfl)
            rw [screen]
            apply Writes.bind_silent (require_found rfl)
            exact Writes.bind_error
              (require_missing (if_neg flanterm) (complain (by decide) (by decide) rfl))

/-! ## Boots that pass the checks -/

theorem firstCause_none (passes : firstCause flantermFbInit boot = none) :
    ∃ data framebuffer ramfs, boot = some data ∧ Checked flantermFbInit data framebuffer ramfs := by
  cases boot with
  | none => cases passes
  | some data =>
      rw [firstCause] at passes
      cases screen : data.framebuffer.filter (·.address ≠ 0) with
      | none =>
          rw [screen] at passes
          cases passes
      | some framebuffer =>
          obtain ⟨present, address⟩ := Option.filter_eq_some_iff.mp screen
          rw [screen] at passes
          cases flanterm : flantermFbInit framebuffer with
          | false => simp [flanterm] at passes
          | true =>
              cases files : data.ramfs with
              | none => simp [flanterm, files] at passes
              | some ramfs =>
                  cases map : data.memoryMap with
                  | none => simp [flanterm, files, map] at passes
                  | some _ => exact ⟨data, framebuffer, ramfs, rfl, present, by simpa using address,
                      flanterm, files, map⟩

def screenText (framebuffer : Framebuffer) : List UInt8 :=
  ascii "Screen Size: " ++ (intSpec.text framebuffer.width ++ (ascii "x" ++
    (intSpec.text framebuffer.height ++ ascii "\n")))

def screenRecords (framebuffer : Framebuffer) : List LogRecord :=
  loaded ++ [mainRecord .info (ascii "Memory map loaded\n"),
    mainRecord .debug (screenText framebuffer)]

def bootloaderRecords (framebuffer : Framebuffer) (info : BootloaderInfo) : List LogRecord :=
  screenRecords framebuffer ++
    [mainRecord .debug (ascii "Bootloader: " ++ (counted info.name.chars ++ ascii "\n"))]

def setupRecords (framebuffer : Framebuffer) (info : BootloaderInfo) (msg : File) : List LogRecord :=
  bootloaderRecords framebuffer info ++
    (if msg.data = none then
      [⟨.error, ascii "TarParser", ascii "Failed to find \"sys/welcome.txt\"\n"⟩]
    else []) ++ [mainRecord .ok (ascii "Kernel setup successfully.\n")]

/-- The last print, where it is reached. -/
def messageSent (ramfs : BootFile) (msg : File) : List Sent :=
  match msg.data with
  | none => []
  | some data => match cstr (ramfs.memory.drop data) with
    | .error _ => []
    | .ok text => [.both (shown (counted text ++ ascii "\n"))]

/-- What `_start` sends and ends with. -/
inductive BootEnds (flantermFbInit : Framebuffer → Bool) (fuel : Nat) :
    Option BootRecord → List Sent → Except Stop Unit → Prop
  | stopped {boot : Option BootRecord} {cause : Cause} :
      firstCause flantermFbInit boot = some cause →
      BootEnds flantermFbInit fuel boot cause.sent (.error .hcf)
  | noInfo {data : BootRecord} {framebuffer : Framebuffer} {ramfs : BootFile} :
      Checked flantermFbInit data framebuffer ramfs → data.info = none →
      BootEnds flantermFbInit fuel (some data) (clear :: lines (screenRecords framebuffer))
        (.error (.fault .nullPointer))
  | lookupFault {data : BootRecord} {framebuffer : Framebuffer} {ramfs : BootFile}
      {info : BootloaderInfo} {e : Fault} :
      Checked flantermFbInit data framebuffer ramfs → data.info = some info →
      messageLookup fuel ramfs = some (.error e) →
      BootEnds flantermFbInit fuel (some data)
        (clear :: lines (bootloaderRecords framebuffer info)) (.error (.fault e))
  | finished {data : BootRecord} {framebuffer : Framebuffer} {ramfs : BootFile}
      {info : BootloaderInfo} {msg : File} {calls : List LogCall} :
      Checked flantermFbInit data framebuffer ramfs → data.info = some info →
      messageLookup fuel ramfs = some (.ok (msg, calls)) →
      BootEnds flantermFbInit fuel (some data)
        (clear :: (lines (setupRecords framebuffer info msg) ++ messageSent ramfs msg))
        (messageResult ramfs msg)

theorem checkResources_passes (checked : Checked flantermFbInit data framebuffer ramfs) :
    Sends (checkResources flantermFbInit (some data)) (clear :: lines loaded)
      (.ok (data, framebuffer, ramfs)) := by
  have screen : data.framebuffer.filter (·.address ≠ 0) = some framebuffer :=
    Option.filter_eq_some_iff.mpr ⟨checked.framebuffer_eq, by simpa using checked.address⟩
  apply checkResources_ready screen checked.flanterm
  apply Writes.bind_silent (require_found checked.ramfs_eq)
  apply Writes.bind_one (log_sends .info (by decide))
  exact Writes.bind_silent (require_found checked.memoryMap) (Writes.pure _)

theorem screen_text (framebuffer : Framebuffer) :
    npfVpprintf (ascii "Screen Size: %dx%d\n")
      [.word framebuffer.width, .word framebuffer.height] = some (screenText framebuffer) := by
  have format : pieces (ascii "Screen Size: %dx%d\n") = (ascii "Screen Size: ").map .char ++
      .spec intSpec :: ((ascii "x").map .char ++ .spec intSpec :: ((ascii "\n").map .char ++ [])) := by
    decide
  have number (w : UInt64) (rest : List Arg) : intSpec.print (.word w :: rest) =
      some (intSpec.text w, rest) :=
    FormatSpec.print_word (by decide) (by decide) (by decide) w rest
  rw [npfVpprintf_eq, format, printPieces_chars, printPieces_spec (number _ _), printPieces_chars,
    printPieces_spec (number _ _), printPieces_chars]
  simp only [printPieces, Option.map_some, List.append_nil, screenText]

theorem bootloader_text (name : List UInt8) :
    npfVpprintf (ascii "Bootloader: %s\n") [.str name] =
      some (ascii "Bootloader: " ++ (counted name ++ ascii "\n")) := by
  have format : pieces (ascii "Bootloader: %s\n") = (ascii "Bootloader: ").map .char ++
      .spec stringSpec :: ((ascii "\n").map .char ++ []) := by decide
  rw [npfVpprintf_eq, format, printPieces_chars, printPieces_spec (stringSpec_prints _ _),
    printPieces_chars]
  simp only [printPieces, Option.map_some, List.append_nil]

theorem screen_sends {rest : Run α} {sent : List Sent} {result : Except Stop α}
    (later : Sends rest sent result) : Sends (do
      log .info (ascii "Memory map loaded\n")
      log .debug (ascii "Screen Size: %dx%d\n") [.word framebuffer.width, .word framebuffer.height]
      rest)
      (.both (mainRecord .info (ascii "Memory map loaded\n")).line ::
        .both (mainRecord .debug (screenText framebuffer)).line :: sent) result := by
  apply Writes.bind_one (log_sends .info (by decide))
  exact Writes.bind_one (log_sends .debug (screen_text framebuffer)) later

theorem messageLookup_calls (found : messageLookup fuel ramfs = some (.ok (msg, calls))) :
    calls = if msg.data = none then [failedToFind welcomePath.chars] else [] := by
  obtain ⟨out, ended, exit⟩ := Option.map_eq_some_iff.mp found
  cases out with
  | error e => cases exit
  | ok file =>
      cases file with
      | none =>
          simp only [bind, Except.bind, getFileTarExit, cstr_stored, pure, Except.pure,
            Except.ok.injEq, Prod.mk.injEq] at exit
          obtain ⟨rfl, rfl⟩ := exit
          exact (if_pos rfl).symm
      | some file =>
          cases exit
          -- The last turn of the walk found a header of the name.
          obtain ⟨ptr, -, last⟩ := Ends.last_turn ⟨fuel, ended⟩
          rcases header_cases ramfs.memory ramfs.size ptr with none | ⟨s, t, header⟩ | cut
          · rw [getFileTarTurn_none none] at last
            cases last
          · by_cases named : NamedAt ramfs.memory ptr welcomePath
            · rw [getFileTarTurn_found header named] at last
              cases last
              rfl
            · rw [getFileTarTurn_other header named] at last
              cases last
          · obtain ⟨e, error⟩ := getFileTarTurn_cut cut (welcomePath.stored [])
            rw [error] at last
            cases last

def lookupSent (msg : File) : List Sent :=
  lines (if msg.data = none then
    [⟨.error, ascii "TarParser", ascii "Failed to find \"sys/welcome.txt\"\n"⟩] else [])

theorem getFile_sends (found : messageLookup fuel ramfs = some (.ok (msg, calls))) :
    Sends (getFile fuel ramfs welcomePath) (lookupSent msg) (.ok msg) := by
  have silent : Sends (finish (messageLookup fuel ramfs)) [] (.ok (msg, calls)) := by
    rw [found]
    exact Writes.pure _
  have calls_eq := messageLookup_calls found
  refine Writes.bind_silent silent ?_
  by_cases missing : msg.data = none
  · rw [if_pos missing] at calls_eq
    rw [calls_eq, lookupSent, if_pos missing]
    refine Writes.bind_one (print_sends fun tty => ?_) (Writes.pure msg)
    have formatted : npfVpprintf (failedToFind welcomePath.chars).fmt
        (failedToFind welcomePath.chars).args =
        some (ascii "Failed to find \"sys/welcome.txt\"\n") := by decide
    have logged : tarLogger.log (failedToFind welcomePath.chars) tty = _ :=
      Logger.log_line (by decide) (by decide) formatted tty
    rw [Logger.logAll, List.foldlM_cons, logged]
    rfl
  · rw [if_neg missing] at calls_eq
    rw [calls_eq, lookupSent, if_neg missing]
    exact Writes.bind_silent (fun _ => rfl) (Writes.pure msg)

theorem printMessage_sends (ramfs : BootFile) (msg : File) :
    Sends (printMessage ramfs msg) (messageSent ramfs msg) (messageResult ramfs msg) := by
  unfold printMessage messageSent messageResult
  cases msg.data with
  | none => exact Writes.bind_error (Writes.throw _)
  | some data =>
      refine Writes.bind_silent (Writes.pure data) ?_
      cases text : cstr (ramfs.memory.drop data) with
      | error e =>
          simp only [text]
          exact Writes.bind_error (Writes.throw _)
      | ok text' =>
          simp only [text]
          exact Writes.bind_silent (Writes.pure text')
            (print_sends (printf_eq (npfVpprintf_string_line text')))

theorem lines_append (records records' : List LogRecord) :
    lines (records ++ records') = lines records ++ lines records' := List.map_append ..

theorem loadMessage_sends (framebuffer : Framebuffer) (present : data.info = some info)
    (found : messageLookup fuel ramfs = some (.ok (msg, calls))) :
    ∃ sent, Sends (loadMessage fuel data framebuffer ramfs) sent (.ok msg) ∧
      lines loaded ++ sent = lines (setupRecords framebuffer info msg) := by
  have use_info : Sends (use data.info) [] (.ok info) := by
    rw [present]
    exact Writes.pure info
  have before : Sends (logBootloader data framebuffer) _ (.ok ()) :=
    screen_sends (Writes.bind_silent use_info (log_sends .debug (bootloader_text info.name.chars)))
  have behind : Sends (log .ok (ascii "Kernel setup successfully.\n"))
      (lines [mainRecord .ok (ascii "Kernel setup successfully.\n")]) (.ok ()) :=
    log_sends .ok (by decide)
  refine ⟨_, before.bind ((getFile_sends found).bind (behind.bind (Writes.pure msg))), ?_⟩
  simp only [setupRecords, bootloaderRecords, screenRecords, lines_append, List.append_assoc,
    lookupSent]
  rfl

theorem start_finishes (checked : Checked flantermFbInit data framebuffer ramfs)
    (present : data.info = some info)
    (found : messageLookup fuel ramfs = some (.ok (msg, calls))) :
    Sends (start flantermFbInit fuel (some data))
      (clear :: (lines (setupRecords framebuffer info msg) ++ messageSent ramfs msg))
      (messageResult ramfs msg) := by
  obtain ⟨sent, loads, all⟩ := loadMessage_sends framebuffer present found
  have sets : Sends (setup flantermFbInit fuel (some data)) (clear :: lines loaded ++ (sent ++ []))
      (.ok (ramfs, msg)) :=
    Writes.bind (checkResources_passes checked) (Writes.bind loads (Writes.pure (ramfs, msg)))
  have whole : Sends (start flantermFbInit fuel (some data)) _ (messageResult ramfs msg) :=
    Writes.bind sets (printMessage_sends ramfs msg)
  rwa [List.append_nil, List.cons_append, all] at whole

theorem start_noInfo_sends (checked : Checked flantermFbInit data framebuffer ramfs)
    (missing : data.info = none) :
    Sends (start flantermFbInit fuel (some data)) (clear :: lines (screenRecords framebuffer))
      (.error (.fault .nullPointer)) := by
  have null : Sends (use data.info) [] (.error (.fault .nullPointer)) := by
    rw [missing]
    exact Writes.throw _
  have loads : Sends (loadMessage fuel data framebuffer ramfs) _ (.error (.fault .nullPointer)) :=
    Writes.bind_error (screen_sends (Writes.bind_error null))
  have sets : Sends (setup flantermFbInit fuel (some data)) _ (.error (.fault .nullPointer)) :=
    Writes.bind (checkResources_passes checked) (Writes.bind_error loads)
  exact Writes.bind_error sets

theorem start_lookupFault {e : Fault} (checked : Checked flantermFbInit data framebuffer ramfs)
    (present : data.info = some info) (fault : messageLookup fuel ramfs = some (.error e)) :
    Sends (start flantermFbInit fuel (some data))
      (clear :: lines (bootloaderRecords framebuffer info)) (.error (.fault e)) := by
  have use_info : Sends (use data.info) [] (.ok info) := by
    rw [present]
    exact Writes.pure info
  have before : Sends (logBootloader data framebuffer) _ (.ok ()) :=
    screen_sends (Writes.bind_silent use_info (log_sends .debug (bootloader_text info.name.chars)))
  have lookup : Sends (finish (messageLookup fuel ramfs)) [] (.error (.fault e)) := by
    rw [fault]
    exact Writes.throw _
  have loads : Sends (loadMessage fuel data framebuffer ramfs) _ (.error (.fault e)) :=
    Writes.bind before (Writes.bind_error (Writes.bind_error lookup))
  have sets : Sends (setup flantermFbInit fuel (some data)) _ (.error (.fault e)) :=
    Writes.bind (checkResources_passes checked) (Writes.bind_error loads)
  exact Writes.bind_error sets

theorem BootEnds.sends {sent : List Sent} {result : Except Stop Unit}
    (ends : BootEnds flantermFbInit fuel boot sent result) :
    Sends (start flantermFbInit fuel boot) sent result := by
  cases ends with
  | stopped first => exact Writes.bind_error (Writes.bind_error (checkResources_stops first))
  | noInfo checked missing => exact start_noInfo_sends checked missing
  | lookupFault checked present fault => exact start_lookupFault checked present fault
  | finished checked present found => exact start_finishes checked present found

theorem bootEnds_of_run {tty tty' : Tty} {result : Except Stop Unit}
    (run : start flantermFbInit fuel boot tty = some (result, tty')) :
    ∃ sent, BootEnds flantermFbInit fuel boot sent result ∧ tty' = sent.foldl Sent.emit tty := by
  have answered : ∃ sent result, BootEnds flantermFbInit fuel boot sent result := by
    cases first : firstCause flantermFbInit boot with
    | some cause => exact ⟨_, _, .stopped first⟩
    | none =>
        obtain ⟨data, framebuffer, ramfs, rfl, checked⟩ := firstCause_none first
        cases info : data.info with
        | none => exact ⟨_, _, .noInfo checked info⟩
        | some info' =>
            cases looked : messageLookup fuel ramfs with
            | none =>
                have endless := (setup_unanswered checked info looked).bind
                  (fun answer => printMessage answer.1 answer.2) tty
                cases run.symm.trans endless
            | some answer =>
                cases answer with
                | error e => exact ⟨_, _, .lookupFault checked info looked⟩
                | ok answer => exact ⟨_, _, .finished checked info looked⟩
  obtain ⟨sent, result', ends⟩ := answered
  rw [ends.sends tty] at run
  cases run
  exact ⟨sent, ends, rfl⟩

/-- Every run of `_start` ends as one of the cases says, with exactly their bytes on each sink. -/
theorem boot_console (flantermFbInit : Framebuffer → Bool) (fuel : Nat) (boot : Option BootRecord)
    (tty tty' : Tty) (result : Except Stop Unit) :
    start flantermFbInit fuel boot tty = some (result, tty') ↔
      ∃ sent, BootEnds flantermFbInit fuel boot sent result ∧
        tty'.terminal = tty.terminal ++ sent.flatMap Sent.onTerminal ∧
        tty'.debugPort = tty.debugPort ++ sent.flatMap Sent.onPort := by
  constructor
  · intro run
    obtain ⟨sent, ends, rfl⟩ := bootEnds_of_run run
    rw [Sent.foldl_emit]
    exact ⟨sent, ends, rfl, rfl⟩
  · rintro ⟨sent, ends, terminal, debugPort⟩
    rw [ends.sends tty, Sent.foldl_emit, ← terminal, ← debugPort]

/-! ## Reading the debug port -/

def causes : List Cause := [.noData, .noFramebuffer, .noFlanterm, .noRamfs, .noMemoryMap]

def diagnose (port : List UInt8) : Option Cause :=
  causes.find? fun cause => cause.complaint.isSuffixOf port

theorem diagnose_sent (cause : Cause) : diagnose (cause.sent.flatMap Sent.onPort) = some cause := by
  cases cause <;> decide +kernel

theorem messageResult_ne_hcf (ramfs : BootFile) (msg : File) :
    messageResult ramfs msg ≠ .error .hcf := by
  unfold messageResult
  split
  · exact fun same => by cases same
  · split <;> exact fun same => by cases same

theorem stops_iff (flantermFbInit : Framebuffer → Bool) (fuel : Nat) (boot : Option BootRecord)
    (tty : Tty) :
    (∃ tty', start flantermFbInit fuel boot tty = some (.error .hcf, tty')) ↔
      ∃ cause, firstCause flantermFbInit boot = some cause := by
  constructor
  · rintro ⟨tty', run⟩
    obtain ⟨sent, ends, -⟩ := bootEnds_of_run run
    generalize stops : (.error .hcf : Except Stop Unit) = result at ends
    cases ends with
    | stopped first => exact ⟨_, first⟩
    | noInfo => cases stops
    | lookupFault => cases stops
    | finished => exact absurd stops.symm (messageResult_ne_hcf _ _)
  · rintro ⟨cause, first⟩
    exact ⟨_, (BootEnds.stopped first).sends tty⟩

/-- A boot stops in `hcf` exactly when a check fails, and what it adds to the debug port tells which
failed first. -/
theorem boot_diagnosed (flantermFbInit : Framebuffer → Bool) (fuel : Nat)
    (boot : Option BootRecord) (tty : Tty) :
    ((∃ tty', start flantermFbInit fuel boot tty = some (.error .hcf, tty')) ↔
      ∃ cause, firstCause flantermFbInit boot = some cause) ∧
    ∀ tty', start flantermFbInit fuel boot tty = some (.error .hcf, tty') →
      ∃ sent, tty'.debugPort = tty.debugPort ++ sent ∧
        diagnose sent = firstCause flantermFbInit boot := by
  refine ⟨stops_iff flantermFbInit fuel boot tty, fun tty' run => ?_⟩
  obtain ⟨cause, first⟩ := (stops_iff flantermFbInit fuel boot tty).mp ⟨tty', run⟩
  have stopped := @BootEnds.sends flantermFbInit fuel boot _ _ (.stopped first) tty
  obtain rfl : tty' = cause.sent.foldl Sent.emit tty :=
    (Prod.mk.inj (Option.some.inj (run.symm.trans stopped))).2
  rw [first, Sent.foldl_emit]
  exact ⟨_, rfl, diagnose_sent cause⟩

end Sphynx

import Sphynx.Stdlib.Data.TarLookup
import Sphynx.Sys.Cpu

/-!
# The entry of the kernel (`kernel.cpp`)

`_start` is cut into stretches: `checkResources` up to the last check, `loadMessage` up to the last
log call, `printMessage`. Pointers of the boot record that may be null are options. `GDT::init` and
`IDT::init` print nothing and are left out here. `flanterm_fb_init` is the terminal's own code; all
that matters of it is whether it returns a context.
-/

namespace Sphynx
open Lib Dev External Sphynx.Core Sys Stdlib

/-! ## The boot record -/

structure Framebuffer where
  address : UInt64
  width : UInt64
  height : UInt64
  pitch : UInt64
  redMaskSize : UInt64
  redMaskShift : UInt64
  greenMaskSize : UInt64
  greenMaskShift : UInt64
  blueMaskSize : UInt64
  blueMaskShift : UInt64

structure BootloaderInfo where
  name : CString

structure BootFile where
  memory : List UInt8
  size : Nat

/-- `boot_t`. Of the memory map only its presence is looked at. -/
structure BootRecord where
  framebuffer : Option Framebuffer
  info : Option BootloaderInfo
  ramfs : Option BootFile
  memoryMap : Option Unit

/-! ## `_start` -/

def welcomePath : CString := ⟨ascii "sys/welcome.txt", by decide⟩

def mainLogger : Logger :=
  let logger : Logger := { name := ascii "SphynxMain" }
  if sphynxDebug then logger.setLevel .debug else logger.setLevel .info

def log (lvl : Level) (fmt : List UInt8) (args : List Arg := []) : Run Unit :=
  print (mainLogger.log ⟨lvl, fmt, args⟩)

def logDebugPort (text : List UInt8) : Run Unit :=
  print fun tty => (kdprintf text [] tty).map Prod.snd

def require {α : Type} (resource : Option α) (absent : Run α) : Run α :=
  match resource with
  | some resource => pure resource
  | none => absent

def getFile (fuel : Nat) (ramfs : BootFile) (path : CString) : Run File := do
  let (file, calls) ← finish (getFileTar fuel ramfs.memory ramfs.size (path.stored []))
  print (tarLogger.logAll calls)
  return file

section
variable (flantermFbInit : Framebuffer → Bool)

def kernelFile : List UInt8 := ascii "src/kernel.cpp"

def checkResources (boot : Option BootRecord) : Run (BootRecord × Framebuffer × BootFile) := do
  logDebugPort (ascii "\x1bc")
  let data ← require boot do
    logDebugPort (ascii " - Error: Failed to get bootdata\n")
    hcf
  let framebuffer ← require (data.framebuffer.filter (·.address ≠ 0)) do
    logDebugPort (ascii " - Error: Failed to get framebuffer\n")
    hcf
  require (if flantermFbInit framebuffer then some () else none) do
    logDebugPort (ascii "- Error: Failed to initialize flanterm\n")
    hcf
  log .ok (ascii "Flanterm Initialized\n")
  log .ok (ascii "GDT Initialized\n")
  log .ok (ascii "IDT Initialized\n")
  let ramfs ← require data.ramfs do
    kpanic none (ascii "Sphynx got no ramfs, expected ramfs in /sphynx/ramfs") kernelFile 97
  log .info (ascii "ramfs loaded\n")
  require data.memoryMap do
    kpanic none (ascii "Failed to get memory map") kernelFile 104
  return (data, framebuffer, ramfs)

def logBootloader (data : BootRecord) (framebuffer : Framebuffer) : Run Unit := do
  log .info (ascii "Memory map loaded\n")
  log .debug (ascii "Screen Size: %dx%d\n") [.word framebuffer.width, .word framebuffer.height]
  let info ← use data.info
  log .debug (ascii "Bootloader: %s\n") [.str info.name.chars]

def loadMessage (fuel : Nat) (data : BootRecord) (framebuffer : Framebuffer) (ramfs : BootFile) :
    Run File := do
  logBootloader data framebuffer
  let msg ← getFile fuel ramfs welcomePath
  log .ok (ascii "Kernel setup successfully.\n")
  return msg

def printMessage (ramfs : BootFile) (msg : File) : Run Unit := do
  let data ← use msg.data
  let text ← finish (some (cstr (ramfs.memory.drop data)))
  print (printf (ascii "%s\n") [.str text])

def setup (fuel : Nat) (boot : Option BootRecord) : Run (BootFile × File) := do
  let (data, framebuffer, ramfs) ← checkResources flantermFbInit boot
  let msg ← loadMessage fuel data framebuffer ramfs
  return (ramfs, msg)

/-- `_start`; it returns where the source calls `halt()`. -/
def start (fuel : Nat) (boot : Option BootRecord) : Run Unit := do
  let (ramfs, msg) ← setup flantermFbInit fuel boot
  printMessage ramfs msg

end

/-! ## What each part ends with -/

structure Checked (flantermFbInit : Framebuffer → Bool) (data : BootRecord)
    (framebuffer : Framebuffer) (ramfs : BootFile) : Prop where
  framebuffer_eq : data.framebuffer = some framebuffer
  address : framebuffer.address ≠ 0
  flanterm : flantermFbInit framebuffer = true
  ramfs_eq : data.ramfs = some ramfs
  memoryMap : data.memoryMap = some ()

variable {flantermFbInit : Framebuffer → Bool} {fuel : Nat} {boot : Option BootRecord}
  {data : BootRecord} {framebuffer : Framebuffer} {ramfs : BootFile} {info : BootloaderInfo}
  {msg : File} {calls : List LogCall} {text : List UInt8}

theorem log_ends (lvl : Level) {fmt : List UInt8} {args : List Arg}
    (matched : (npfVpprintf fmt args).isSome) : Outcome (log lvl fmt args) (.ok ()) :=
  log_outcome mainLogger matched

theorem logDebugPort_ends (matched : (npfVpprintf text []).isSome) :
    Outcome (logDebugPort text) (.ok ()) := by
  obtain ⟨formatted, eq⟩ := Option.isSome_iff_exists.mp matched
  apply print_outcome
  intro tty
  rw [kdprintf, printWith_eq Tty.dputc eq]
  rfl

theorem require_some {α : Type} {resource : Option α} {a : α} {absent : Run α}
    (present : resource = some a) : Outcome (require resource absent) (.ok a) := by
  rw [present]
  exact .pure a

theorem require_none {α : Type} {resource : Option α} {absent : Run α} {e : Stop}
    (missing : resource = none) (stops : Outcome absent (.error e)) :
    Outcome (require resource absent) (.error e) := by
  rw [missing]
  exact stops

theorem hcf_behind {α : Type} (matched : (npfVpprintf text []).isSome) :
    Outcome (do logDebugPort text; hcf : Run α) (.error .hcf) :=
  .bind (logDebugPort_ends matched) hcf_outcome

theorem checkResources_checked (checked : Checked flantermFbInit data framebuffer ramfs) :
    Outcome (checkResources flantermFbInit (some data)) (.ok (data, framebuffer, ramfs)) := by
  have screen : data.framebuffer.filter (·.address ≠ 0) = some framebuffer :=
    Option.filter_eq_some_iff.mpr ⟨checked.framebuffer_eq, by simpa using checked.address⟩
  unfold checkResources
  apply Outcome.bind (logDebugPort_ends (by decide))
  apply Outcome.bind (require_some rfl)
  apply Outcome.bind (require_some screen)
  apply Outcome.bind (require_some (if_pos checked.flanterm))
  apply Outcome.bind (log_ends .ok (by decide))
  apply Outcome.bind (log_ends .ok (by decide))
  apply Outcome.bind (log_ends .ok (by decide))
  apply Outcome.bind (require_some checked.ramfs_eq)
  apply Outcome.bind (log_ends .info (by decide))
  apply Outcome.bind (require_some checked.memoryMap)
  exact .pure _

theorem checkResources_unchecked
    (unchecked : ∀ data framebuffer ramfs, boot = some data →
      ¬ Checked flantermFbInit data framebuffer ramfs) :
    Outcome (checkResources flantermFbInit boot) (.error .hcf) := by
  unfold checkResources
  -- Through the checks in their order; the first that fails stops in `hcf`.
  apply Outcome.bind (logDebugPort_ends (by decide))
  cases given : boot with
  | none => exact .bind_error (require_none rfl (hcf_behind (by decide)))
  | some data =>
      apply Outcome.bind (require_some rfl)
      cases screen : data.framebuffer.filter (·.address ≠ 0) with
      | none => exact .bind_error (require_none rfl (hcf_behind (by decide)))
      | some framebuffer =>
          obtain ⟨present, address⟩ := Option.filter_eq_some_iff.mp screen
          apply Outcome.bind (require_some rfl)
          by_cases flanterm : flantermFbInit framebuffer = true
          · apply Outcome.bind (require_some (if_pos flanterm))
            apply Outcome.bind (log_ends .ok (by decide))
            apply Outcome.bind (log_ends .ok (by decide))
            apply Outcome.bind (log_ends .ok (by decide))
            cases files : data.ramfs with
            | none => exact .bind_error (require_none rfl (kpanic_outcome _ _ _ _))
            | some ramfs =>
                apply Outcome.bind (require_some rfl)
                apply Outcome.bind (log_ends .info (by decide))
                cases map : data.memoryMap with
                | none => exact .bind_error (require_none rfl (kpanic_outcome _ _ _ _))
                | some _ =>
                    exact absurd ⟨present, by simpa using address, flanterm, files, map⟩
                      (unchecked data framebuffer ramfs given)
          · exact .bind_error (require_none (if_neg flanterm) (hcf_behind (by decide)))

theorem finish_ok {α : Type} {answer : Option (Except Fault α)} {a : α}
    (ok : answer = some (.ok a)) : Outcome (finish answer) (.ok a) := by
  rw [ok]
  exact .pure a

theorem finish_error {α : Type} {answer : Option (Except Fault α)} {e : Fault}
    (error : answer = some (.error e)) : Outcome (finish answer) (.error (.fault e)) := by
  rw [error]
  exact .throw _

theorem use_some {α : Type} {pointer : Option α} {target : α} (h : pointer = some target) :
    Outcome (use pointer) (.ok target) := by
  rw [h]
  exact .pure target

theorem use_none {α : Type} {pointer : Option α} (h : pointer = none) :
    Outcome (use pointer) (.error (.fault .nullPointer)) := by
  rw [h]
  exact .throw _

def messageResult (ramfs : BootFile) (msg : File) : Except Stop Unit :=
  match msg.data with
  | none => .error (.fault .nullPointer)
  | some data => match cstr (ramfs.memory.drop data) with
    | .error e => .error (.fault e)
    | .ok _ => .ok ()

theorem printMessage_ends (ramfs : BootFile) (msg : File) :
    Outcome (printMessage ramfs msg) (messageResult ramfs msg) := by
  unfold printMessage messageResult
  cases pointer : msg.data with
  | none => exact .bind_error (use_none rfl)
  | some data =>
      apply Outcome.bind (use_some rfl)
      cases text : cstr (ramfs.memory.drop data) with
      | error e =>
          simp only [text]
          exact .bind_error (finish_error rfl)
      | ok text' =>
          simp only [text]
          refine .bind (finish_ok rfl) (print_outcome fun tty => ?_)
          rw [printf_eq (npfVpprintf_string_line text')]
          rfl

def messageLookup (fuel : Nat) (ramfs : BootFile) : Option (Except Fault (File × List LogCall)) :=
  getFileTar fuel ramfs.memory ramfs.size (welcomePath.stored [])

theorem getFile_ends (found : messageLookup fuel ramfs = some (.ok (msg, calls))) :
    Outcome (getFile fuel ramfs welcomePath) (.ok msg) := by
  apply Outcome.bind (finish_ok found)
  apply Outcome.bind (logAll_outcome tarLogger (getFileTar_matched found))
  exact .pure msg

theorem logBootloader_screen {rest : Run Unit} {result : Except Stop Unit}
    (later : Outcome rest result) : Outcome (do
      log .info (ascii "Memory map loaded\n")
      log .debug (ascii "Screen Size: %dx%d\n") [.word framebuffer.width, .word framebuffer.height]
      rest) result := by
  have kinds := npfVpprintf_kinds (ascii "Screen Size: %dx%d\n")
    [.word framebuffer.width, .word framebuffer.height] [.word 0, .word 0] rfl
  apply Outcome.bind (log_ends .info (by decide))
  exact .bind (log_ends .debug (kinds.trans (by decide : _ = true))) later

theorem logBootloader_ends (present : data.info = some info) :
    Outcome (logBootloader data framebuffer) (.ok ()) := by
  have kinds := npfVpprintf_kinds (ascii "Bootloader: %s\n") [.str info.name.chars] [.str []] rfl
  apply logBootloader_screen
  apply Outcome.bind (use_some present)
  exact log_ends .debug (kinds.trans (by decide : _ = true))

theorem logBootloader_noInfo (missing : data.info = none) :
    Outcome (logBootloader data framebuffer) (.error (.fault .nullPointer)) := by
  apply logBootloader_screen
  exact .bind_error (use_none missing)

theorem setup_ends (checked : Checked flantermFbInit data framebuffer ramfs)
    (present : data.info = some info) (found : messageLookup fuel ramfs = some (.ok (msg, calls))) :
    Outcome (setup flantermFbInit fuel (some data)) (.ok (ramfs, msg)) := by
  apply Outcome.bind (checkResources_checked checked)
  refine .bind (a := msg) ?_ (.pure _)
  apply Outcome.bind (logBootloader_ends present)
  apply Outcome.bind (getFile_ends found)
  exact .bind (log_ends .ok (by decide)) (.pure msg)

theorem start_ends (checked : Checked flantermFbInit data framebuffer ramfs)
    (present : data.info = some info) (found : messageLookup fuel ramfs = some (.ok (msg, calls))) :
    Outcome (start flantermFbInit fuel (some data)) (messageResult ramfs msg) :=
  .bind (setup_ends checked present found) (printMessage_ends ramfs msg)

theorem start_noInfo (checked : Checked flantermFbInit data framebuffer ramfs)
    (missing : data.info = none) :
    Outcome (start flantermFbInit fuel (some data)) (.error (.fault .nullPointer)) := by
  refine .bind_error (.bind (checkResources_checked checked) ?_)
  exact .bind_error (.bind_error (logBootloader_noInfo missing))

theorem setup_lookupFault {e : Fault} (checked : Checked flantermFbInit data framebuffer ramfs)
    (present : data.info = some info) (fault : messageLookup fuel ramfs = some (.error e)) :
    Outcome (setup flantermFbInit fuel (some data)) (.error (.fault e)) := by
  refine .bind (checkResources_checked checked) (.bind_error ?_)
  apply Outcome.bind (logBootloader_ends present)
  exact .bind_error (.bind_error (finish_error fault))

theorem setup_unanswered (checked : Checked flantermFbInit data framebuffer ramfs)
    (present : data.info = some info) (endless : messageLookup fuel ramfs = none) :
    Unanswered (setup flantermFbInit fuel (some data)) := by
  have lookup : Unanswered (getFile fuel ramfs welcomePath) := by
    apply Unanswered.bind
    change Unanswered (finish (messageLookup fuel ramfs))
    rw [endless]
    exact fun _ => rfl
  refine (checkResources_checked checked).bind_unanswered (.bind ?_ _)
  exact (logBootloader_ends present).bind_unanswered (lookup.bind _)

theorem start_unchecked
    (unchecked : ∀ data framebuffer ramfs, boot = some data →
      ¬ Checked flantermFbInit data framebuffer ramfs) :
    Outcome (start flantermFbInit fuel boot) (.error .hcf) :=
  .bind_error (.bind_error (checkResources_unchecked unchecked))

/-! ## When booting is safe -/

/-- `_start` stops in `hcf`, or comes to its end; in particular it does not use a null pointer. -/
def BootsSafely (flantermFbInit : Framebuffer → Bool) (boot : Option BootRecord) : Prop :=
  ∃ fuel, Outcome (start flantermFbInit fuel boot) (.error .hcf) ∨
    Outcome (start flantermFbInit fuel boot) (.ok ())

/-- The walk over the ramfs comes to a header of the name `sys/welcome.txt`, and a NUL ends what
lies behind it. -/
def HasMessage (ramfs : BootFile) : Prop :=
  ∃ ptr, FoundAt ramfs.memory ramfs.size welcomePath ptr ∧ 0 ∈ ramfs.memory.drop (ptr + 512)

theorem messageResult_ok (returned : Returns ramfs.memory ramfs.size (welcomePath.stored []) msg) :
    messageResult ramfs msg = .ok () ↔ HasMessage ramfs := by
  unfold messageResult HasMessage
  constructor
  · intro ok
    cases pointer : msg.data with
    | none => simp [pointer] at ok
    | some data =>
        obtain ⟨ptr, found, rfl⟩ := returned.data_iff.mp pointer
        cases text : cstr (ramfs.memory.drop (ptr + 512)) with
        | error e => simp [pointer, text] at ok
        | ok text => exact ⟨ptr, found, cstr_ok_iff.mp ⟨_, text⟩⟩
  · rintro ⟨ptr, found, terminated⟩
    obtain ⟨text, read⟩ := cstr_ok_iff.mpr terminated
    rw [returned.data_iff.mpr ⟨ptr, found, rfl⟩]
    simp [read]

theorem BootsSafely.needs (safe : BootsSafely flantermFbInit (some data))
    (checked : Checked flantermFbInit data framebuffer ramfs) :
    data.info ≠ none ∧ HasMessage ramfs := by
  obtain ⟨fuel, safe⟩ := safe
  have answered : ∃ result, Outcome (start flantermFbInit fuel (some data)) result ∧
      (result = .error .hcf ∨ result = .ok ()) := by
    rcases safe with safe | safe
    · exact ⟨_, safe, Or.inl rfl⟩
    · exact ⟨_, safe, Or.inr rfl⟩
  obtain ⟨result, ends, good⟩ := answered
  cases info : data.info with
  | none =>
      obtain rfl := ends.unique (start_noInfo checked info)
      simp at good
  | some info' =>
      refine ⟨by simp, ?_⟩
      cases looked : messageLookup fuel ramfs with
      | none => exact absurd ((setup_unanswered checked info looked).bind _) ends.not_unanswered
      | some answer =>
          cases answer with
          | error e =>
              obtain rfl := ends.unique (.bind_error (setup_lookupFault checked info looked))
              simp at good
          | ok answer =>
              obtain ⟨msg, calls⟩ := answer
              have returned : Returns ramfs.memory ramfs.size (welcomePath.stored []) msg :=
                ⟨fuel, calls, looked⟩
              obtain rfl := ends.unique (start_ends checked info looked)
              apply (messageResult_ok returned).mp
              apply good.resolve_left
              unfold messageResult
              split
              · simp
              · split <;> simp

theorem bootsSafely_of_message (checked : Checked flantermFbInit data framebuffer ramfs)
    (present : data.info ≠ none) (message : HasMessage ramfs) :
    BootsSafely flantermFbInit (some data) := by
  obtain ⟨info, eq⟩ := Option.ne_none_iff_exists'.mp present
  obtain ⟨ptr, here, terminated⟩ := message
  obtain ⟨s, t, returned⟩ := here.returns []
  have ok := (messageResult_ok returned).mpr ⟨ptr, here, terminated⟩
  obtain ⟨fuel, calls, found⟩ := returned
  have ends := start_ends checked eq found
  rw [ok] at ends
  exact ⟨fuel, Or.inr ends⟩

theorem boot_safe_iff (flantermFbInit : Framebuffer → Bool) (boot : Option BootRecord) :
    BootsSafely flantermFbInit boot ↔
      ∀ data framebuffer ramfs, boot = some data →
        Checked flantermFbInit data framebuffer ramfs → data.info ≠ none ∧ HasMessage ramfs := by
  constructor
  · rintro safe data framebuffer ramfs rfl checked
    exact safe.needs checked
  · intro needs
    by_cases passes : ∃ data framebuffer ramfs, boot = some data ∧
        Checked flantermFbInit data framebuffer ramfs
    · obtain ⟨data, framebuffer, ramfs, rfl, checked⟩ := passes
      obtain ⟨present, message⟩ := needs data framebuffer ramfs rfl checked
      exact bootsSafely_of_message checked present message
    · refine ⟨0, Or.inl (start_unchecked ?_)⟩
      intro data framebuffer ramfs given checked
      exact passes ⟨data, framebuffer, ramfs, given, checked⟩

def screen : Framebuffer where
  address := 0xFD000000
  width := 1024
  height := 768
  pitch := 4096
  redMaskSize := 8
  redMaskShift := 16
  greenMaskSize := 8
  greenMaskShift := 8
  blueMaskSize := 8
  blueMaskShift := 0

def emptyRamfsBoot : BootRecord where
  framebuffer := some screen
  info := some ⟨⟨ascii "sphynxboot", by decide⟩⟩
  ramfs := some ⟨image [], 1024⟩
  memoryMap := some ()

theorem emptyRamfsBoot_unsafe :
    Returns (image []) 1024 (welcomePath.stored []) {} ∧
      ¬ BootsSafely (fun _ => true) (some emptyRamfsBoot) ∧
      ∀ ramfs, ¬ BootsSafely (fun _ => true)
        (some { emptyRamfsBoot with info := none, ramfs := some ramfs }) := by
  have length : (image []).length = 1024 := by
    rw [image, List.flatMap_nil, List.nil_append, List.length_replicate]
  have nothing : ∀ e ∈ ([] : List Entry), e.Passable welcomePath := by simp
  have returned := returns_lookup [] nothing
  rw [length] at returned
  refine ⟨returned, fun safe => ?_, fun ramfs safe => ?_⟩
  · have checked : Checked (fun _ => true) emptyRamfsBoot screen ⟨image [], 1024⟩ :=
      ⟨rfl, by decide, rfl, rfl, rfl⟩
    obtain ⟨ptr, found, -⟩ := (safe.needs checked).2
    have data := returned.data_iff.mpr ⟨ptr, found, rfl⟩
    cases data
  · have checked : Checked (fun _ => true)
        { emptyRamfsBoot with info := none, ramfs := some ramfs } screen ramfs :=
      ⟨rfl, by decide, rfl, rfl, rfl⟩
    exact (safe.needs checked).1 rfl

end Sphynx

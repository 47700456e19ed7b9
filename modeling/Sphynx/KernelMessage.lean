import Sphynx.Kernel

/-!
# The boot message

What `_start` prints last, for a ramfs in which the message is an entry among others.
-/

namespace Sphynx
open Lib Dev External Sys Stdlib

variable {flantermFbInit : Framebuffer → Bool} {fuel : Nat} {data : BootRecord}
  {framebuffer : Framebuffer} {ramfs : BootFile} {info : BootloaderInfo} {msg : File}
  {content text string : List UInt8} {rest : List Entry} {tty tty' : Tty}

structure WelcomeImage where
  before : List Entry
  message : Entry
  rest : List Entry
  named : message.name = welcomePath.chars
  first : ∀ b ∈ before, b.name ≠ welcomePath.chars
  text : 0 ∉ message.content

namespace WelcomeImage
variable (w : WelcomeImage)

def bytes : List UInt8 := image (w.before ++ w.message :: w.rest)

def file : BootFile := ⟨w.bytes, w.bytes.length⟩

/-- What lies in front of the message can be stepped over. -/
def Reachable : Prop := ∀ b ∈ w.before, b.content.length ≤ 2 ^ 32 - 1024

end WelcomeImage

/-- Whatever string the formatter is given for the message, its `int` counts the whole of it. -/
def CountsMessage (ramfs : BootFile) : Prop :=
  ∀ ptr text, FoundAt ramfs.memory ramfs.size welcomePath ptr →
    cstr (ramfs.memory.drop (ptr + 512)) = .ok text → text.length < 2 ^ 31

/-- Every boot that comes to the last print of `_start` sends exactly `text` and a newline to both
sinks there. -/
def PrintsMessage (ramfs : BootFile) (text : List UInt8) : Prop :=
  ∀ flantermFbInit data framebuffer info, Checked flantermFbInit data framebuffer ramfs →
    data.info = some info → ∃ fuel, ∀ tty, ∃ msg before,
      setup flantermFbInit fuel (some data) tty = some (.ok (ramfs, msg), before) ∧
      start flantermFbInit fuel (some data) tty =
        some (.ok (), before.emit (text ++ ascii "\n"))

/-! ## Where the text ends -/

theorem padding_eq_zero_iff (n : Nat) : 512 * blocks n - n = 0 ↔ n % 512 = 0 := by
  unfold blocks
  omega

theorem cstr_content_iff (clean : 0 ∉ content) :
    cstr (paddedContent content ++ image rest) = .ok content ↔
      content.length % 512 ≠ 0 ∨ rest = [] := by
  rw [cstr_eq_ok]
  unfold paddedContent
  constructor
  · rintro ⟨-, after, bytes⟩
    rw [List.append_assoc, List.append_cancel_left_eq] at bytes
    by_contra torn
    rw [not_or, not_not] at torn
    obtain ⟨whole, more⟩ := torn
    rw [(padding_eq_zero_iff _).mpr whole, List.replicate_zero, List.nil_append] at bytes
    obtain ⟨e, later, rfl⟩ := List.exists_cons_of_ne_nil more
    have head := congrArg List.head? bytes
    rw [image_cons, List.head?_cons] at head
    apply e.nonblank
    cases name : e.header.name.val with
    | nil =>
        have length := Field.length_val e.header.name
        rw [name] at length
        cases length
    | cons c name' => simpa [Entry.bytes, TarHeader.bytes, name] using head
  · intro ends
    refine ⟨clean, ?_⟩
    cases padding : 512 * blocks content.length - content.length with
    | succ k => exact ⟨List.replicate k 0 ++ image rest, by simp [List.replicate_succ]⟩
    | zero =>
        obtain rfl := ends.resolve_left (not_not.mpr ((padding_eq_zero_iff _).mp padding))
        exact ⟨List.replicate 1023 0, by simp only [image, List.flatMap_nil, List.replicate_zero,
          List.append_nil, List.nil_append, ← List.replicate_succ]⟩

/-- A zero byte is near: in the size of the next header, or in the end blocks. -/
theorem image_zero (rest : List Entry) : 0 ∈ (image rest).take 512 := by
  cases rest with
  | nil =>
      have zeros : image [] = List.replicate 1024 0 := rfl
      rw [zeros, List.take_replicate]
      exact List.mem_replicate.mpr ⟨by decide, rfl⟩
  | cons e rest =>
      have size : 0 ∈ e.header.size.val := by
        obtain ⟨digits, after, field, -⟩ := e.sized
        rw [field]
        exact List.mem_append_right _ List.mem_cons_self
      have header : 0 ∈ e.header.bytes := by
        apply List.mem_of_mem_drop (i := sizeField)
        rw [TarHeader.bytes_drop_size]
        exact List.mem_append_left _ size
      rw [image_cons, Entry.bytes, List.append_assoc, List.take_left' e.header.length_bytes]
      exact header

theorem cstr_lt {front more : List UInt8} (zero : 0 ∈ front) (read : cstr (front ++ more) = .ok text) :
    text.length < front.length := by
  obtain ⟨clean, after, bytes⟩ := cstr_eq_ok.mp read
  by_contra long
  have inside : front <+: text :=
    List.prefix_of_prefix_length_le ⟨more, bytes⟩ (List.prefix_append _ _) (Nat.le_of_not_lt long)
  exact clean (inside.subset zero)

theorem cstr_content_lt (read : cstr (paddedContent content ++ image rest) = .ok text) :
    text.length < 512 * blocks content.length + 512 := by
  have split : paddedContent content ++ image rest =
      (paddedContent content ++ (image rest).take 512) ++ (image rest).drop 512 := by
    rw [List.append_assoc, List.take_append_drop]
  rw [split] at read
  refine Nat.lt_of_lt_of_le (cstr_lt (List.mem_append_right _ (image_zero rest)) read) ?_
  have padded : (paddedContent content).length = 512 * blocks content.length := by
    unfold paddedContent blocks
    rw [List.length_append, List.length_replicate]
    omega
  rw [List.length_append, padded, List.length_take]
  omega

/-! ## What the last print sends out -/

theorem printMessage_emits {data : Nat} (pointer : msg.data = some data)
    (read : cstr (ramfs.memory.drop data) = .ok text) (tty : Tty) :
    printMessage ramfs msg tty = some (.ok (), tty.emit (shown (counted text ++ ascii "\n"))) := by
  have target : use msg.data tty = some (.ok data, tty) := by rw [pointer]; rfl
  have answer : finish (some (cstr (ramfs.memory.drop data))) tty = some (.ok text, tty) := by
    rw [read]
    rfl
  unfold printMessage
  rw [bind_run_ok target, bind_run_ok answer, print, printf_eq (npfVpprintf_string_line text)]
  rfl

theorem printMessage_text (run : printMessage ramfs msg tty = some (.ok (), tty')) :
    ∃ data text, msg.data = some data ∧ cstr (ramfs.memory.drop data) = .ok text ∧
      tty' = tty.emit (shown (counted text ++ ascii "\n")) := by
  cases pointer : msg.data with
  | none =>
      have target : use msg.data tty = some (.error (.fault .nullPointer), tty) := by
        rw [pointer]
        rfl
      rw [printMessage, bind_run_error target] at run
      cases run
  | some data =>
      have target : use msg.data tty = some (.ok data, tty) := by rw [pointer]; rfl
      cases read : cstr (ramfs.memory.drop data) with
      | error e =>
          have answer : finish (some (cstr (ramfs.memory.drop data))) tty =
              some (.error (.fault e), tty) := by
            rw [read]
            rfl
          rw [printMessage, bind_run_ok target, bind_run_error answer] at run
          cases run
      | ok text =>
          rw [printMessage_emits pointer read] at run
          exact ⟨data, text, rfl, read, (Prod.mk.inj (Option.some.inj run)).2.symm⟩

/-! ## When the message is printed exactly -/

theorem setup_answer (checked : Checked flantermFbInit data framebuffer ramfs)
    (present : data.info = some info) {result : BootFile × File}
    (run : setup flantermFbInit fuel (some data) tty = some (.ok result, tty')) :
    result.1 = ramfs ∧ Returns ramfs.memory ramfs.size (welcomePath.stored []) result.2 := by
  cases looked : messageLookup fuel ramfs with
  | none =>
      rw [setup_unanswered checked present looked tty] at run
      cases run
  | some answer =>
      cases answer with
      | error e =>
          obtain ⟨last, fault⟩ := setup_lookupFault checked present looked tty
          rw [fault] at run
          cases run
      | ok answer =>
          obtain ⟨msg, calls⟩ := answer
          obtain ⟨last, ends⟩ := setup_ends checked present looked tty
          rw [ends] at run
          cases run
          exact ⟨rfl, fuel, calls, looked⟩

theorem start_of_setup (run : setup flantermFbInit fuel (some data) tty =
    some (.ok (ramfs, msg), tty')) :
    start flantermFbInit fuel (some data) tty = printMessage ramfs msg tty' :=
  bind_run_ok run

/-- The first header of the walk with the name of the message is followed by `text` and a NUL. -/
def HasText (ramfs : BootFile) (text : List UInt8) : Prop :=
  ∃ ptr, FoundAt ramfs.memory ramfs.size welcomePath ptr ∧
    cstr (ramfs.memory.drop (ptr + 512)) = .ok text

theorem shown_line (fits : text.length ≤ 1022) : shown (text ++ ascii "\n") = text ++ ascii "\n" := by
  have newline : (ascii "\n").length = 1 := by decide
  apply shown_whole
  rw [List.length_append, newline, bufferSize]
  omega

theorem length_counted_lt (string : List UInt8) : (counted string).length < 2 ^ 31 := by
  have bound := (Int32.ofNat string.length).toInt_lt
  rw [counted, List.length_take]
  unfold Int32.toNatClampNeg
  omega

theorem HasText.printsMessage (has : HasText ramfs string) (count : counted string = text)
    (fits : text.length ≤ 1022) : PrintsMessage ramfs text := by
  intro flantermFbInit data framebuffer info checked present
  obtain ⟨ptr, found, read⟩ := has
  obtain ⟨s, t, fuel, calls, looked⟩ := found.returns []
  refine ⟨fuel, fun tty => ?_⟩
  obtain ⟨before, run⟩ := setup_ends checked present looked tty
  refine ⟨_, before, run, ?_⟩
  rw [start_of_setup run, printMessage_emits rfl read, count, shown_line fits]

theorem PrintsMessage.hasText (prints : PrintsMessage ramfs text) :
    text.length ≤ 1022 ∧ ∃ string, HasText ramfs string ∧ counted string = text := by
  have checked : Checked (fun _ => true) { emptyRamfsBoot with ramfs := some ramfs } screen ramfs :=
    ⟨rfl, by decide, rfl, rfl, rfl⟩
  obtain ⟨fuel, runs⟩ := prints _ _ _ _ checked rfl
  obtain ⟨msg, before, run, whole⟩ := runs {}
  obtain ⟨-, returned⟩ := setup_answer checked rfl run
  rw [start_of_setup run] at whole
  obtain ⟨data, string, pointer, read, emitted⟩ := printMessage_text whole
  obtain ⟨ptr, found, rfl⟩ := returned.data_iff.mp pointer
  have newline : (ascii "\n").length = 1 := by decide
  have nonempty : text ++ ascii "\n" ≠ [] := by simp [ascii]
  have sent := (emit_injective emitted).symm
  have short : (counted string ++ ascii "\n").length < 2 ^ 32 := by
    have few := length_counted_lt string
    rw [List.length_append, newline]
    omega
  have same := shown_eq_whole sent nonempty short
  obtain ⟨fits, -⟩ := shown_eq sent nonempty
  rw [List.append_cancel_right_eq] at same
  rw [List.length_append, newline, bufferSize] at fits
  exact ⟨by omega, string, ⟨ptr, found, read⟩, same⟩

theorem printsMessage_iff (ramfs : BootFile) (text : List UInt8) :
    PrintsMessage ramfs text ↔
      text.length ≤ 1022 ∧ ∃ string, HasText ramfs string ∧ counted string = text := by
  constructor
  · exact PrintsMessage.hasText
  · rintro ⟨fits, string, has, count⟩
    exact has.printsMessage count fits

theorem CountsMessage.counted_iff (counts : CountsMessage ramfs) :
    (∃ string, HasText ramfs string ∧ counted string = text) ↔ HasText ramfs text := by
  have whole {string : List UInt8} (has : HasText ramfs string) : counted string = string := by
    obtain ⟨ptr, found, read⟩ := has
    exact counted_eq (counts ptr string found read)
  constructor
  · rintro ⟨string, has, rfl⟩
    rwa [whole has]
  · exact fun has => ⟨text, has, whole has⟩

namespace WelcomeImage
variable {w : WelcomeImage}

theorem returns (reachable : w.Reachable) :
    Returns w.file.memory w.file.size (welcomePath.stored [])
      (foundFile (offsetBehind w.before) w.message.content.length.toUInt32
        w.message.header.typeflag) := by
  have passable : ∀ b ∈ w.before, b.Passable welcomePath := by
    intro b member
    exact ⟨reachable b member, Or.inr (b.field_apart (by decide))⟩
  exact returns_entry [] passable w.first (Or.inr (w.message.field_apart (by decide))) w.named

theorem hasText_iff (reachable : w.Reachable) :
    HasText w.file text ↔ cstr (paddedContent w.message.content ++ image w.rest) = .ok text := by
  have returned := returns reachable
  have drop : w.file.memory.drop (offsetBehind w.before + 512) =
      paddedContent w.message.content ++ image w.rest :=
    image_content w.before w.rest w.message
  rw [← drop]
  constructor
  · rintro ⟨ptr, found, read⟩
    have here := returned.data_iff.mpr ⟨ptr, found, rfl⟩
    rwa [← Option.some.inj here] at read
  · intro read
    obtain ⟨ptr, found, place⟩ := returned.data_iff.mp rfl
    refine ⟨ptr, found, ?_⟩
    rw [← place]
    exact read

theorem printed_iff (reachable : w.Reachable) :
    PrintsMessage w.file w.message.content ↔
      w.message.content.length ≤ 1022 ∧ (w.message.content.length % 512 ≠ 0 ∨ w.rest = []) := by
  rw [printsMessage_iff]
  refine and_congr_right fun fits => ?_
  rw [← cstr_content_iff w.text]
  constructor
  · rintro ⟨string, has, count⟩
    have read := (hasText_iff reachable).mp has
    have few := cstr_content_lt read
    unfold blocks at few
    have whole : string = w.message.content := (counted_eq (by omega)).symm.trans count
    rwa [whole] at read
  · intro read
    exact ⟨_, (hasText_iff reachable).mpr read, counted_eq (Nat.lt_of_le_of_lt fits (by decide))⟩

end WelcomeImage

/-- The message is printed exactly when it fits the printing buffer with its newline and NUL and is
what `%s` counts off the string behind its header. In an image whose walk comes as far as the message
that takes a zero byte behind the content: padding, or the end of the image. -/
theorem message_printed (w : WelcomeImage) :
    (PrintsMessage w.file w.message.content ↔
      w.message.content.length ≤ 1022 ∧
        ∃ string, HasText w.file string ∧ counted string = w.message.content) ∧
    (CountsMessage w.file → (PrintsMessage w.file w.message.content ↔
      w.message.content.length ≤ 1022 ∧ HasText w.file w.message.content)) ∧
    (w.Reachable → (PrintsMessage w.file w.message.content ↔
      w.message.content.length ≤ 1022 ∧
        (w.message.content.length % 512 ≠ 0 ∨ w.rest = []))) := by
  have exactly := printsMessage_iff w.file w.message.content
  refine ⟨exactly, fun counts => ?_, WelcomeImage.printed_iff⟩
  rw [exactly, counts.counted_iff]

def emptyWelcome : WelcomeImage where
  before := []
  message := Member.toEntry
    { prefixedMember with
      name := welcomePath.chars
      pathPrefix := []
      name_pos := by decide
      name_le := by decide
      name_nonzero := by decide
      pathPrefix_le := by decide
      pathPrefix_nonzero := by decide }
  rest := [prefixedMember.toEntry]
  named := Member.name_toEntry _
  first := by simp
  text := List.not_mem_nil

theorem emptyWelcome_misprinted : ¬ PrintsMessage emptyWelcome.file [] := by
  intro prints
  have reachable : emptyWelcome.Reachable := by simp [WelcomeImage.Reachable, emptyWelcome]
  rcases ((WelcomeImage.printed_iff reachable).mp prints).2 with padded | last
  · exact padded rfl
  · cases last

end Sphynx

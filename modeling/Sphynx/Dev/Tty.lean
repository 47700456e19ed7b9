import Sphynx.External.Nanoprintf

namespace Sphynx.Dev
open External

/-! ## Configuration (`config.hpp`) -/

def sphynxMirrorPrintf : Bool := true
def sphynxVerbose : Bool := true
def sphynxDebug : Bool := true

/-! ## The two sinks -/

/-- What the kernel has printed: the bytes given to `flanterm_write`, and those sent to the debug
port `0xE9`. -/
structure Tty where
  terminal : List UInt8 := []
  debugPort : List UInt8 := []
deriving DecidableEq, Inhabited, Repr

namespace Tty

def putc (tty : Tty) (ch : UInt8) : Tty := { tty with terminal := tty.terminal ++ [ch] }

def dputc (tty : Tty) (ch : UInt8) : Tty := { tty with debugPort := tty.debugPort ++ [ch] }

def mirrorc (tty : Tty) (ch : UInt8) : Tty :=
  (if sphynxMirrorPrintf then tty.dputc ch else tty).putc ch

end Tty

def bufferSize : Nat := 1024

/-- The body `kprintf`, `kdprintf` and `vprintf` share: format into the stack buffer, give up when
the text did not fit, else send the buffer out byte by byte with `put`. -/
def printWith (put : Tty → UInt8 → Tty) (fmt : List UInt8) (args : List Arg) (tty : Tty) :
    Option (Int32 × Tty) :=
  (npfVsnprintf bufferSize fmt args).map fun (length, buffer) =>
    if length < 0 ∨ length ≥ .ofNat bufferSize then (-1, tty)
    else (length, (buffer.take length.toNatClampNeg).foldl put tty)

def kprintf : List UInt8 → List Arg → Tty → Option (Int32 × Tty) := printWith Tty.putc

def kdprintf : List UInt8 → List Arg → Tty → Option (Int32 × Tty) := printWith Tty.dputc

def vprintf (fmt : List UInt8) (args : List Arg) (tty : Tty) : Option Tty :=
  (printWith Tty.mirrorc fmt args tty).map Prod.snd

def kmprintf (fmt : List UInt8) (args : List Arg) (tty : Tty) : Option Tty := do
  let (_, tty) ← kprintf fmt args tty
  let (_, tty) ← kdprintf fmt args tty
  return tty

def printf (fmt : List UInt8) (args : List Arg) (tty : Tty) : Option Tty :=
  if sphynxMirrorPrintf then kmprintf fmt args tty else (kprintf fmt args tty).map Prod.snd

def dprintf (fmt : List UInt8) (args : List Arg) (tty : Tty) : Option Tty :=
  if sphynxVerbose then kmprintf fmt args tty else (kdprintf fmt args tty).map Prod.snd

/-! ## `Logger` -/

inductive Level where
  | debug
  | info
  | ok
  | warn
  | error
deriving DecidableEq, Repr

def Level.rank : Level → Nat
  | .debug => 0
  | .info => 1
  | .ok => 2
  | .warn => 3
  | .error => 4

def Level.color : Level → List UInt8
  | .info => ascii "\x1b[38;2;129;161;193m"
  | .ok => ascii "\x1b[38;2;163;190;140m"
  | .warn => ascii "\x1b[38;2;235;203;139m"
  | .error => ascii "\x1b[38;2;191;97;106m"
  | .debug => ascii "\x1b[38;2;94;129;172m"

def Level.kind : Level → List UInt8
  | .info => ascii "INFO"
  | .ok => ascii "OK"
  | .warn => ascii "WARN"
  | .error => ascii "ERROR"
  | .debug => ascii "DEBUG"

structure Logger where
  name : List UInt8
  level : Level := .info
deriving DecidableEq, Repr

def Logger.setLevel (logger : Logger) (lvl : Level) : Logger := { logger with level := lvl }

structure LogCall where
  lvl : Level
  fmt : List UInt8
  args : List Arg := []
deriving DecidableEq, Repr

def Logger.log (logger : Logger) (call : LogCall) (tty : Tty) : Option Tty :=
  if call.lvl.rank < logger.level.rank then some tty else do
    let tty ← printf (ascii "%s[%-6s] [%-10s] ")
      [.str call.lvl.color, .str call.lvl.kind, .str logger.name] tty
    let tty ← vprintf call.fmt call.args tty
    printf (ascii "\x1b[0m") [] tty

def Logger.logAll (logger : Logger) (calls : List LogCall) (tty : Tty) : Option Tty :=
  calls.foldlM (fun tty call => logger.log call tty) tty

/-! The five methods named after levels hand their `va_list` to `log` as a variadic argument: one
pointer, whatever the caller's arguments are. -/

/-- A pointer as a variadic argument: its value, and what a `%s` would read through it. -/
structure Pointer where
  address : UInt64
  text : List UInt8
deriving DecidableEq, Repr

def Pointer.arg (p : Pointer) (fmt : List UInt8) : Arg :=
  if (npfVpprintf fmt [.word p.address]).isSome then .word p.address else .str p.text

namespace Logger
variable (logger : Logger) (fmt : List UInt8) (args : List Arg) (vaList : Pointer)

def forward (lvl : Level) (fmt : List UInt8) (_args : List Arg) (vaList : Pointer) :
    Tty → Option Tty :=
  logger.log ⟨lvl, fmt, [vaList.arg fmt]⟩

def info : Tty → Option Tty := logger.forward .info fmt args vaList

def ok : Tty → Option Tty := logger.forward .ok fmt args vaList

def warn : Tty → Option Tty := logger.forward .warn fmt args vaList

def error : Tty → Option Tty := logger.forward .error fmt args vaList

def debug : Tty → Option Tty := logger.forward .debug fmt args vaList

def method : Level → Tty → Option Tty
  | .debug => logger.debug fmt args vaList
  | .info => logger.info fmt args vaList
  | .ok => logger.ok fmt args vaList
  | .warn => logger.warn fmt args vaList
  | .error => logger.error fmt args vaList

end Logger

/-! ## What a formatting call sends out -/

/-- The part of a formatted text that a printing function sends out: as much as its 32-bit count
says when that fits the buffer with its NUL, else nothing. -/
def shown (text : List UInt8) : List UInt8 :=
  if text.length % 2 ^ 32 < bufferSize then text.take (text.length % 2 ^ 32) else []

theorem shown_of_lt {text : List UInt8} (short : text.length < 2 ^ 32) :
    shown text = if text.length < bufferSize then text else [] := by
  rw [shown, Nat.mod_eq_of_lt short, List.take_length]

theorem shown_whole {text : List UInt8} (fits : text.length < bufferSize) : shown text = text := by
  rw [shown_of_lt (Nat.lt_trans fits (by decide)), if_pos fits]

/-- The count is in bounds as an `int` exactly when it is modulo 2^32. -/
theorem count_in_bounds (n : Nat) :
    ¬ (Int32.ofNat n < 0 ∨ Int32.ofNat n ≥ .ofNat bufferSize) ↔ n % 2 ^ 32 < bufferSize := by
  have count : (Int32.ofNat n).toInt = (n : Int).bmod (2 ^ 32) := Int32.toInt_ofNat'
  have zero : (0 : Int32).toInt = 0 := by decide
  have size : (Int32.ofNat bufferSize).toInt = 1024 := by decide
  rw [ge_iff_le, Int32.lt_iff_toInt_lt, Int32.le_iff_toInt_le, count, zero, size, Int.bmod_def,
    bufferSize]
  omega

theorem count_eq {n : Nat} (fits : n % 2 ^ 32 < bufferSize) :
    (Int32.ofNat n).toNatClampNeg = n % 2 ^ 32 := by
  have count : (Int32.ofNat n).toInt = (n : Int).bmod (2 ^ 32) := Int32.toInt_ofNat'
  rw [bufferSize] at fits
  rw [← Int32.toNat_toInt, count, Int.bmod_def]
  omega

theorem foldl_putc (text : List UInt8) (tty : Tty) :
    text.foldl Tty.putc tty = { tty with terminal := tty.terminal ++ text } := by
  induction text generalizing tty with
  | nil => simp
  | cons c text ih => simp [ih, Tty.putc]

theorem foldl_dputc (text : List UInt8) (tty : Tty) :
    text.foldl Tty.dputc tty = { tty with debugPort := tty.debugPort ++ text } := by
  induction text generalizing tty with
  | nil => simp
  | cons c text ih => simp [ih, Tty.dputc]

theorem foldl_mirrorc (text : List UInt8) (tty : Tty) :
    text.foldl Tty.mirrorc tty =
      { terminal := tty.terminal ++ text, debugPort := tty.debugPort ++ text } := by
  induction text generalizing tty with
  | nil => simp
  | cons c text ih => simp [ih, Tty.mirrorc, Tty.putc, Tty.dputc, sphynxMirrorPrintf]

theorem printWith_eq (put : Tty → UInt8 → Tty) {fmt : List UInt8} {args : List Arg}
    {text : List UInt8} (formatted : npfVpprintf fmt args = some text) (tty : Tty) :
    (printWith put fmt args tty).map Prod.snd = some ((shown text).foldl put tty) := by
  simp only [printWith, npfVsnprintf, formatted, Option.map_some, shown]
  by_cases fits : text.length % 2 ^ 32 < bufferSize
  · have kept : (text.take (bufferSize - 1)).take (text.length % 2 ^ 32) =
        text.take (text.length % 2 ^ 32) := by
      rw [List.take_take, Nat.min_eq_left (Nat.le_sub_one_of_lt fits)]
    rw [if_neg ((count_in_bounds text.length).mpr fits), if_pos fits, count_eq fits, kept]
  · have full := not_not.mp (mt (count_in_bounds text.length).mp fits)
    rw [if_pos full, if_neg fits]
    rfl

def Tty.emit (tty : Tty) (text : List UInt8) : Tty :=
  { terminal := tty.terminal ++ text, debugPort := tty.debugPort ++ text }

theorem Tty.emit_append (tty : Tty) (text more : List UInt8) :
    (tty.emit text).emit more = tty.emit (text ++ more) := by
  simp [Tty.emit]

theorem kmprintf_eq {fmt : List UInt8} {args : List Arg} {text : List UInt8}
    (formatted : npfVpprintf fmt args = some text) (tty : Tty) :
    kmprintf fmt args tty = some (tty.emit (shown text)) := by
  have first := printWith_eq Tty.putc formatted tty
  obtain ⟨⟨_, middle⟩, run, rfl⟩ := Option.map_eq_some_iff.mp first
  have second := printWith_eq Tty.dputc formatted ((shown text).foldl Tty.putc tty)
  obtain ⟨⟨_, last⟩, run', rfl⟩ := Option.map_eq_some_iff.mp second
  simp only [kmprintf, kprintf, kdprintf, bind, Option.bind, pure, run]
  rw [run']
  simp [foldl_putc, foldl_dputc, Tty.emit]

theorem printf_eq {fmt : List UInt8} {args : List Arg} {text : List UInt8}
    (formatted : npfVpprintf fmt args = some text) (tty : Tty) :
    printf fmt args tty = some (tty.emit (shown text)) :=
  kmprintf_eq formatted tty

theorem vprintf_eq {fmt : List UInt8} {args : List Arg} {text : List UInt8}
    (formatted : npfVpprintf fmt args = some text) (tty : Tty) :
    vprintf fmt args tty = some (tty.emit (shown text)) := by
  rw [vprintf, printWith_eq Tty.mirrorc formatted, foldl_mirrorc]
  rfl

theorem shown_eq {formatted text : List UInt8} (h : shown formatted = text) (nonempty : text ≠ []) :
    text.length < bufferSize ∧ formatted.length % 2 ^ 32 = text.length ∧ text <+: formatted := by
  unfold shown at h
  split_ifs at h with fits
  · have few : formatted.length % 2 ^ 32 ≤ formatted.length := Nat.mod_le _ _
    have length : text.length = formatted.length % 2 ^ 32 := by
      rw [← h, List.length_take, Nat.min_eq_left few]
    exact ⟨length ▸ fits, length.symm, h ▸ List.take_prefix _ _⟩
  · exact absurd h.symm nonempty

theorem shown_eq_whole {formatted text : List UInt8} (h : shown formatted = text)
    (nonempty : text ≠ []) (short : formatted.length < 2 ^ 32) : formatted = text := by
  obtain ⟨-, length, front⟩ := shown_eq h nonempty
  rw [Nat.mod_eq_of_lt short] at length
  exact (front.eq_of_length length.symm).symm

theorem emit_injective {tty : Tty} {text more : List UInt8} (h : tty.emit text = tty.emit more) :
    text = more := by
  have terminal := congrArg Tty.terminal h
  exact List.append_cancel_left terminal

/-! ## What logging sends out -/

def LogCall.Matched (call : LogCall) : Prop := (npfVpprintf call.fmt call.args).isSome

instance (call : LogCall) : Decidable call.Matched := inferInstanceAs (Decidable (_ = true))

theorem header_matched (lvl : Level) (name : List UInt8) :
    (npfVpprintf (ascii "%s[%-6s] [%-10s] ") [.str lvl.color, .str lvl.kind, .str name]).isSome := by
  have kinds := npfVpprintf_kinds (ascii "%s[%-6s] [%-10s] ")
    [.str lvl.color, .str lvl.kind, .str name] [.str [], .str [], .str []] rfl
  rw [kinds]
  decide

theorem Logger.log_quiet {logger : Logger} {call : LogCall}
    (quiet : call.lvl.rank < logger.level.rank) (tty : Tty) : logger.log call tty = some tty :=
  if_pos quiet

def Logger.header (logger : Logger) (lvl : Level) : List UInt8 :=
  (npfVpprintf (ascii "%s[%-6s] [%-10s] ")
    [.str lvl.color, .str lvl.kind, .str logger.name]).getD []

theorem Logger.header_eq (logger : Logger) (lvl : Level) :
    npfVpprintf (ascii "%s[%-6s] [%-10s] ") [.str lvl.color, .str lvl.kind, .str logger.name] =
      some (logger.header lvl) := by
  obtain ⟨header, formatted⟩ := Option.isSome_iff_exists.mp (header_matched lvl logger.name)
  rw [Logger.header, formatted]
  rfl

theorem reset_eq : npfVpprintf (ascii "\x1b[0m") [] = some (ascii "\x1b[0m") := by decide

theorem Logger.log_eq {logger : Logger} {call : LogCall} {text : List UInt8}
    (loud : ¬ call.lvl.rank < logger.level.rank)
    (formatted : npfVpprintf call.fmt call.args = some text) (tty : Tty) :
    logger.log call tty =
      some (tty.emit (shown (logger.header call.lvl) ++ shown text ++ shown (ascii "\x1b[0m"))) := by
  simp only [Logger.log, if_neg loud, bind, Option.bind, printf_eq (logger.header_eq call.lvl),
    vprintf_eq formatted, printf_eq reset_eq, Tty.emit_append, List.append_assoc]

theorem Logger.log_emits (logger : Logger) {call : LogCall} (matched : call.Matched) :
    ∃ text, ∀ tty, logger.log call tty = some (tty.emit text) := by
  obtain ⟨text, formatted⟩ := Option.isSome_iff_exists.mp matched
  by_cases quiet : call.lvl.rank < logger.level.rank
  · refine ⟨[], fun tty => ?_⟩
    rw [Logger.log_quiet quiet]
    simp [Tty.emit]
  · exact ⟨_, Logger.log_eq quiet formatted⟩

theorem Logger.logAll_emits (logger : Logger) {calls : List LogCall}
    (matched : ∀ call ∈ calls, call.Matched) :
    ∃ text, ∀ tty, logger.logAll calls tty = some (tty.emit text) := by
  induction calls with
  | nil => exact ⟨[], fun tty => by simp [Logger.logAll, Tty.emit]⟩
  | cons call calls ih =>
      obtain ⟨text, first⟩ := logger.log_emits (matched call (by simp))
      obtain ⟨more, later⟩ := ih fun call member => matched call (by simp [member])
      refine ⟨text ++ more, fun tty => ?_⟩
      unfold Logger.logAll at later ⊢
      rw [List.foldlM_cons, first]
      simp only [bind, Option.bind, later, Tty.emit_append]

end Sphynx.Dev

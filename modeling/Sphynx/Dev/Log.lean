import Sphynx.Dev.Tty
import Sphynx.External.FormatPieces

/-!
# The log on the two sinks

What runs of printing calls send to the terminal and to the debug port, and how the level-named
methods of `Logger` compare with `log`.
-/

namespace Sphynx.Dev
open External

/-! ## Runs of printing calls -/

inductive PrintCall where
  | printf (fmt : List UInt8) (args : List Arg)
  | kmprintf (fmt : List UInt8) (args : List Arg)
  | dprintf (fmt : List UInt8) (args : List Arg)
  | vprintf (fmt : List UInt8) (args : List Arg)
  | log (logger : Logger) (call : LogCall)
deriving DecidableEq, Repr

namespace PrintCall

def run : PrintCall → Tty → Option Tty
  | .printf fmt args => Dev.printf fmt args
  | .kmprintf fmt args => Dev.kmprintf fmt args
  | .dprintf fmt args => Dev.dprintf fmt args
  | .vprintf fmt args => Dev.vprintf fmt args
  | .log logger call => logger.log call

/-- Arguments fit their formats; of a log call below its logger's threshold nothing is asked. -/
def Matched : PrintCall → Prop
  | .printf fmt args | .kmprintf fmt args | .dprintf fmt args | .vprintf fmt args =>
      (npfVpprintf fmt args).isSome
  | .log logger call => call.lvl.rank < logger.level.rank ∨ call.Matched

/-- The formatting calls that a printing call makes, each once for both sinks. -/
def formats : PrintCall → List (List UInt8 × List Arg)
  | .printf fmt args | .kmprintf fmt args | .dprintf fmt args | .vprintf fmt args => [(fmt, args)]
  | .log logger call =>
      if call.lvl.rank < logger.level.rank then []
      else [ (ascii "%s[%-6s] [%-10s] ",
                [.str call.lvl.color, .str call.lvl.kind, .str logger.name]),
             (call.fmt, call.args), (ascii "\x1b[0m", []) ]

end PrintCall

def runCalls (calls : List PrintCall) (tty : Tty) : Option Tty :=
  calls.foldlM (fun tty call => call.run tty) tty

/-- What a formatting call sends out. -/
def contribution (format : List UInt8 × List Arg) : List UInt8 :=
  match npfVpprintf format.1 format.2 with
  | some text => shown text
  | none => []

variable {call : PrintCall} {calls : List PrintCall} {fmt text : List UInt8} {args : List Arg}

theorem contribution_eq (formatted : npfVpprintf fmt args = some text) :
    contribution (fmt, args) = shown text := by
  rw [contribution, formatted]

theorem PrintCall.run_eq (matched : call.Matched) (tty : Tty) :
    call.run tty = some (tty.emit (call.formats.flatMap contribution)) := by
  have single (fmt : List UInt8) (args : List Arg) (matched : (npfVpprintf fmt args).isSome)
      {run : Option Tty}
      (sends : ∀ text, npfVpprintf fmt args = some text → run = some (tty.emit (shown text))) :
      run = some (tty.emit ([(fmt, args)].flatMap contribution)) := by
    obtain ⟨text, formatted⟩ := Option.isSome_iff_exists.mp matched
    rw [List.flatMap_singleton, contribution_eq formatted]
    exact sends text formatted
  cases call with
  | printf fmt args => exact single fmt args matched fun _ formatted => printf_eq formatted tty
  | kmprintf fmt args => exact single fmt args matched fun _ formatted => kmprintf_eq formatted tty
  | dprintf fmt args => exact single fmt args matched fun _ formatted => kmprintf_eq formatted tty
  | vprintf fmt args => exact single fmt args matched fun _ formatted => vprintf_eq formatted tty
  | log logger call =>
      change logger.log call tty = _
      by_cases quiet : call.lvl.rank < logger.level.rank
      · rw [Logger.log_quiet quiet, formats, if_pos quiet]
        simp [Tty.emit]
      · obtain ⟨text, formatted⟩ := Option.isSome_iff_exists.mp (matched.resolve_left quiet)
        rw [Logger.log_eq quiet formatted, formats, if_neg quiet]
        simp only [List.flatMap_cons, List.flatMap_nil, List.append_nil,
          contribution_eq (logger.header_eq call.lvl), contribution_eq formatted,
          contribution_eq reset_eq, List.append_assoc]

theorem runCalls_eq (matched : ∀ call ∈ calls, call.Matched) (tty : Tty) :
    runCalls calls tty =
      some (tty.emit ((calls.flatMap PrintCall.formats).flatMap contribution)) := by
  induction calls generalizing tty with
  | nil => simp [runCalls, Tty.emit]
  | cons call calls ih =>
      have first := call.run_eq (matched call List.mem_cons_self) tty
      have later := ih (fun call member => matched call (List.mem_cons_of_mem _ member))
      unfold runCalls at later ⊢
      rw [List.foldlM_cons, first]
      simp only [bind, Option.bind, later, Tty.emit_append, List.flatMap_cons, List.flatMap_append]

theorem PrintCall.formats_matched (matched : call.Matched) :
    ∀ format ∈ call.formats, ∃ text, npfVpprintf format.1 format.2 = some text := by
  cases call with
  | log logger call =>
      intro format member
      by_cases quiet : call.lvl.rank < logger.level.rank
      · rw [formats, if_pos quiet] at member
        contradiction
      · obtain ⟨text, formatted⟩ := Option.isSome_iff_exists.mp (matched.resolve_left quiet)
        rw [formats, if_neg quiet] at member
        simp only [List.mem_cons, List.not_mem_nil, or_false] at member
        rcases member with rfl | rfl | rfl
        · exact ⟨_, logger.header_eq call.lvl⟩
        · exact ⟨text, formatted⟩
        · exact ⟨_, reset_eq⟩
  | _ fmt args =>
      intro format member
      obtain rfl := List.mem_singleton.mp member
      exact Option.isSome_iff_exists.mp matched

theorem sinks_agree (calls : List PrintCall) (matched : ∀ call ∈ calls, call.Matched) :
    ∃ tty, runCalls calls {} = some tty ∧ tty.terminal = tty.debugPort ∧
      tty.terminal = (calls.flatMap PrintCall.formats).flatMap contribution ∧
      ∀ format ∈ calls.flatMap PrintCall.formats, ∃ text,
        npfVpprintf format.1 format.2 = some text ∧
        (text.length < 2 ^ 32 → contribution format = if text.length ≤ 1023 then text else []) := by
  refine ⟨_, runCalls_eq matched {}, rfl, List.nil_append _, ?_⟩
  intro format member
  obtain ⟨call, called, made⟩ := List.mem_flatMap.mp member
  obtain ⟨text, formatted⟩ := call.formats_matched (matched call called) format made
  refine ⟨text, formatted, fun counted => ?_⟩
  have fits : text.length ≤ 1023 ↔ text.length < bufferSize := Nat.lt_succ_iff.symm
  rw [contribution_eq formatted, shown_of_lt counted]
  simp only [fits]

theorem sinks_agree_welcome :
    ∃ tty, runCalls [.printf (ascii "%s\n") [.str (ascii "hi")],
      .log { name := ascii "Main" } ⟨.debug, ascii "%d", []⟩] {} = some tty ∧
      tty.terminal = tty.debugPort := by
  have matched : ∀ call ∈ [PrintCall.printf (ascii "%s\n") [.str (ascii "hi")],
      .log { name := ascii "Main" } ⟨.debug, ascii "%d", []⟩], call.Matched := by
    intro call member
    simp only [List.mem_cons, List.not_mem_nil, or_false] at member
    rcases member with rfl | rfl
    · exact Option.isSome_of_eq_some (npfVpprintf_string_line _)
    · exact Or.inl (by decide)
  obtain ⟨tty, run, same, -⟩ := sinks_agree _ matched
  exact ⟨tty, run, same⟩

/-! ## The methods named after levels -/

/-- The method for `lvl` and `log` do the same, for all arguments that match the format; `vaList`
is the pointer that the method passes on. -/
def Logger.AgreesWithLog (logger : Logger) (lvl : Level) (fmt : List UInt8) (vaList : Pointer) :
    Prop :=
  ∀ args, (npfVpprintf fmt args).isSome →
    ∀ tty, logger.method fmt args vaList lvl tty = logger.log ⟨lvl, fmt, args⟩ tty

def NeverShown (fmt : List UInt8) : Prop :=
  ∀ args text, npfVpprintf fmt args = some text → shown text = []

/-- Some text is so long that the `int` which counts it wraps around past 0. -/
def Overflows (fmt : List UInt8) : Prop :=
  ∃ args text, npfVpprintf fmt args = some text ∧ 2 ^ 32 ≤ text.length

/-- All texts have one length modulo 2^32, and the same characters up to it. -/
def FrontsAlike (fmt : List UInt8) : Prop :=
  ∃ front, front.length < bufferSize ∧ ∀ args text, npfVpprintf fmt args = some text →
    text.length % 2 ^ 32 = front.length ∧ front <+: text

theorem Logger.method_eq (logger : Logger) (lvl : Level) (fmt : List UInt8) (args : List Arg)
    (vaList : Pointer) :
    logger.method fmt args vaList lvl = logger.log ⟨lvl, fmt, [vaList.arg fmt]⟩ := by
  cases lvl <;> rfl

theorem Pointer.arg_matches (vaList : Pointer) (one : wanted (pieces fmt) ≤ 1) :
    ∃ text, npfVpprintf fmt [vaList.arg fmt] = some text := by
  rw [← Option.isSome_iff_exists]
  obtain ⟨args, text, printed⟩ := printPieces_exists (pieces fmt)
  obtain ⟨taken, rest, length, rfl, enough⟩ := printPieces_taken printed
  by_cases word : (npfVpprintf fmt [.word vaList.address]).isSome
  · rwa [arg, if_pos word]
  · rw [arg, if_neg word]
    rcases taken with _ | ⟨first, _ | ⟨_, _⟩⟩
    · rw [npfVpprintf_eq, ← List.nil_append [Arg.str vaList.text], enough]
      rfl
    · have single : (npfVpprintf fmt [first]).isSome := by
        rw [npfVpprintf_eq, ← List.append_nil [first], enough]
        rfl
      cases first with
      | word w =>
          rw [npfVpprintf_kinds fmt [.word w] [.word vaList.address] rfl] at single
          contradiction
      | str text => rwa [npfVpprintf_kinds fmt [.str text] [.str vaList.text] rfl] at single
    · simp only [List.length_cons] at length
      omega

theorem Logger.log_unmatched {logger : Logger} {lvl : Level} (loud : ¬ lvl.rank < logger.level.rank)
    (unmatched : npfVpprintf fmt args = none) (tty : Tty) :
    logger.log ⟨lvl, fmt, args⟩ tty = none := by
  have message (tty : Tty) : Dev.vprintf fmt args tty = none := by
    simp only [vprintf, printWith, npfVsnprintf, unmatched, Option.map_none]
  simp only [Logger.log, if_neg loud, bind, Option.bind, printf_eq (logger.header_eq lvl), message]

theorem Logger.method_eq_log_iff {logger : Logger} {lvl : Level} {vaList : Pointer}
    (loud : ¬ lvl.rank < logger.level.rank) (formatted : npfVpprintf fmt args = some text) :
    (∀ tty, logger.method fmt args vaList lvl tty = logger.log ⟨lvl, fmt, args⟩ tty) ↔
      ∃ text', npfVpprintf fmt [vaList.arg fmt] = some text' ∧ shown text' = shown text := by
  have sent {args : List Arg} {text : List UInt8} (formatted : npfVpprintf fmt args = some text)
      (tty : Tty) : logger.log ⟨lvl, fmt, args⟩ tty =
        some (tty.emit (shown (logger.header lvl) ++ shown text ++ shown (ascii "\x1b[0m"))) :=
    Logger.log_eq loud formatted tty
  rw [logger.method_eq]
  cases passed : npfVpprintf fmt [vaList.arg fmt] with
  | none =>
      constructor
      · intro same
        have left := Logger.log_unmatched loud passed {}
        rw [same, sent formatted] at left
        contradiction
      · rintro ⟨_, impossible, -⟩
        contradiction
  | some text' =>
      constructor
      · intro same
        have left := sent passed {}
        rw [same, sent formatted] at left
        have emitted := emit_injective (Option.some.inj left)
        refine ⟨text', rfl, ?_⟩
        exact (List.append_cancel_left (List.append_cancel_right emitted)).symm
      · rintro ⟨_, same, shown_same⟩ tty
        obtain rfl := Option.some.inj same
        rw [sent passed, sent formatted, shown_same]

/-! Which formats send the same out for all their arguments. -/

theorem wanted_le_one {arg : Arg} (formatted : npfVpprintf fmt [arg] = some text) :
    wanted (pieces fmt) ≤ 1 := by
  rw [npfVpprintf_eq] at formatted
  obtain ⟨taken, rest, length, split, -⟩ := printPieces_taken formatted
  have total := congrArg List.length split
  rw [List.length_append, List.length_singleton] at total
  omega

theorem FrontsAlike.shown_eq (alike : FrontsAlike fmt) :
    ∃ front, ∀ args text, npfVpprintf fmt args = some text → shown text = front := by
  obtain ⟨front, fits, begins⟩ := alike
  refine ⟨front, fun args text formatted => ?_⟩
  obtain ⟨length, begun⟩ := begins args text formatted
  rw [shown, length, if_pos fits]
  exact (List.prefix_iff_eq_take.mp begun).symm

theorem shown_of_silent (one : wanted (pieces fmt) ≤ 1)
    (silent : Ignores (pieces fmt) ∨ NeverShown fmt ∨ Overflows fmt ∧ FrontsAlike fmt)
    {args' : List Arg} {text' : List UInt8} (formatted : npfVpprintf fmt args = some text)
    (formatted' : npfVpprintf fmt args' = some text') : shown text' = shown text := by
  rcases silent with ignores | never | ⟨-, alike⟩
  · obtain ⟨fixed, always⟩ := printPieces_ignores one ignores
    rw [npfVpprintf_eq] at formatted formatted'
    rw [always _ _ formatted, always _ _ formatted']
  · rw [never _ _ formatted, never _ _ formatted']
  · obtain ⟨front, always⟩ := alike.shown_eq
    rw [always _ _ formatted, always _ _ formatted']

theorem silent_of_shown (one : wanted (pieces fmt) ≤ 1)
    (same : ∀ args text args' text', npfVpprintf fmt args = some text →
      npfVpprintf fmt args' = some text' → shown text' = shown text) :
    Ignores (pieces fmt) ∨ NeverShown fmt ∨ Overflows fmt ∧ FrontsAlike fmt := by
  by_cases ignores : Ignores (pieces fmt)
  · exact Or.inl ignores
  by_cases never : NeverShown fmt
  · exact Or.inr (Or.inl never)
  · right
    right
    have wanted_one : wanted (pieces fmt) = 1 := by
      by_contra none
      exact ignores fun fs member => Or.inl (wanted_eq_zero (by omega) member)
    simp only [NeverShown, not_forall] at never
    obtain ⟨args, text, formatted, seen⟩ := never
    have front (args' : List Arg) (text' : List UInt8) (formatted' : npfVpprintf fmt args' = some text') :=
      shown_eq (same args text args' text' formatted formatted') seen
    refine ⟨?_, shown text, (front args text formatted).1,
      fun args' text' formatted' => (front args' text' formatted').2⟩
    -- Were no text so long, each would be sent out whole, but the argument makes a difference.
    by_contra counted
    have whole (args' : List Arg) (text' : List UInt8) (formatted' : npfVpprintf fmt args' = some text') :
        text' = shown text := by
      have short : text'.length < 2 ^ 32 :=
        Nat.lt_of_not_le fun long => counted ⟨args', text', formatted', long⟩
      exact shown_eq_whole (same args text args' text' formatted formatted') seen short
    have few : (shown text).length < 2000 := Nat.lt_trans (front args text formatted).1 (by decide)
    obtain ⟨args', text', printed', other⟩ := printPieces_other wanted_one ignores few
    rw [← npfVpprintf_eq] at printed'
    exact other (whole args' text' printed')

theorem leveled_agrees_iff (logger : Logger) (lvl : Level) (fmt : List UInt8) (vaList : Pointer) :
    logger.AgreesWithLog lvl fmt vaList ↔
      lvl.rank < logger.level.rank ∨
        wanted (pieces fmt) ≤ 1 ∧
          (Ignores (pieces fmt) ∨ NeverShown fmt ∨ Overflows fmt ∧ FrontsAlike fmt) := by
  constructor
  · intro agrees
    by_cases quiet : lvl.rank < logger.level.rank
    · exact Or.inl quiet
    · right
      -- All texts of the format are shown as the one that the passed pointer gives.
      have as_passed (args : List Arg) (text : List UInt8)
          (formatted : npfVpprintf fmt args = some text) :=
        (Logger.method_eq_log_iff quiet formatted).mp (agrees args (Option.isSome_of_eq_some formatted))
      obtain ⟨args, text, printed⟩ := printPieces_exists (pieces fmt)
      rw [← npfVpprintf_eq] at printed
      obtain ⟨passed, formatted, -⟩ := as_passed args text printed
      have one := wanted_le_one formatted
      refine ⟨one, silent_of_shown one ?_⟩
      intro args text args' text' printed printed'
      obtain ⟨_, first, shown_first⟩ := as_passed args text printed
      obtain ⟨_, second, shown_second⟩ := as_passed args' text' printed'
      obtain rfl := Option.some.inj (first.symm.trans second)
      exact shown_second.symm.trans shown_first
  · intro condition args matched
    by_cases quiet : lvl.rank < logger.level.rank
    · intro tty
      rw [logger.method_eq, Logger.log_quiet quiet, Logger.log_quiet quiet]
    · obtain ⟨one, silent⟩ := condition.resolve_left quiet
      obtain ⟨text, formatted⟩ := Option.isSome_iff_exists.mp matched
      obtain ⟨text', passed⟩ := vaList.arg_matches one
      apply (Logger.method_eq_log_iff quiet formatted).mpr
      exact ⟨text', passed, shown_of_silent one silent formatted passed⟩

theorem info_prints_address :
    ¬ Logger.AgreesWithLog { name := ascii "Main" } .info (ascii "%d\n") ⟨0x7000, []⟩ := by
  intro agrees
  have same := agrees [.word 42] (by decide) {}
  exact absurd same (by decide)

end Sphynx.Dev

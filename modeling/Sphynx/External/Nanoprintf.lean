import Mathlib.Algebra.Group.Nat.Defs
import Sphynx.Lib.CString

/-!
# nanoprintf

The formatter of `external/nanoprintf.h` under the switches `tty.cpp` sets: field width, precision
and large length modifiers on; floating point, binary and writeback off. A format is its characters
without the NUL that ends it, fewer than 2^31 of them. An `int` has 32 bits and wraps around.
-/

namespace Sphynx.External
open Lib

def ascii (s : String) : List UInt8 := s.toList.map fun c => c.toNat.toUInt8

def chr (c : Char) : UInt8 := c.toNat.toUInt8

/-- A variadic argument: a machine word, or a `char*` with the text it points to. -/
inductive Arg where
  | word (value : UInt64)
  | str (text : List UInt8)
deriving DecidableEq, Repr

inductive FmtSpecOpt where
  | none
  | literal
  | star
deriving DecidableEq, Repr

inductive LengthModifier where
  | none
  | short
  | char
  | long
  | largeLongLong
  | largeIntmax
  | largeSizet
  | largePtrdifft
deriving DecidableEq, Repr

inductive ConvSpec where
  | percent
  | char
  | string
  | signedInt
  | octal
  | hexInt
  | unsignedInt
  | pointer
deriving DecidableEq, Repr

structure FormatSpec where
  prepend : UInt8 := 0
  altForm : Bool := false
  fieldWidthOpt : FmtSpecOpt := .none
  fieldWidth : Int32 := 0
  leftJustified : Bool := false
  leadingZeroPad : Bool := false
  precOpt : FmtSpecOpt := .none
  prec : Int32 := 0
  lengthModifier : LengthModifier := .none
  convSpec : ConvSpec := .percent
  caseAdjust : UInt8 := chr 'a' - chr 'A'
deriving DecidableEq, Repr

/-! ## Parsing a conversion specification -/

def parseFlags (spec : FormatSpec) : List UInt8 → FormatSpec × List UInt8
  | [] => (spec, [])
  | c :: cur =>
      if c = chr '-' then parseFlags { spec with leftJustified := true, leadingZeroPad := false } cur
      else if c = chr '0' then parseFlags { spec with leadingZeroPad := !spec.leftJustified } cur
      else if c = chr '+' then parseFlags { spec with prepend := chr '+' } cur
      else if c = chr ' ' then
        parseFlags { spec with prepend := if spec.prepend = 0 then chr ' ' else spec.prepend } cur
      else if c = chr '#' then parseFlags { spec with altForm := true } cur
      else (spec, c :: cur)

def isDigit (c : UInt8) : Bool := chr '0' ≤ c ∧ c ≤ chr '9'

def parseDigits (value : Int32) : List UInt8 → Int32 × List UInt8
  | [] => (value, [])
  | c :: cur =>
      if isDigit c then parseDigits (value * 10 + (.ofNat c.toNat - 48)) cur else (value, c :: cur)

def parseFieldWidth (spec : FormatSpec) (cur : List UInt8) : FormatSpec × List UInt8 :=
  match cur with
  | [] => ({ spec with fieldWidth := 0 }, [])
  | c :: rest =>
      -- A star leaves `field_width` as it is.
      if c = chr '*' then ({ spec with fieldWidthOpt := .star }, rest)
      else if isDigit c then
        let (width, rest) := parseDigits 0 cur
        ({ spec with fieldWidthOpt := .literal, fieldWidth := width }, rest)
      else ({ spec with fieldWidth := 0 }, cur)

def parsePrecision (spec : FormatSpec) (cur : List UInt8) : FormatSpec × List UInt8 :=
  match cur with
  | [] => (spec, [])
  | c :: rest =>
      if c ≠ chr '.' then (spec, cur) else
      match rest with
      | [] => ({ spec with precOpt := .literal }, [])
      | d :: rest' =>
          if d = chr '*' then ({ spec with precOpt := .star }, rest')
          else if d = chr '-' then
            -- A negative literal counts as none, though its digits are kept in `prec`.
            let (prec, rest) := parseDigits 0 rest'
            ({ spec with precOpt := .none, prec := prec }, rest)
          else
            let (prec, rest) := parseDigits 0 rest
            ({ spec with precOpt := .literal, prec := prec }, rest)

def parseLengthModifier (spec : FormatSpec) (cur : List UInt8) : FormatSpec × List UInt8 :=
  match cur with
  | [] => (spec, [])
  | c :: rest =>
      if c = chr 'h' then
        if rest.head? = some (chr 'h') then ({ spec with lengthModifier := .char }, rest.tail)
        else ({ spec with lengthModifier := .short }, rest)
      else if c = chr 'l' then
        if rest.head? = some (chr 'l') then ({ spec with lengthModifier := .largeLongLong }, rest.tail)
        else ({ spec with lengthModifier := .long }, rest)
      else if c = chr 'j' then ({ spec with lengthModifier := .largeIntmax }, rest)
      else if c = chr 'z' then ({ spec with lengthModifier := .largeSizet }, rest)
      else if c = chr 't' then ({ spec with lengthModifier := .largePtrdifft }, rest)
      else (spec, cur)

def FormatSpec.integer (spec : FormatSpec) (conv : ConvSpec) : FormatSpec :=
  { spec with
    convSpec := conv
    leadingZeroPad := if spec.precOpt ≠ .none then false else spec.leadingZeroPad }

def parseConversion (spec : FormatSpec) (cur : List UInt8) : Option (FormatSpec × List UInt8) :=
  match cur with
  | [] => none
  | c :: rest =>
      if c = chr '%' then some ({ spec with convSpec := .percent, precOpt := .none }, rest)
      else if c = chr 'c' then some ({ spec with convSpec := .char, precOpt := .none }, rest)
      else if c = chr 's' then some ({ spec with convSpec := .string, leadingZeroPad := false }, rest)
      else if c = chr 'i' ∨ c = chr 'd' then some (spec.integer .signedInt, rest)
      else if c = chr 'o' then some (spec.integer .octal, rest)
      else if c = chr 'u' then some (spec.integer .unsignedInt, rest)
      else if c = chr 'X' then some ({ spec with caseAdjust := 0 }.integer .hexInt, rest)
      else if c = chr 'x' then some (spec.integer .hexInt, rest)
      else if c = chr 'p' then some ({ spec with convSpec := .pointer, precOpt := .none }, rest)
      else none

/-- `npf_parse_format_spec`, from the character after the `%`: the specification and what follows
it, or `none` where the function returns 0. Of what `outSpec` held before only the width may stay. -/
def npfParseFormatSpec (cur : List UInt8) (outSpec : FormatSpec := {}) :
    Option (FormatSpec × List UInt8) :=
  let (spec, cur) := parseFlags { fieldWidth := outSpec.fieldWidth } cur
  let (spec, cur) := parseFieldWidth spec cur
  let (spec, cur) := parsePrecision spec cur
  let (spec, cur) := parseLengthModifier spec cur
  parseConversion spec cur

/-! ## Converting an argument -/

def npfUtoaRev (base : Nat) (caseAdj : UInt8) : Nat → Nat → List UInt8
  | 0, _ => []
  | fuel + 1, i =>
      let d := i % base
      (if d < 10 then chr '0' + d.toUInt8 else chr 'A' + caseAdj + (d - 10).toUInt8) ::
        if i / base = 0 then [] else npfUtoaRev base caseAdj fuel (i / base)

def signedValue (modifier : LengthModifier) (w : UInt64) : Int :=
  match modifier with
  | .none => w.toUInt32.toInt32.toInt
  | .short => w.toUInt16.toInt16.toInt
  | .char => w.toUInt8.toInt8.toInt
  | .long | .largeLongLong | .largeIntmax | .largeSizet | .largePtrdifft => w.toInt64.toInt

def unsignedValue (modifier : LengthModifier) (w : UInt64) : Nat :=
  match modifier with
  | .none => w.toUInt32.toNat
  | .short => w.toUInt16.toNat
  | .char => w.toUInt8.toNat
  | .long | .largeLongLong | .largeIntmax | .largeSizet | .largePtrdifft => w.toNat

/-- What a conversion leaves for the padding stage: the payload in output order, and the local
variables `cbuf_len`, `sign_c`, `need_0x` and `zero` with the possibly adjusted precision. -/
structure Converted where
  payload : List UInt8
  cbufLen : Int32 := .ofNat payload.length
  signC : UInt8 := 0
  need0x : UInt8 := 0
  zero : Bool := false
  prec : Int32
deriving DecidableEq, Repr

def convertSigned (fs : FormatSpec) (w : UInt64) : Converted :=
  let val := signedValue fs.lengthModifier w
  { payload := if val = 0 ∧ fs.precOpt = .literal ∧ fs.prec = 0 then []
      else (npfUtoaRev 10 0 64 val.natAbs).reverse
    signC := if val < 0 then chr '-' else fs.prepend
    zero := val = 0
    prec := fs.prec }

def convertUnsigned (fs : FormatSpec) (w : UInt64) : Converted :=
  let val := unsignedValue fs.lengthModifier w
  let base := match fs.convSpec with
    | .octal => 8
    | .hexInt => 16
    | _ => 10
  let skipped : Bool := val = 0 ∧ fs.precOpt = .literal ∧ fs.prec = 0
  let digits := if skipped then [] else (npfUtoaRev base fs.caseAdjust 64 val).reverse
  let lead := if val ≠ 0 ∧ fs.altForm ∧ fs.convSpec = .octal then [chr '0'] else []
  { payload := lead ++ digits
    need0x := if val ≠ 0 ∧ fs.altForm ∧ fs.convSpec = .hexInt then chr 'X' + fs.caseAdjust else 0
    zero := val = 0
    prec := if skipped ∧ fs.convSpec = .octal ∧ fs.altForm then 1 else fs.prec }

/-- The characters of a string are counted up to its end, or up to the precision if it has one. -/
def convertString (fs : FormatSpec) (text : List UInt8) : Converted :=
  let len : Int32 := .ofNat
    (if fs.precOpt = .none then text.length else min text.length fs.prec.toNatClampNeg)
  { payload := text.take len.toNatClampNeg, cbufLen := len, prec := fs.prec }

/-- The argument switch of `npf_vpprintf`; `none` where the arguments do not match the format,
which C leaves undefined. -/
def convert (fs : FormatSpec) (args : List Arg) : Option (Converted × List Arg) :=
  match fs.convSpec, args with
  | .percent, args => some ({ payload := [chr '%'], prec := fs.prec }, args)
  | .char, .word w :: args => some ({ payload := [w.toUInt8], prec := fs.prec }, args)
  | .string, .str text :: args => some (convertString fs text, args)
  | .signedInt, .word w :: args => some (convertSigned fs w, args)
  | .octal, .word w :: args | .hexInt, .word w :: args | .unsignedInt, .word w :: args =>
      some (convertUnsigned fs w, args)
  | .pointer, .word w :: args =>
      some ({ payload := (npfUtoaRev 16 (chr 'a' - chr 'A') 64 w.toNat).reverse
              need0x := chr 'x'
              prec := fs.prec }, args)
  | _, _ => none

/-! ## Padding -/

def padChar (fs : FormatSpec) (conv : Converted) : UInt8 :=
  if fs.fieldWidthOpt ≠ .literal then 0
  else if fs.leadingZeroPad then
    if fs.convSpec = .string ∨ fs.convSpec = .char ∨ fs.convSpec = .percent then 0
    else if fs.precOpt = .literal ∧ conv.prec = 0 ∧ conv.zero then chr ' '
    else chr '0'
  else chr ' '

def npfMax (x y : Int32) : Int32 := if x > y then x else y

@[simp]
theorem npfMax_zero (x : Int32) : (npfMax 0 x).toNatClampNeg = x.toNatClampNeg := by
  unfold npfMax
  split_ifs with negative
  · have none : x.toNatClampNeg = 0 := by
      rw [Int32.toNatClampNeg_eq_zero_iff, Int32.le_iff_toInt_le]
      exact Int.le_of_lt (Int32.lt_iff_toInt_lt.mp negative)
    rw [none]
    rfl
  · rfl

def precPad (fs : FormatSpec) (conv : Converted) : Int32 :=
  if fs.convSpec = .string then 0 else npfMax 0 (conv.prec - conv.cbufLen)

def fieldPad (fs : FormatSpec) (conv : Converted) : Int32 :=
  npfMax 0 (fs.fieldWidth - conv.cbufLen - (if conv.signC = 0 then 0 else 1)
    - (if conv.need0x = 0 then 0 else 2) - precPad fs conv)

def render (fs : FormatSpec) (conv : Converted) : List UInt8 :=
  let padC := padChar fs conv
  let sign := if conv.signC = 0 then [] else [conv.signC]
  let hex := if conv.need0x = 0 then [] else [chr '0', conv.need0x]
  let padding := List.replicate (fieldPad fs conv).toNatClampNeg padC
  let before := if !fs.leftJustified ∧ padC ≠ 0 then
      if padC = chr '0' then sign ++ hex ++ padding else padding ++ hex
    else hex
  let signLeft := if !fs.leftJustified ∧ padC = chr '0' then [] else sign
  let body := if fs.convSpec = .string then conv.payload
    else signLeft ++ List.replicate (precPad fs conv).toNatClampNeg (chr '0') ++ conv.payload
  let after := if fs.leftJustified ∧ padC ≠ 0 then padding else []
  before ++ body ++ after

def extractStars (fs : FormatSpec) (args : List Arg) : Option (FormatSpec × List Arg) := do
  let (fs, args) ← match fs.fieldWidthOpt, args with
    | .star, .word w :: args =>
        let width := w.toUInt32.toInt32
        some ({ fs with fieldWidthOpt := .literal
                        fieldWidth := if width < 0 then -width else width
                        leftJustified := fs.leftJustified || width < 0 }, args)
    | .star, _ => none
    | _, args => some (fs, args)
  match fs.precOpt, args with
  | .star, .word w :: args =>
      let prec := w.toUInt32.toInt32
      some ({ fs with precOpt := if prec ≥ 0 then .literal else .none, prec := prec }, args)
  | .star, _ => none
  | _, args => some (fs, args)

def vpprintfLoop : Nat → List UInt8 → List Arg → Option (List UInt8)
  | _, [], _ => some []
  | 0, _ :: _, _ => none
  | fuel + 1, c :: cur, args =>
      -- The width that `fs` still holds from before is never read, so it is parsed afresh.
      match if c = chr '%' then npfParseFormatSpec cur else none with
      | none => (vpprintfLoop fuel cur args).map (c :: ·)
      | some (fs, cur) => do
          let (fs, args) ← extractStars fs args
          let (conv, args) ← convert fs args
          (vpprintfLoop fuel cur args).map (render fs conv ++ ·)

def npfVpprintf (format : List UInt8) (args : List Arg) : Option (List UInt8) :=
  vpprintfLoop format.length format args

/-- `npf_vsnprintf`: the `int` that has counted the whole text, and the part of the text a buffer of
`bufsz` bytes keeps in front of its NUL. -/
def npfVsnprintf (bufsz : Nat) (format : List UInt8) (args : List Arg) :
    Option (Int32 × List UInt8) :=
  (npfVpprintf format args).map fun text => (.ofNat text.length, text.take (bufsz - 1))

/-! ## Whether the arguments match

Only their kinds decide, neither the words nor the texts.
-/

def Arg.kind : Arg → Arg
  | .word _ => .word 0
  | .str _ => .str []

variable {args args' : List Arg} {fs fs' : FormatSpec}

theorem kinds_cases (same : args.map Arg.kind = args'.map Arg.kind) :
    (args = [] ∧ args' = []) ∨
    (∃ w w' rest rest', args = .word w :: rest ∧ args' = .word w' :: rest' ∧
      rest.map Arg.kind = rest'.map Arg.kind) ∨
    (∃ t t' rest rest', args = .str t :: rest ∧ args' = .str t' :: rest' ∧
      rest.map Arg.kind = rest'.map Arg.kind) := by
  cases args with
  | nil =>
      obtain rfl : args' = [] := by simpa using same.symm
      exact Or.inl ⟨rfl, rfl⟩
  | cons a rest =>
      cases args' with
      | nil => simp at same
      | cons a' rest' =>
          rw [List.map_cons, List.map_cons, List.cons.injEq] at same
          cases a <;> cases a' <;> simp_all [Arg.kind]

def remaining (result : Option (FormatSpec × List Arg)) : Option (ConvSpec × List Arg) :=
  result.map fun (fs, args) => (fs.convSpec, args.map Arg.kind)

theorem extractStars_kinds (fs : FormatSpec) (same : args.map Arg.kind = args'.map Arg.kind) :
    remaining (extractStars fs args) = remaining (extractStars fs args') := by
  unfold extractStars remaining
  rcases kinds_cases same with ⟨rfl, rfl⟩ | ⟨w, w', rest, rest', rfl, rfl, same'⟩ |
    ⟨t, t', rest, rest', rfl, rfl, same'⟩
  · rfl
  · cases fs.fieldWidthOpt <;> cases precision : fs.precOpt <;>
      simp [bind, Option.bind, precision, Arg.kind, same']
    rcases kinds_cases same' with ⟨rfl, rfl⟩ | ⟨_, _, _, _, rfl, rfl, same''⟩ |
      ⟨_, _, _, _, rfl, rfl, -⟩
    · rfl
    · simp [same'']
    · rfl
  · cases fs.fieldWidthOpt <;> cases precision : fs.precOpt <;>
      simp [bind, Option.bind, precision, Arg.kind, same']

theorem convert_kinds (conv : fs.convSpec = fs'.convSpec)
    (same : args.map Arg.kind = args'.map Arg.kind) :
    (convert fs args).map (fun r => r.2.map Arg.kind) =
      (convert fs' args').map fun r => r.2.map Arg.kind := by
  unfold convert
  rw [conv]
  rcases kinds_cases same with ⟨rfl, rfl⟩ | ⟨w, w', rest, rest', rfl, rfl, same'⟩ |
    ⟨t, t', rest, rest', rfl, rfl, same'⟩
  · cases fs'.convSpec <;> rfl
  · cases fs'.convSpec <;> simp [Arg.kind, same']
  · cases fs'.convSpec <;> simp [Arg.kind, same']

theorem map_eq_cases {α β : Type} {f : α → β} {x y : Option α} (same : x.map f = y.map f) :
    (x = none ∧ y = none) ∨ ∃ a b, x = some a ∧ y = some b ∧ f a = f b := by
  cases x with
  | none => exact Or.inl ⟨rfl, by simpa using same.symm⟩
  | some a =>
      cases y with
      | none => cases same
      | some b => exact Or.inr ⟨a, b, rfl, rfl, Option.some.inj same⟩

theorem vpprintfLoop_kinds (fuel : Nat) (cur : List UInt8)
    (same : args.map Arg.kind = args'.map Arg.kind) :
    (vpprintfLoop fuel cur args).isSome = (vpprintfLoop fuel cur args').isSome := by
  -- Both runs read one format, so they part only where an argument is asked for.
  induction fuel generalizing cur args args' with
  | zero => cases cur <;> rfl
  | succ fuel ih =>
      cases cur with
      | nil => rfl
      | cons c cur =>
          unfold vpprintfLoop
          cases if c = chr '%' then npfParseFormatSpec cur else none with
          | none => simpa using ih cur same
          | some parsed =>
              obtain ⟨fs, cur⟩ := parsed
              rcases map_eq_cases (extractStars_kinds fs same) with
                ⟨left, right⟩ | ⟨stars, stars', left, right, agree⟩
              · simp [left, right]
              · obtain ⟨conv, same'⟩ := Prod.mk.inj agree
                rcases map_eq_cases (convert_kinds conv same') with
                  ⟨left', right'⟩ | ⟨result, result', left', right', same''⟩
                · simp [left, right, left', right']
                · simpa [left, right, left', right'] using ih cur same''

theorem npfVpprintf_kinds (format : List UInt8) (args args' : List Arg)
    (same : args.map Arg.kind = args'.map Arg.kind) :
    (npfVpprintf format args).isSome = (npfVpprintf format args').isSome :=
  vpprintfLoop_kinds format.length format same

/-! ## Formats the kernel prints with -/

/-- What `%s` prints of a string: as much of it as its `int` has counted. -/
def counted (text : List UInt8) : List UInt8 := text.take (Int32.ofNat text.length).toNatClampNeg

theorem counted_eq {text : List UInt8} (short : text.length < 2 ^ 31) : counted text = text := by
  rw [counted, Int32.toNatClampNeg_ofNat_of_lt short, List.take_length]

theorem convertString_whole (fs : FormatSpec) (whole : fs.precOpt = .none) (text : List UInt8) :
    convertString fs text =
      { payload := counted text, cbufLen := .ofNat text.length, prec := fs.prec } := by
  simp only [convertString, if_pos whole, counted]

theorem render_string (conv : Converted) (unmarked : conv.need0x = 0) :
    render { convSpec := .string } conv = conv.payload := by
  simp [render, padChar, unmarked]

theorem npfVpprintf_string_line (text : List UInt8) :
    npfVpprintf (ascii "%s\n") [.str text] = some (counted text ++ ascii "\n") := by
  have format : ascii "%s\n" = [37, 115, 10] := by decide
  have spec : npfParseFormatSpec [115, 10] = some ({ convSpec := .string }, [10]) := by decide
  have whole := convertString_whole { convSpec := .string } rfl text
  rw [npfVpprintf, format]
  simp only [List.length_cons, List.length_nil, vpprintfLoop]
  rw [if_pos (by decide : (37 : UInt8) = chr '%'), if_neg (by decide : ¬ (10 : UInt8) = chr '%'),
    spec]
  simp only [extractStars, convert, bind, Option.bind, whole, render_string]
  rfl

example : npfVpprintf (ascii "%s[%-6s] %x\n") [.str (ascii "c"), .str (ascii "OK"), .word 255] =
    some (ascii "c[OK    ] ff\n") := by decide

example : npfVpprintf (ascii "%4294967297d") [.word 7] = some (ascii "7") := by decide

end Sphynx.External

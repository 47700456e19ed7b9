import Sphynx.External.FormatPieces
import Mathlib.Data.Nat.Digits.Lemmas

/-!
# Specifications and how they are written

Every specification the parser can return has a written form from which it returns the same
specification, and with it every format has a normal form that is printed alike.
-/

namespace Sphynx.External

/-! ## Writing a specification -/

namespace FormatSpec
variable (fs : FormatSpec)

def writeFlags : List UInt8 :=
  (if fs.leftJustified then [chr '-'] else []) ++ (if fs.leadingZeroPad then [chr '0'] else []) ++
    (if fs.prepend = 0 then [] else [fs.prepend]) ++ if fs.altForm then [chr '#'] else []

def writeNumber (n : Nat) : List UInt8 :=
  (Nat.digits 10 n).reverse.map fun d => chr '0' + d.toUInt8

/-- A number that wraps around to a width. A width of 0 needs one too, as a plain 0 is a flag. -/
def widthNumber (width : Int32) : Nat := if width = 0 then 2 ^ 32 else width.toUInt32.toNat

def writeFieldWidth : List UInt8 :=
  match fs.fieldWidthOpt with
  | .none => []
  | .literal => writeNumber (widthNumber fs.fieldWidth)
  | .star => [chr '*']

def writePrecision : List UInt8 :=
  match fs.precOpt with
  | .none => if fs.prec = 0 then [] else chr '.' :: chr '-' :: writeNumber fs.prec.toUInt32.toNat
  | .literal => chr '.' :: writeNumber fs.prec.toUInt32.toNat
  | .star => [chr '.', chr '*']

def writeLengthModifier : List UInt8 :=
  match fs.lengthModifier with
  | .none => []
  | .short => [chr 'h']
  | .char => [chr 'h', chr 'h']
  | .long => [chr 'l']
  | .largeLongLong => [chr 'l', chr 'l']
  | .largeIntmax => [chr 'j']
  | .largeSizet => [chr 'z']
  | .largePtrdifft => [chr 't']

def conversionChar : UInt8 :=
  match fs.convSpec with
  | .percent => chr '%'
  | .char => chr 'c'
  | .string => chr 's'
  | .signedInt => chr 'd'
  | .octal => chr 'o'
  | .hexInt => if fs.caseAdjust = 0 then chr 'X' else chr 'x'
  | .unsignedInt => chr 'u'
  | .pointer => chr 'p'

def write : List UInt8 :=
  fs.writeFlags ++ (fs.writeFieldWidth ++ (fs.writePrecision ++ (fs.writeLengthModifier ++
    [fs.conversionChar])))

structure Flagged : Prop where
  prepend : fs.prepend = 0 ∨ fs.prepend = chr ' ' ∨ fs.prepend = chr '+'
  padding : fs.leftJustified = true → fs.leadingZeroPad = false

/-- What the stages before the conversion character establish. A star leaves the width that was
held before. -/
structure Regular (held : Int32) : Prop extends fs.Flagged where
  noWidth : fs.fieldWidthOpt = .none → fs.fieldWidth = 0
  starWidth : fs.fieldWidthOpt = .star → fs.fieldWidth = held
  starPrec : fs.precOpt = .star → fs.prec = 0

def Converts : Prop :=
  match fs.convSpec with
  | .percent | .char | .pointer => fs.precOpt = .none
  | .string => fs.leadingZeroPad = false
  | .signedInt | .octal | .hexInt | .unsignedInt => fs.precOpt ≠ .none → fs.leadingZeroPad = false

structure WellFormed (held : Int32) : Prop extends fs.Regular held where
  converts : fs.Converts
  letters : fs.caseAdjust = chr 'a' - chr 'A' ∨ fs.convSpec = .hexInt ∧ fs.caseAdjust = 0

end FormatSpec

/-! ## What the parser returns is well formed -/

variable {spec fs : FormatSpec} {cur rest : List UInt8} {held : Int32}

/-- Where the flags end. -/
def Unflagged (cur : List UInt8) : Prop :=
  ∀ c ∈ cur.head?, c ∉ [chr '-', chr '0', chr '+', chr ' ', chr '#']

theorem parseFlags_flagged (flagged : spec.Flagged) (cur : List UInt8) :
    (parseFlags spec cur).1.Flagged := by
  induction cur generalizing spec with
  | nil => exact flagged
  | cons c cur ih =>
      unfold parseFlags
      split_ifs
      · exact ih { flagged with padding := fun _ => rfl }
      · refine ih { flagged with padding := fun left => ?_ }
        have left : spec.leftJustified = true := left
        simp [left]
      · exact ih { flagged with prepend := Or.inr (Or.inr rfl) }
      · exact ih { flagged with prepend := Or.inr (Or.inl rfl) }
      · exact ih { flagged with }
      · exact ih { flagged with }
      · exact flagged

/-- The fields no stage has set yet. -/
structure FormatSpec.Unset (spec : FormatSpec) (held : Int32) : Prop where
  noWidth : spec.fieldWidthOpt = .none
  width : spec.fieldWidth = held
  prec : spec.prec = 0
  letters : spec.caseAdjust = chr 'a' - chr 'A'

theorem parseFlags_unset (unset : spec.Unset held) (cur : List UInt8) :
    (parseFlags spec cur).1.Unset held := by
  induction cur generalizing spec with
  | nil => exact unset
  | cons c cur ih =>
      unfold parseFlags
      split_ifs
      iterate 6
        · exact ih { unset with }
      exact unset

theorem parseFieldWidth_regular (flagged : spec.Flagged) (unset : spec.Unset held)
    (cur : List UInt8) : (parseFieldWidth spec cur).1.Regular held := by
  have noStar (star : spec.precOpt = .star) : spec.prec = 0 := unset.prec
  have otherwise : { spec with fieldWidth := 0 }.Regular held :=
    { flagged with
      noWidth := fun _ => rfl
      starWidth := fun star => by cases unset.noWidth.symm.trans star
      starPrec := noStar }
  cases cur with
  | nil => exact otherwise
  | cons c cur =>
      simp only [parseFieldWidth]
      split_ifs
      · exact { flagged with
          noWidth := fun none => by cases none
          starWidth := fun _ => unset.width
          starPrec := noStar }
      · exact { flagged with
          noWidth := fun none => by cases none
          starWidth := fun star => by cases star
          starPrec := noStar }
      · exact otherwise

theorem parsePrecision_regular (regular : spec.Regular held) (zero : spec.prec = 0)
    (cur : List UInt8) : (parsePrecision spec cur).1.Regular held := by
  cases cur with
  | nil => exact regular
  | cons c cur =>
      simp only [parsePrecision]
      split_ifs
      · exact regular
      · cases cur with
        | nil => exact { regular with starPrec := fun _ => zero }
        | cons d cur =>
            simp only
            split_ifs
            · exact { regular with starPrec := fun _ => zero }
            · exact { regular with starPrec := fun star => by cases star }
            · exact { regular with starPrec := fun star => by cases star }

theorem parseLengthModifier_eq (spec : FormatSpec) (cur : List UInt8) :
    ∃ modifier, (parseLengthModifier spec cur).1 = { spec with lengthModifier := modifier } := by
  cases cur with
  | nil => exact ⟨spec.lengthModifier, rfl⟩
  | cons c cur =>
      simp only [parseLengthModifier]
      split_ifs
      iterate 7
        · exact ⟨_, rfl⟩
      exact ⟨spec.lengthModifier, rfl⟩

theorem FormatSpec.Regular.integer (regular : spec.Regular held) (conv : ConvSpec)
    (kind : conv = .signedInt ∨ conv = .octal ∨ conv = .hexInt ∨ conv = .unsignedInt)
    (letters : spec.caseAdjust = chr 'a' - chr 'A' ∨ conv = .hexInt ∧ spec.caseAdjust = 0) :
    (spec.integer conv).WellFormed held := by
  refine { regular with padding := fun left => ?_, converts := ?_, letters := letters }
  · by_cases option : spec.precOpt ≠ .none
    · exact if_pos option
    · exact (if_neg option).trans (regular.padding left)
  · have zeros : spec.precOpt ≠ .none → (spec.integer conv).leadingZeroPad = false :=
      fun option => if_pos option
    rcases kind with rfl | rfl | rfl | rfl <;> exact zeros

theorem FormatSpec.Regular.fixed (regular : spec.Regular held) (conv : ConvSpec)
    (kind : conv = .percent ∨ conv = .char ∨ conv = .pointer)
    (letters : spec.caseAdjust = chr 'a' - chr 'A') :
    { spec with convSpec := conv, precOpt := .none }.WellFormed held := by
  refine { regular with
    starPrec := fun star => by cases star
    converts := ?_
    letters := Or.inl letters }
  rcases kind with rfl | rfl | rfl <;> rfl

/-- The conversion a character stands for. -/
def FormatSpec.convertAt (spec : FormatSpec) (c : UInt8) : Option FormatSpec :=
  if c = chr '%' then some { spec with convSpec := .percent, precOpt := .none }
  else if c = chr 'c' then some { spec with convSpec := .char, precOpt := .none }
  else if c = chr 's' then some { spec with convSpec := .string, leadingZeroPad := false }
  else if c = chr 'i' ∨ c = chr 'd' then some (spec.integer .signedInt)
  else if c = chr 'o' then some (spec.integer .octal)
  else if c = chr 'u' then some (spec.integer .unsignedInt)
  else if c = chr 'X' then some ({ spec with caseAdjust := 0 }.integer .hexInt)
  else if c = chr 'x' then some (spec.integer .hexInt)
  else if c = chr 'p' then some { spec with convSpec := .pointer, precOpt := .none }
  else none

theorem parseConversion_cons (spec : FormatSpec) (c : UInt8) (cur : List UInt8) :
    parseConversion spec (c :: cur) = (spec.convertAt c).map fun fs => (fs, cur) := by
  simp only [parseConversion, FormatSpec.convertAt, apply_ite (Option.map fun fs => (fs, cur)),
    Option.map_some, Option.map_none]

theorem some_of_ite {α : Type} {p : Prop} [Decidable p] {a b : α} {others : Option α}
    (found : (if p then some a else others) = some b) : a = b ∨ others = some b := by
  split_ifs at found
  · exact Or.inl (Option.some.inj found)
  · exact Or.inr found

theorem FormatSpec.convertAt_wellFormed (regular : spec.Regular held)
    (letters : spec.caseAdjust = chr 'a' - chr 'A') {c : UInt8} (found : spec.convertAt c = some fs) :
    fs.WellFormed held := by
  unfold convertAt at found
  rcases some_of_ite found with rfl | found
  · exact regular.fixed .percent (by simp) letters
  rcases some_of_ite found with rfl | found
  · exact regular.fixed .char (by simp) letters
  rcases some_of_ite found with rfl | found
  · exact { regular with padding := fun _ => rfl, converts := rfl, letters := Or.inl letters }
  rcases some_of_ite found with rfl | found
  · exact regular.integer .signedInt (by simp) (Or.inl letters)
  rcases some_of_ite found with rfl | found
  · exact regular.integer .octal (by simp) (Or.inl letters)
  rcases some_of_ite found with rfl | found
  · exact regular.integer .unsignedInt (by simp) (Or.inl letters)
  rcases some_of_ite found with rfl | found
  · have capital : { spec with caseAdjust := 0 }.Regular held := { regular with }
    exact capital.integer .hexInt (by simp) (Or.inr ⟨rfl, rfl⟩)
  rcases some_of_ite found with rfl | found
  · exact regular.integer .hexInt (by simp) (Or.inl letters)
  rcases some_of_ite found with rfl | found
  · exact regular.fixed .pointer (by simp) letters
  · cases found

theorem parseConversion_wellFormed (regular : spec.Regular held)
    (letters : spec.caseAdjust = chr 'a' - chr 'A')
    (parsed : parseConversion spec cur = some (fs, rest)) : fs.WellFormed held := by
  cases cur with
  | nil => cases parsed
  | cons c cur =>
      rw [parseConversion_cons] at parsed
      obtain ⟨fs', found, same⟩ := Option.map_eq_some_iff.mp parsed
      cases same
      exact spec.convertAt_wellFormed regular letters found

def andThen (first second : FormatSpec → List UInt8 → FormatSpec × List UInt8)
    (spec : FormatSpec) (cur : List UInt8) : FormatSpec × List UInt8 :=
  second (first spec cur).1 (first spec cur).2

/-- The stages before the conversion character. -/
def parseParts : FormatSpec → List UInt8 → FormatSpec × List UInt8 :=
  andThen (andThen (andThen parseFlags parseFieldWidth) parsePrecision) parseLengthModifier

theorem npfParseFormatSpec_parts (cur : List UInt8) (outSpec : FormatSpec) :
    npfParseFormatSpec cur outSpec =
      parseConversion (parseParts { fieldWidth := outSpec.fieldWidth } cur).1
        (parseParts { fieldWidth := outSpec.fieldWidth } cur).2 := rfl

theorem parseFieldWidth_unset (unset : spec.Unset held) (cur : List UInt8) :
    (parseFieldWidth spec cur).1.prec = 0 ∧
      (parseFieldWidth spec cur).1.caseAdjust = chr 'a' - chr 'A' := by
  cases cur with
  | nil => exact ⟨unset.prec, unset.letters⟩
  | cons c cur =>
      simp only [parseFieldWidth]
      split_ifs <;> exact ⟨unset.prec, unset.letters⟩

theorem parsePrecision_caseAdjust (spec : FormatSpec) (cur : List UInt8) :
    (parsePrecision spec cur).1.caseAdjust = spec.caseAdjust := by
  cases cur with
  | nil => rfl
  | cons c cur =>
      simp only [parsePrecision]
      split_ifs
      · rfl
      · cases cur with
        | nil => rfl
        | cons d cur =>
            simp only
            split_ifs <;> rfl

theorem parseParts_regular (held : Int32) (cur : List UInt8) :
    (parseParts { fieldWidth := held } cur).1.Regular held ∧
      (parseParts { fieldWidth := held } cur).1.caseAdjust = chr 'a' - chr 'A' := by
  have start : FormatSpec.Flagged { fieldWidth := held } :=
    { prepend := Or.inl rfl, padding := fun _ => rfl }
  have flags := parseFlags_flagged start cur
  have fresh : FormatSpec.Unset { fieldWidth := held } held := ⟨rfl, rfl, rfl, rfl⟩
  have unset := parseFlags_unset fresh cur
  have width := parseFieldWidth_regular flags unset (parseFlags { fieldWidth := held } cur).2
  obtain ⟨zero, letters⟩ := parseFieldWidth_unset unset (parseFlags { fieldWidth := held } cur).2
  have precision := parsePrecision_regular width zero
    (parseFieldWidth (parseFlags { fieldWidth := held } cur).1
      (parseFlags { fieldWidth := held } cur).2).2
  simp only [parseParts, andThen]
  obtain ⟨modifier, same⟩ := parseLengthModifier_eq _ _
  rw [same]
  exact ⟨{ precision with }, (parsePrecision_caseAdjust _ _).trans letters⟩

theorem npfParseFormatSpec_wellFormed {outSpec : FormatSpec}
    (parsed : npfParseFormatSpec cur outSpec = some (fs, rest)) :
    fs.WellFormed outSpec.fieldWidth := by
  rw [npfParseFormatSpec_parts] at parsed
  obtain ⟨regular, letters⟩ := parseParts_regular outSpec.fieldWidth cur
  exact parseConversion_wellFormed regular letters parsed

/-! ## What is written is parsed back -/

def Opens (cs cur : List UInt8) : Prop := ∃ c ∈ cs, ∃ rest, cur = c :: rest

theorem Opens.behind {cs cs' text : List UInt8} (opens : Opens cs' cur)
    (first : text = [] ∨ Opens cs text) : Opens (cs ++ cs') (text ++ cur) := by
  rcases first with rfl | ⟨c, member, rest, rfl⟩
  · obtain ⟨c, member, rest, rfl⟩ := opens
    exact ⟨c, List.mem_append_right cs member, rest, rfl⟩
  · exact ⟨c, List.mem_append_left cs' member, rest ++ cur, rfl⟩

theorem forall_chars {p : UInt8 → Prop} [DecidablePred p] {cs : List UInt8}
    (all : (cs.all fun c => p c) = true) : ∀ c ∈ cs, p c := by
  simpa only [List.all_eq_true, decide_eq_true_eq] using all

def conversionChars : List UInt8 := ascii "%csdoxXup"
def modifierChars : List UInt8 := ascii "hljzt"
def digitChars : List UInt8 := ascii "0123456789"

namespace FormatSpec

theorem conversionChar_opens (fs : FormatSpec) (rest : List UInt8) :
    Opens conversionChars (fs.conversionChar :: rest) := by
  refine ⟨fs.conversionChar, ?_, rest, rfl⟩
  cases kind : fs.convSpec <;> simp only [conversionChar, kind]
  case hexInt => split_ifs <;> decide
  all_goals decide

theorem writeLengthModifier_opens (fs : FormatSpec) :
    fs.writeLengthModifier = [] ∨ Opens modifierChars fs.writeLengthModifier := by
  cases kind : fs.lengthModifier <;> simp only [writeLengthModifier, kind]
  case none => exact Or.inl trivial
  all_goals exact Or.inr ⟨_, by decide, _, rfl⟩

theorem writePrecision_opens (fs : FormatSpec) :
    fs.writePrecision = [] ∨ Opens [chr '.'] fs.writePrecision := by
  cases option : fs.precOpt <;> simp only [writePrecision, option]
  case none =>
      by_cases zero : fs.prec = 0
      · exact Or.inl (if_pos zero)
      · rw [if_neg zero]
        exact Or.inr ⟨_, by simp, _, rfl⟩
  all_goals exact Or.inr ⟨_, by simp, _, rfl⟩

/-- A width starts with no zero, which would be read as a flag. -/
theorem writeNumber_width {n : Nat} (nonzero : n ≠ 0) :
    Opens (ascii "123456789") (writeNumber n) := by
  have nonempty : Nat.digits 10 n ≠ [] := Nat.digits_ne_nil_iff_ne_zero.mpr nonzero
  cases digits : (Nat.digits 10 n).reverse with
  | nil => exact absurd (List.reverse_eq_nil_iff.mp digits) nonempty
  | cons d ds =>
      have last := Nat.getLast_digit_ne_zero 10 nonzero
      have top : (Nat.digits 10 n).getLast nonempty = d := by
        rw [← List.head_reverse (by simpa using nonempty)]
        simp only [digits, List.head_cons]
      rw [top] at last
      have member : d ∈ Nat.digits 10 n := by
        rw [← List.mem_reverse, digits]
        exact List.mem_cons_self
      have small := Nat.digits_lt_base (by decide : 1 < 10) member
      have char : ∀ d < 10, d ≠ 0 → chr '0' + d.toUInt8 ∈ ascii "123456789" := by decide
      have written : writeNumber n = (chr '0' + d.toUInt8) :: ds.map fun d => chr '0' + d.toUInt8 := by
        rw [writeNumber, digits, List.map_cons]
      exact ⟨_, char d small last, _, written⟩

theorem writeNumber_opens (n : Nat) : writeNumber n = [] ∨ Opens digitChars (writeNumber n) := by
  by_cases zero : n = 0
  · refine Or.inl ?_
    rw [zero]
    rfl
  · obtain ⟨c, member, rest, written⟩ := writeNumber_width zero
    have wider : ∀ c ∈ ascii "123456789", c ∈ digitChars := forall_chars (by decide)
    exact Or.inr ⟨c, wider c member, rest, written⟩

theorem ofNat_toUInt32 (value : Int32) : Int32.ofNat value.toUInt32.toNat = value := by
  rw [← UInt32.toInt32_ofNat', UInt32.ofNat_toNat, Int32.toInt32_toUInt32]

theorem widthNumber_pos (width : Int32) : widthNumber width ≠ 0 := by
  unfold widthNumber
  split_ifs with zero
  · decide
  · intro none
    apply zero
    rw [← ofNat_toUInt32 width, none]
    rfl

theorem ofNat_widthNumber (width : Int32) : Int32.ofNat (widthNumber width) = width := by
  unfold widthNumber
  split_ifs with zero
  · rw [zero]
    decide
  · exact ofNat_toUInt32 width

end FormatSpec

open FormatSpec

theorem parseDigits_stop (value : Int32)
    (opens : Opens ([chr '.'] ++ (modifierChars ++ conversionChars)) cur) :
    parseDigits value cur = (value, cur) := by
  obtain ⟨c, member, rest, rfl⟩ := opens
  have stop : ∀ c ∈ [chr '.'] ++ (modifierChars ++ conversionChars), ¬ isDigit c = true := forall_chars (by decide)
  rw [parseDigits, if_neg (stop c member)]

theorem parseDigits_digits (ds : List Nat) (small : ∀ d ∈ ds, d < 10) (value : Int32)
    (opens : Opens ([chr '.'] ++ (modifierChars ++ conversionChars)) cur) :
    parseDigits value ((ds.map fun d => chr '0' + d.toUInt8) ++ cur) =
      (ds.foldl (fun value d => value * 10 + .ofNat d) value, cur) := by
  induction ds generalizing value with
  | nil => exact parseDigits_stop value opens
  | cons d ds ih =>
      have digit : ∀ d < 10, isDigit (chr '0' + d.toUInt8) = true ∧
          Int32.ofNat (chr '0' + d.toUInt8).toNat - 48 = .ofNat d := by decide
      obtain ⟨taken, char⟩ := digit d (small d List.mem_cons_self)
      rw [List.map_cons, List.cons_append, parseDigits, if_pos taken, char,
        ih fun d member => small d (List.mem_cons_of_mem _ member)]
      rfl

theorem ofNat_ofDigits (ds : List Nat) :
    Int32.ofNat (Nat.ofDigits 10 ds) = ds.foldr (fun d value => value * 10 + .ofNat d) 0 := by
  induction ds with
  | nil => rfl
  | cons d ds ih =>
      rw [Nat.ofDigits_cons, Int32.ofNat_add, Int32.ofNat_mul, List.foldr_cons, ← ih,
        Int32.add_comm, Int32.mul_comm]
      rfl

/-- The digits of a number give it back as far as an `int` holds it. -/
theorem parseDigits_writeNumber (n : Nat)
    (opens : Opens ([chr '.'] ++ (modifierChars ++ conversionChars)) cur) :
    parseDigits 0 (writeNumber n ++ cur) = (.ofNat n, cur) := by
  have small (d : Nat) (member : d ∈ (Nat.digits 10 n).reverse) : d < 10 :=
    Nat.digits_lt_base (by decide) (List.mem_reverse.mp member)
  rw [writeNumber, parseDigits_digits _ small 0 opens, List.foldl_reverse, ← ofNat_ofDigits,
    Nat.ofDigits_digits]

theorem parseFlags_write (flagged : fs.Flagged) (held : Int32) (unflagged : Unflagged cur) :
    parseFlags { fieldWidth := held } (fs.writeFlags ++ cur) =
      ({ prepend := fs.prepend, altForm := fs.altForm, fieldWidth := held,
         leftJustified := fs.leftJustified, leadingZeroPad := fs.leadingZeroPad }, cur) := by
  have stop (spec : FormatSpec) : parseFlags spec cur = (spec, cur) := by
    cases cur with
    | nil => rfl
    | cons c cur =>
        have other := unflagged c rfl
        simp only [List.mem_cons, not_or] at other
        obtain ⟨minus, zero, plus, space, alt, -⟩ := other
        rw [parseFlags, if_neg minus, if_neg zero, if_neg plus, if_neg space, if_neg alt]
  have minus (spec : FormatSpec) (cur : List UInt8) : parseFlags spec (chr '-' :: cur) =
      parseFlags { spec with leftJustified := true, leadingZeroPad := false } cur := rfl
  have zero (spec : FormatSpec) (cur : List UInt8) : parseFlags spec (chr '0' :: cur) =
      parseFlags { spec with leadingZeroPad := !spec.leftJustified } cur := rfl
  have plus (spec : FormatSpec) (cur : List UInt8) : parseFlags spec (chr '+' :: cur) =
      parseFlags { spec with prepend := chr '+' } cur := rfl
  have space (spec : FormatSpec) (cur : List UInt8) : parseFlags spec (chr ' ' :: cur) =
      parseFlags { spec with prepend := if spec.prepend = 0 then chr ' ' else spec.prepend } cur := rfl
  have alt (spec : FormatSpec) (cur : List UInt8) : parseFlags spec (chr '#' :: cur) =
      parseFlags { spec with altForm := true } cur := rfl
  have plusSet : chr '+' ≠ 0 := by decide
  have spaceSet : chr ' ' ≠ 0 := by decide
  have padding := flagged.padding
  rcases flagged.prepend with prepend | prepend | prepend <;> cases left : fs.leftJustified <;>
    cases zeros : fs.leadingZeroPad <;> cases altForm : fs.altForm <;>
    simp_all [writeFlags]

theorem parseFieldWidth_write (wf : fs.WellFormed held) (unset : spec.fieldWidthOpt = .none)
    (width : spec.fieldWidth = held)
    (opens : Opens ([chr '.'] ++ (modifierChars ++ conversionChars)) cur) :
    parseFieldWidth spec (fs.writeFieldWidth ++ cur) =
      ({ spec with fieldWidthOpt := fs.fieldWidthOpt, fieldWidth := fs.fieldWidth }, cur) := by
  obtain ⟨_, _, fieldWidthOpt, fieldWidth, _⟩ := spec
  obtain rfl : fieldWidthOpt = .none := unset
  obtain rfl : fieldWidth = held := width
  cases option : fs.fieldWidthOpt with
  | none =>
      obtain ⟨c, member, rest, rfl⟩ := opens
      have stop : ∀ c ∈ [chr '.'] ++ (modifierChars ++ conversionChars),
          c ≠ chr '*' ∧ ¬ isDigit c = true := forall_chars (by decide)
      obtain ⟨star, digit⟩ := stop c member
      simp only [writeFieldWidth, option, List.nil_append, parseFieldWidth, if_neg star,
        if_neg digit, wf.noWidth option]
  | literal =>
      obtain ⟨c, member, rest, written⟩ := writeNumber_width (widthNumber_pos fs.fieldWidth)
      have start : ∀ c ∈ ascii "123456789", c ≠ chr '*' ∧ isDigit c = true := forall_chars (by decide)
      obtain ⟨star, digit⟩ := start c member
      have number := parseDigits_writeNumber (widthNumber fs.fieldWidth) opens
      rw [written, List.cons_append, ofNat_widthNumber] at number
      simp only [writeFieldWidth, option, written, List.cons_append, parseFieldWidth, if_neg star,
        if_pos digit, number]
  | star =>
      simp only [writeFieldWidth, option, List.cons_append, List.nil_append, parseFieldWidth,
        if_true, wf.starWidth option]

theorem parsePrecision_write (wf : fs.WellFormed held) (unset : spec.precOpt = .none)
    (zero : spec.prec = 0) (opens : Opens (modifierChars ++ conversionChars) cur) :
    parsePrecision spec (fs.writePrecision ++ cur) =
      ({ spec with precOpt := fs.precOpt, prec := fs.prec }, cur) := by
  obtain ⟨_, _, _, _, _, _, precOpt, prec, _⟩ := spec
  obtain rfl : precOpt = .none := unset
  obtain rfl : prec = 0 := zero
  have opens' := opens.behind (Or.inl rfl : [] = [] ∨ Opens [chr '.'] [])
  have number := parseDigits_writeNumber fs.prec.toUInt32.toNat opens'
  rw [ofNat_toUInt32] at number
  cases option : fs.precOpt with
  | none =>
      by_cases nothing : fs.prec = 0
      · obtain ⟨c, member, rest, rfl⟩ := opens
        have stop : ∀ c ∈ modifierChars ++ conversionChars, c ≠ chr '.' := forall_chars (by decide)
        simp only [writePrecision, option, nothing, if_true, List.nil_append, parsePrecision,
          if_pos (stop c member)]
      · have star : ¬ chr '-' = chr '*' := by decide
        rw [List.nil_append] at number
        simp only [writePrecision, option, if_neg nothing, List.cons_append, parsePrecision, ne_eq,
          not_true_eq_false, if_false, if_neg star, if_true, number]
  | literal =>
      obtain ⟨c, member, rest, start⟩ := opens.behind (writeNumber_opens fs.prec.toUInt32.toNat)
      have other : ∀ c ∈ digitChars ++ (modifierChars ++ conversionChars),
          c ≠ chr '*' ∧ c ≠ chr '-' := forall_chars (by decide)
      obtain ⟨star, minus⟩ := other c member
      rw [List.nil_append, start] at number
      simp only [writePrecision, option, List.cons_append, parsePrecision, ne_eq, start,
        not_true_eq_false, if_false, if_neg star, if_neg minus, number]
  | star =>
      simp only [writePrecision, option, List.cons_append, List.nil_append, parsePrecision, ne_eq,
        not_true_eq_false, if_false, if_true, wf.starPrec option]

theorem parseLengthModifier_write (fs : FormatSpec) (unset : spec.lengthModifier = .none)
    (opens : Opens conversionChars cur) :
    parseLengthModifier spec (fs.writeLengthModifier ++ cur) =
      ({ spec with lengthModifier := fs.lengthModifier }, cur) := by
  obtain ⟨_, _, _, _, _, _, _, _, lengthModifier, _⟩ := spec
  obtain rfl : lengthModifier = .none := unset
  obtain ⟨c, member, rest, rfl⟩ := opens
  have stop : ∀ c ∈ conversionChars, c ∉ modifierChars := forall_chars (by decide)
  have other := stop c member
  have chars : modifierChars = [chr 'h', chr 'l', chr 'j', chr 'z', chr 't'] := by decide
  simp only [chars, List.mem_cons, not_or] at other
  obtain ⟨h, l, j, z, t, -⟩ := other
  cases modifier : fs.lengthModifier with
  | none =>
      simp only [writeLengthModifier, modifier, List.nil_append, parseLengthModifier, if_neg h,
        if_neg l, if_neg j, if_neg z, if_neg t]
  | short =>
      simp only [writeLengthModifier, modifier, List.cons_append, List.nil_append,
        parseLengthModifier, List.head?_cons, Option.some.injEq, if_neg h, if_true]
  | long =>
      have other : ¬ chr 'l' = chr 'h' := by decide
      simp only [writeLengthModifier, modifier, List.cons_append, List.nil_append,
        parseLengthModifier, List.head?_cons, Option.some.injEq, if_neg other, if_neg l, if_true]
  | _ =>
      simp only [writeLengthModifier, modifier]
      rfl

theorem FormatSpec.integer_self (zeros : fs.precOpt ≠ .none → fs.leadingZeroPad = false) :
    fs.integer fs.convSpec = fs := by
  have same : (if fs.precOpt ≠ .none then false else fs.leadingZeroPad) = fs.leadingZeroPad := by
    split_ifs with option
    · exact (zeros option).symm
    · rfl
  rw [integer, same]

theorem parseConversion_write (wf : fs.WellFormed held) (rest : List UInt8) :
    parseConversion { fs with convSpec := .percent, caseAdjust := chr 'a' - chr 'A' }
      (fs.conversionChar :: rest) = some (fs, rest) := by
  have converts := wf.converts
  have letters := wf.letters
  obtain ⟨_, _, _, _, _, leadingZeroPad, precOpt, _, _, convSpec, caseAdjust⟩ := fs
  cases convSpec with
  | percent | char | pointer =>
      obtain rfl : precOpt = .none := converts
      obtain rfl : caseAdjust = chr 'a' - chr 'A' := by simpa using letters
      rfl
  | string =>
      obtain rfl : leadingZeroPad = false := converts
      obtain rfl : caseAdjust = chr 'a' - chr 'A' := by simpa using letters
      rfl
  | hexInt =>
      have same := congrArg (fun fs => some (fs, rest)) (integer_self converts)
      rcases letters with rfl | ⟨-, rfl⟩
      · exact same
      · exact same
  | _ =>
      obtain rfl : caseAdjust = chr 'a' - chr 'A' := by simpa using letters
      exact congrArg (fun fs => some (fs, rest)) (integer_self converts)

theorem npfParseFormatSpec_write {outSpec : FormatSpec} (wf : fs.WellFormed outSpec.fieldWidth)
    (rest : List UInt8) : npfParseFormatSpec (fs.write ++ rest) outSpec = some (fs, rest) := by
  have conversion := fs.conversionChar_opens rest
  have modifier := conversion.behind fs.writeLengthModifier_opens
  have precision := modifier.behind fs.writePrecision_opens
  have width : Unflagged (fs.writeFieldWidth ++ (fs.writePrecision ++ (fs.writeLengthModifier ++
      fs.conversionChar :: rest))) := by
    have start : fs.writeFieldWidth = [] ∨ Opens (ascii "*123456789") fs.writeFieldWidth := by
      cases option : fs.fieldWidthOpt with
      | none => exact Or.inl (by rw [writeFieldWidth, option])
      | literal =>
          obtain ⟨c, member, rest, written⟩ := writeNumber_width (widthNumber_pos fs.fieldWidth)
          have wider : ∀ c ∈ ascii "123456789", c ∈ ascii "*123456789" := forall_chars (by decide)
          exact Or.inr ⟨c, wider c member, rest, by rw [writeFieldWidth, option, written]⟩
      | star => exact Or.inr ⟨chr '*', by decide, [], by rw [writeFieldWidth, option]⟩
    obtain ⟨c, member, rest', opened⟩ := precision.behind start
    have other : ∀ c ∈ ascii "*123456789" ++ ([chr '.'] ++ (modifierChars ++ conversionChars)),
        c ∉ [chr '-', chr '0', chr '+', chr ' ', chr '#'] := forall_chars (by decide)
    intro c' head
    rw [opened] at head
    obtain rfl : c = c' := by simpa using head
    exact other c member
  have split : fs.write ++ rest = fs.writeFlags ++ (fs.writeFieldWidth ++ (fs.writePrecision ++
      (fs.writeLengthModifier ++ fs.conversionChar :: rest))) := by
    simp only [write, List.append_assoc, List.cons_append, List.nil_append]
  rw [npfParseFormatSpec, split, parseFlags_write wf.toFlagged outSpec.fieldWidth width]
  dsimp only
  rw [parseFieldWidth_write wf ?_ ?_ precision]
  dsimp only
  rw [parsePrecision_write wf ?_ ?_ modifier]
  dsimp only
  rw [parseLengthModifier_write fs ?_ conversion]
  · exact parseConversion_write wf rest
  all_goals rfl

/-! ## Reading on -/

theorem pieces_nil : pieces [] = [] := rfl

theorem piecesLoop_enough (fuel : Nat) (cur : List UInt8) (enough : cur.length ≤ fuel) :
    piecesLoop fuel cur = pieces cur := by
  have same (fuel fuel' : Nat) (cur : List UInt8) (enough : cur.length ≤ fuel)
      (enough' : cur.length ≤ fuel') : piecesLoop fuel cur = piecesLoop fuel' cur := by
    induction fuel generalizing fuel' cur with
    | zero =>
        obtain rfl := List.length_eq_zero_iff.mp (Nat.le_zero.mp enough)
        cases fuel' <;> rfl
    | succ fuel ih =>
        cases cur with
        | nil => cases fuel' <;> rfl
        | cons c cur =>
            cases fuel' with
            | zero => simp at enough'
            | succ fuel' =>
                have shorter : cur.length ≤ fuel := by simpa using enough
                have shorter' : cur.length ≤ fuel' := by simpa using enough'
                unfold piecesLoop
                cases parsed : if c = chr '%' then npfParseFormatSpec cur else none with
                | none => simp only [ih fuel' cur shorter shorter']
                | some spec =>
                    have taken : npfParseFormatSpec cur = some (spec.1, spec.2) := by
                      split_ifs at parsed
                      exact parsed
                    have length := npfParseFormatSpec_length taken
                    simp only [ih fuel' spec.2 (length.trans shorter) (length.trans shorter')]
  exact same fuel cur.length cur enough (Nat.le_refl _)

theorem pieces_char {c : UInt8} (none : (if c = chr '%' then npfParseFormatSpec cur else none) = none) :
    pieces (c :: cur) = .char c :: pieces cur := by
  rw [pieces, List.length_cons, piecesLoop, none]
  rfl

theorem pieces_spec (parsed : npfParseFormatSpec cur = some (fs, rest)) :
    pieces (chr '%' :: cur) = .spec fs :: pieces rest := by
  rw [pieces, List.length_cons, piecesLoop, if_pos rfl, parsed]
  simp only [piecesLoop_enough cur.length rest (npfParseFormatSpec_length parsed)]

/-- A stage reads no character behind the one it stops at, and stops at every percent sign. -/
structure Stage (stage : FormatSpec → List UInt8 → FormatSpec × List UInt8) : Prop where
  append : ∀ spec cur more, (stage spec cur).2 ≠ [] →
    stage spec (cur ++ more) = ((stage spec cur).1, (stage spec cur).2 ++ more)
  percent : ∀ spec cur, chr '%' ∈ cur → chr '%' ∈ (stage spec cur).2
  nil : ∀ spec, (stage spec []).2 = []

theorem parseDigits_append (value : Int32) (cur more : List UInt8)
    (stopped : (parseDigits value cur).2 ≠ []) :
    parseDigits value (cur ++ more) = ((parseDigits value cur).1, (parseDigits value cur).2 ++ more) := by
  induction cur generalizing value with
  | nil => exact absurd rfl stopped
  | cons c cur ih =>
      rw [parseDigits] at stopped
      rw [List.cons_append, parseDigits, parseDigits]
      split_ifs with digit
      · rw [if_pos digit] at stopped
        exact ih _ stopped
      · rfl

theorem parseDigits_percent (value : Int32) (cur : List UInt8) (member : chr '%' ∈ cur) :
    chr '%' ∈ (parseDigits value cur).2 := by
  induction cur generalizing value with
  | nil => exact member
  | cons c cur ih =>
      rw [parseDigits]
      split_ifs with digit
      · have other : chr '%' ≠ c := by
          rintro rfl
          exact absurd digit (by decide)
        exact ih _ ((List.mem_cons.mp member).resolve_left other)
      · exact member

theorem parseFlags_stage : Stage parseFlags where
  append := by
    intro spec cur more stopped
    induction cur generalizing spec with
    | nil => exact absurd rfl stopped
    | cons c cur ih =>
        unfold parseFlags at stopped
        rw [List.cons_append, parseFlags, parseFlags]
        split_ifs at stopped ⊢
        iterate 6
          · exact ih _ stopped
        rfl
  percent := by
    intro spec cur member
    induction cur generalizing spec with
    | nil => exact member
    | cons c cur ih =>
        have other : ∀ c ∈ [chr '-', chr '0', chr '+', chr ' ', chr '#'], chr '%' ≠ c := forall_chars (by decide)
        have later (flag : c ∈ [chr '-', chr '0', chr '+', chr ' ', chr '#']) : chr '%' ∈ cur :=
          (List.mem_cons.mp member).resolve_left (other c flag)
        unfold parseFlags
        split_ifs with minus zero plus space empty alt
        iterate 6
          · exact ih _ (later (by simp [*]))
        exact member
  nil := fun _ => rfl

theorem parseFieldWidth_stage : Stage parseFieldWidth where
  append := by
    intro spec cur more stopped
    cases cur with
    | nil => exact absurd rfl stopped
    | cons c cur =>
        simp only [parseFieldWidth, List.cons_append] at stopped ⊢
        split_ifs at stopped ⊢ with star digit
        · rfl
        · have number := parseDigits_append 0 (c :: cur) more stopped
          rw [List.cons_append] at number
          rw [number]
        · rfl
  percent := by
    intro spec cur member
    cases cur with
    | nil => exact member
    | cons c cur =>
        simp only [parseFieldWidth]
        split_ifs with star digit
        · have other : chr '%' ≠ c := by
            rintro rfl
            exact absurd star (by decide)
          exact (List.mem_cons.mp member).resolve_left other
        · exact parseDigits_percent 0 (c :: cur) member
        · exact member
  nil := fun _ => rfl

theorem parsePrecision_stage : Stage parsePrecision where
  append := by
    intro spec cur more stopped
    cases cur with
    | nil => exact absurd rfl stopped
    | cons c cur =>
        by_cases dot : c = chr '.'
        · cases cur with
          | nil => simp [parsePrecision, dot] at stopped
          | cons d cur =>
              simp only [parsePrecision, dot, List.cons_append, ne_eq, not_true_eq_false,
                if_false] at stopped ⊢
              split_ifs at stopped ⊢ with star minus
              · rfl
              · rw [parseDigits_append 0 cur more stopped]
              · have number := parseDigits_append 0 (d :: cur) more stopped
                rw [List.cons_append] at number
                rw [number]
        · simp only [parsePrecision, List.cons_append, ne_eq, dot, not_false_eq_true, if_true]
  percent := by
    intro spec cur member
    cases cur with
    | nil => exact member
    | cons c cur =>
        by_cases dot : c = chr '.'
        · have other : chr '%' ≠ c := by
            rintro rfl
            exact absurd dot (by decide)
          have member := (List.mem_cons.mp member).resolve_left other
          cases cur with
          | nil => exact absurd member List.not_mem_nil
          | cons d cur =>
              have later (sign : d ∈ [chr '*', chr '-']) : chr '%' ∈ cur := by
                have other : ∀ d ∈ [chr '*', chr '-'], chr '%' ≠ d := forall_chars (by decide)
                exact (List.mem_cons.mp member).resolve_left (other d sign)
              simp only [parsePrecision, dot, ne_eq, not_true_eq_false, if_false]
              split_ifs with star minus
              · exact later (by simp [star])
              · exact parseDigits_percent 0 cur (later (by simp [minus]))
              · exact parseDigits_percent 0 (d :: cur) member
        · simpa only [parsePrecision, ne_eq, dot, not_false_eq_true, if_true] using member
  nil := fun _ => rfl

theorem parseLengthModifier_stage : Stage parseLengthModifier where
  append := by
    intro spec cur more stopped
    rcases cur with _ | ⟨c, _ | ⟨d, cur⟩⟩
    · exact absurd rfl stopped
    · simp only [parseLengthModifier, List.cons_append] at stopped ⊢
      split_ifs at stopped ⊢ <;> simp_all
    · simp only [parseLengthModifier, List.cons_append, List.head?_cons, Option.some.injEq]
      split_ifs <;> rfl
  percent := by
    intro spec cur member
    cases cur with
    | nil => exact member
    | cons c cur =>
        have taken (modifier : c ∈ modifierChars) : chr '%' ∈ cur := by
          have other : ∀ c ∈ modifierChars, chr '%' ≠ c := forall_chars (by decide)
          exact (List.mem_cons.mp member).resolve_left (other c modifier)
        have doubled {d : UInt8} (modifier : c ∈ modifierChars) (other : chr '%' ≠ d)
            (head : cur.head? = some d) : chr '%' ∈ cur.tail := by
          obtain ⟨tail, rfl⟩ := List.head?_eq_some_iff.mp head
          exact (List.mem_cons.mp (taken modifier)).resolve_left other
        simp only [parseLengthModifier]
        split_ifs with h hh l ll j z t
        · exact doubled (by simp [h]; decide) (by decide) hh
        · exact taken (by simp [h]; decide)
        · exact doubled (by simp [l]; decide) (by decide) ll
        · exact taken (by simp [l]; decide)
        · exact taken (by simp [j]; decide)
        · exact taken (by simp [z]; decide)
        · exact taken (by simp [t]; decide)
        · exact member
  nil := fun _ => rfl

theorem Stage.andThen {first second : FormatSpec → List UInt8 → FormatSpec × List UInt8}
    (former : Stage first) (later : Stage second) : Stage (andThen first second) where
  append := by
    intro spec cur more stopped
    have between : (first spec cur).2 ≠ [] := by
      intro nothing
      rw [External.andThen, nothing] at stopped
      exact stopped (later.nil _)
    simp only [External.andThen, former.append spec cur more between,
      later.append (first spec cur).1 (first spec cur).2 more stopped]
  percent := fun spec cur member => later.percent _ _ (former.percent spec cur member)
  nil := by
    intro spec
    rw [External.andThen, former.nil]
    exact later.nil _

theorem parseParts_stage : Stage parseParts :=
  ((parseFlags_stage.andThen parseFieldWidth_stage).andThen parsePrecision_stage).andThen
    parseLengthModifier_stage

theorem parseConversion_append (spec : FormatSpec) (more : List UInt8) (nonempty : cur ≠ []) :
    parseConversion spec (cur ++ more) =
      (parseConversion spec cur).map fun parsed => (parsed.1, parsed.2 ++ more) := by
  cases cur with
  | nil => contradiction
  | cons c cur =>
      rw [List.cons_append, parseConversion_cons, parseConversion_cons, Option.map_map]
      rfl

/-- What stands behind a percent sign does not make a specification of the text before it. -/
theorem npfParseFormatSpec_percent (member : chr '%' ∈ cur) (more : List UInt8) :
    npfParseFormatSpec (cur ++ more) = none ↔ npfParseFormatSpec cur = none := by
  have stopped : (parseParts {} cur).2 ≠ [] :=
    List.ne_nil_of_mem (parseParts_stage.percent {} cur member)
  rw [npfParseFormatSpec_parts, npfParseFormatSpec_parts, parseParts_stage.append {} cur more stopped,
    parseConversion_append _ more stopped, Option.map_eq_none_iff]

/-! ## Normal forms -/

def Piece.write : Piece → List UInt8
  | .char c => [c]
  | .spec fs => chr '%' :: fs.write

def writePieces (ps : List Piece) : List UInt8 := ps.flatMap Piece.write

theorem pieces_cases (c : UInt8) (cur : List UInt8) :
    ((if c = chr '%' then npfParseFormatSpec cur else none) = none ∧
      pieces (c :: cur) = .char c :: pieces cur) ∨
    ∃ fs rest, c = chr '%' ∧ npfParseFormatSpec cur = some (fs, rest) ∧
      pieces (c :: cur) = .spec fs :: pieces rest := by
  cases parsed : if c = chr '%' then npfParseFormatSpec cur else none with
  | none => exact Or.inl ⟨rfl, pieces_char parsed⟩
  | some spec =>
      obtain ⟨fs, rest⟩ := spec
      split_ifs at parsed with percent
      exact Or.inr ⟨fs, rest, percent, parsed, by rw [percent, pieces_spec parsed]⟩

theorem pieces_wellFormed (member : .spec fs ∈ pieces cur) : fs.WellFormed 0 := by
  induction length : cur.length using Nat.strong_induction_on generalizing cur with
  | h n ih =>
      cases cur with
      | nil => cases member
      | cons c cur =>
          rcases pieces_cases c cur with ⟨-, split⟩ | ⟨fs', rest, -, parsed, split⟩
          · rw [split] at member
            have later := (List.mem_cons.mp member).resolve_left (by simp)
            exact ih cur.length (by rw [← length]; exact Nat.lt_succ_self _) later rfl
          · rw [split] at member
            rcases List.mem_cons.mp member with same | later
            · cases same
              exact npfParseFormatSpec_wellFormed parsed
            · have shorter := npfParseFormatSpec_length parsed
              exact ih rest.length (by rw [← length]; exact Nat.lt_succ_of_le shorter) later rfl

/-- Up to its first percent sign, and that one included, a format is its own normal form. -/
theorem writePieces_plain (text : List UInt8) (plain : chr '%' ∉ text) (cur : List UInt8) :
    writePieces (pieces (text ++ cur)) = text ++ writePieces (pieces cur) := by
  induction text with
  | nil => rfl
  | cons c text ih =>
      rw [List.mem_cons, not_or] at plain
      rw [List.cons_append, pieces_char (if_neg fun same => plain.1 same.symm), writePieces,
        List.flatMap_cons, ← writePieces, ih plain.2]
      rfl

theorem writePieces_percent (cur : List UInt8) :
    ∃ more, writePieces (pieces (chr '%' :: cur)) = chr '%' :: more := by
  rcases pieces_cases (chr '%') cur with ⟨-, split⟩ | ⟨fs, rest, -, -, split⟩
  · exact ⟨_, by rw [split, writePieces, List.flatMap_cons]; rfl⟩
  · exact ⟨_, by rw [split, writePieces, List.flatMap_cons]; rfl⟩

theorem npfParseFormatSpec_none (unparsed : npfParseFormatSpec cur = none) :
    npfParseFormatSpec (writePieces (pieces cur)) = none := by
  by_cases member : chr '%' ∈ cur
  · obtain ⟨text, more, rfl, plain⟩ := List.eq_append_cons_of_mem member
    obtain ⟨more', written⟩ := writePieces_percent more
    have split (more : List UInt8) : text ++ chr '%' :: more = (text ++ [chr '%']) ++ more := by
      simp
    have inside : chr '%' ∈ text ++ [chr '%'] := by simp
    rw [writePieces_plain text plain, written, split, npfParseFormatSpec_percent inside]
    rwa [split, npfParseFormatSpec_percent inside] at unparsed
  · have plain := writePieces_plain cur member []
    rw [List.append_nil] at plain
    rw [plain]
    simpa [writePieces, pieces_nil] using unparsed

theorem pieces_write (format : List UInt8) : pieces (writePieces (pieces format)) = pieces format := by
  induction length : format.length using Nat.strong_induction_on generalizing format with
  | h n ih =>
      cases format with
      | nil => rfl
      | cons c cur =>
          rcases pieces_cases c cur with ⟨unparsed, split⟩ | ⟨fs, rest, rfl, parsed, split⟩
          · have later := ih cur.length (by rw [← length]; exact Nat.lt_succ_self _) cur rfl
            have stays : (if c = chr '%' then npfParseFormatSpec (writePieces (pieces cur)) else none) =
                none := by
              split_ifs at unparsed ⊢
              · exact npfParseFormatSpec_none unparsed
              · rfl
            have written : writePieces (.char c :: pieces cur) = c :: writePieces (pieces cur) := rfl
            rw [split, written, pieces_char stays, later]
          · have shorter := npfParseFormatSpec_length parsed
            have later := ih rest.length (by rw [← length]; exact Nat.lt_succ_of_le shorter) rest rfl
            have back := npfParseFormatSpec_write (npfParseFormatSpec_wellFormed parsed)
              (writePieces (pieces rest))
            have written : writePieces (.spec fs :: pieces rest) =
                chr '%' :: (fs.write ++ writePieces (pieces rest)) := rfl
            rw [split, written, pieces_spec back, later]

/-! ## The width held before -/

def FormatSpec.holding (fs : FormatSpec) (held : Int32) : FormatSpec :=
  { fs with fieldWidth := if fs.fieldWidthOpt = .star then held else fs.fieldWidth }

theorem parseFlags_held (spec : FormatSpec) (cur : List UInt8) (held : Int32) :
    parseFlags { spec with fieldWidth := held } cur =
      ({ (parseFlags spec cur).1 with fieldWidth := held }, (parseFlags spec cur).2) := by
  induction cur generalizing spec with
  | nil => rfl
  | cons c cur ih =>
      unfold parseFlags
      split_ifs with minus zero plus space empty alt
      · exact ih { spec with leftJustified := true, leadingZeroPad := false }
      · exact ih { spec with leadingZeroPad := !spec.leftJustified }
      · exact ih { spec with prepend := chr '+' }
      · exact ih { spec with prepend := chr ' ' }
      · exact ih spec
      · exact ih { spec with altForm := true }
      · rfl

theorem parseFieldWidth_held (unset : spec.fieldWidthOpt = .none) (cur : List UInt8)
    (held : Int32) :
    parseFieldWidth { spec with fieldWidth := held } cur =
      ((parseFieldWidth spec cur).1.holding held, (parseFieldWidth spec cur).2) := by
  obtain ⟨_, _, fieldWidthOpt, _⟩ := spec
  obtain rfl : fieldWidthOpt = .none := unset
  cases cur with
  | nil => rfl
  | cons c cur =>
      simp only [parseFieldWidth]
      split_ifs <;> rfl

theorem parsePrecision_held (spec : FormatSpec) (cur : List UInt8) (held : Int32) :
    parsePrecision (spec.holding held) cur =
      ((parsePrecision spec cur).1.holding held, (parsePrecision spec cur).2) := by
  cases cur with
  | nil => rfl
  | cons c cur =>
      simp only [parsePrecision]
      split_ifs
      · rfl
      · cases cur with
        | nil => rfl
        | cons d cur =>
            simp only
            split_ifs <;> rfl

theorem parseLengthModifier_held (spec : FormatSpec) (cur : List UInt8) (held : Int32) :
    parseLengthModifier (spec.holding held) cur =
      ((parseLengthModifier spec cur).1.holding held, (parseLengthModifier spec cur).2) := by
  cases cur with
  | nil => rfl
  | cons c cur =>
      simp only [parseLengthModifier]
      split_ifs <;> rfl

theorem FormatSpec.convertAt_held (spec : FormatSpec) (c : UInt8) (held : Int32) :
    (spec.holding held).convertAt c = (spec.convertAt c).map (holding · held) := by
  simp only [convertAt, apply_ite (Option.map (holding · held)), Option.map_some, Option.map_none]
  rfl

/-- The width held before stays where a star is read, and nowhere else. -/
theorem npfParseFormatSpec_held (cur : List UInt8) (outSpec : FormatSpec) :
    npfParseFormatSpec cur outSpec =
      (npfParseFormatSpec cur).map fun parsed =>
        (parsed.1.holding outSpec.fieldWidth, parsed.2) := by
  have fresh : FormatSpec.Unset {} 0 := ⟨rfl, rfl, rfl, rfl⟩
  have unset := (parseFlags_unset fresh cur).noWidth
  have parts : parseParts { fieldWidth := outSpec.fieldWidth } cur =
      ((parseParts {} cur).1.holding outSpec.fieldWidth, (parseParts {} cur).2) := by
    have flags : parseFlags { fieldWidth := outSpec.fieldWidth } cur =
        ({ (parseFlags {} cur).1 with fieldWidth := outSpec.fieldWidth }, (parseFlags {} cur).2) :=
      parseFlags_held {} cur outSpec.fieldWidth
    simp only [parseParts, andThen]
    rw [flags, parseFieldWidth_held unset, parsePrecision_held, parseLengthModifier_held]
  rw [npfParseFormatSpec_parts, npfParseFormatSpec_parts, parts]
  cases (parseParts {} cur).2 with
  | nil => rfl
  | cons c rest =>
      rw [parseConversion_cons, parseConversion_cons, FormatSpec.convertAt_held, Option.map_map,
        Option.map_map]
      rfl

/-- No text depends on it, as the argument of the star takes its place. -/
theorem FormatSpec.print_holding (fs : FormatSpec) (held : Int32) (args : List Arg) :
    (fs.holding held).print args = fs.print args := by
  have same : extractStars (fs.holding held) args = extractStars fs args := by
    obtain ⟨_, _, fieldWidthOpt, _⟩ := fs
    cases fieldWidthOpt with
    | star => rcases args with _ | ⟨_ | _, args⟩ <;> rfl
    | _ => rfl
  rw [print, print, same]

theorem spec_returned_iff (outSpec fs : FormatSpec) :
    ((∃ cur rest, npfParseFormatSpec cur outSpec = some (fs, rest)) ↔
        fs.WellFormed outSpec.fieldWidth) ∧
      (fs.WellFormed outSpec.fieldWidth ↔
        ∀ rest, npfParseFormatSpec (fs.write ++ rest) outSpec = some (fs, rest)) ∧
      ∀ cur rest, npfParseFormatSpec cur outSpec = some (fs, rest) →
        ∃ fs', npfParseFormatSpec cur = some (fs', rest) ∧ ∀ args, fs.print args = fs'.print args := by
  refine ⟨⟨fun returned => ?_, fun wf => ?_⟩, ⟨npfParseFormatSpec_write, fun back => ?_⟩,
    fun cur rest parsed => ?_⟩
  · obtain ⟨cur, rest, parsed⟩ := returned
    exact npfParseFormatSpec_wellFormed parsed
  · exact ⟨fs.write ++ [], [], npfParseFormatSpec_write wf []⟩
  · exact npfParseFormatSpec_wellFormed (back [])
  · rw [npfParseFormatSpec_held, Option.map_eq_some_iff] at parsed
    obtain ⟨⟨fs', rest'⟩, parsed, same⟩ := parsed
    cases same
    exact ⟨fs', parsed, fs'.print_holding outSpec.fieldWidth⟩

/-- Every format prints as the normal form of its pieces does, and writing the pieces again
changes nothing. -/
theorem format_normal_form (format : List UInt8) :
    pieces (writePieces (pieces format)) = pieces format ∧
      ∀ args, npfVpprintf (writePieces (pieces format)) args = npfVpprintf format args := by
  refine ⟨pieces_write format, fun args => ?_⟩
  rw [npfVpprintf_eq, npfVpprintf_eq, pieces_write]

example : writePieces (pieces (ascii "%0-+ 5i|%hhX|%%|%y")) = ascii "%-+5d|%hhX|%%|%y" := by decide

/-! ## Formats behind one another -/

theorem FormatSpec.print_append {args : List Arg} (count : fs.wanted ≤ args.length)
    (args' : List Arg) :
    fs.print (args ++ args') = (fs.print args).map fun printed => (printed.1, printed.2 ++ args') := by
  cases printed : fs.print args with
  | some result =>
      obtain ⟨text, rest⟩ := result
      obtain ⟨taken, -, rfl, enough⟩ := fs.print_taken printed
      rw [List.append_assoc, enough]
      rfl
  | none =>
      cases more : fs.print (args ++ args') with
      | none => rfl
      | some result =>
          obtain ⟨taken, length, split, enough⟩ := fs.print_taken more
          have front : taken = args.take fs.wanted := by
            rw [← length, ← List.take_append_of_le_length (length ▸ count), split, List.take_left]
          have again := enough (args.drop fs.wanted)
          rw [front, List.take_append_drop, printed] at again
          cases again

theorem printPieces_append {ps : List Piece} {args : List Arg} (count : args.length = wanted ps)
    (qs : List Piece) (args' : List Arg) :
    printPieces (ps ++ qs) (args ++ args') =
      (printPieces ps args).bind fun text => (printPieces qs args').map (text ++ ·) := by
  induction ps generalizing args with
  | nil =>
      obtain rfl := List.length_eq_zero_iff.mp count
      simp [printPieces]
  | cons p ps ih =>
      cases p with
      | char c =>
          have count' : args.length = wanted ps := by simpa [wanted, Piece.wanted] using count
          simp only [List.cons_append, printPieces, ih count', Option.bind_map, Option.map_bind]
          congr 1
          funext text
          simp [Function.comp_def]
      | spec fs =>
          have sum : args.length = fs.wanted + wanted ps := count
          have first := fs.print_append (Nat.le.intro sum.symm) args'
          simp only [List.cons_append, printPieces, first]
          cases printed : fs.print args with
          | none => rfl
          | some result =>
              obtain ⟨text, rest⟩ := result
              obtain ⟨taken, length, rfl, -⟩ := fs.print_taken printed
              have count' : rest.length = wanted ps := by
                rw [List.length_append] at sum
                omega
              simp only [Option.map_some, bind, Option.bind_some, ih count', Option.bind_map,
                Option.map_bind]
              congr 1
              funext more
              simp [Function.comp_def]

theorem npfVpprintf_append {format more : List UInt8} {args : List Arg}
    (split : pieces (format ++ more) = pieces format ++ pieces more)
    (count : args.length = wanted (pieces format)) (args' : List Arg) :
    npfVpprintf (format ++ more) (args ++ args') =
      (npfVpprintf format args).bind fun text => (npfVpprintf more args').map (text ++ ·) := by
  rw [npfVpprintf_eq, npfVpprintf_eq, npfVpprintf_eq, split, printPieces_append count]

theorem printPieces_chars (text : List UInt8) (ps : List Piece) (args : List Arg) :
    printPieces (text.map .char ++ ps) args = (printPieces ps args).map (text ++ ·) := by
  induction text with
  | nil => simp
  | cons c text ih =>
      simp only [List.map_cons, List.cons_append, printPieces, ih, Option.map_map]
      rfl

theorem printPieces_spec {args rest : List Arg} {text : List UInt8}
    (printed : fs.print args = some (text, rest)) (ps : List Piece) :
    printPieces (.spec fs :: ps) args = (printPieces ps rest).map (text ++ ·) := by
  simp only [printPieces, printed, bind, Option.bind]

end Sphynx.External

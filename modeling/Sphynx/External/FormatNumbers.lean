import Sphynx.External.FormatSpecs
import Sphynx.Lib.Numerals

/-!
# Printed integers read back

What a reader of the printed text finds in it, for every integer conversion with all its flags,
widths and precisions.
-/

namespace Sphynx.External
open Lib

/-! ## What an integer conversion prints -/

namespace FormatSpec
variable (fs : FormatSpec)

def Integer : Prop :=
  fs.convSpec = .signedInt ∨ fs.convSpec = .octal ∨ fs.convSpec = .hexInt ∨
    fs.convSpec = .unsignedInt ∨ fs.convSpec = .pointer

instance : Decidable fs.Integer := inferInstanceAs (Decidable (_ ∨ _))

def base : Nat :=
  match fs.convSpec with
  | .octal => 8
  | .hexInt | .pointer => 16
  | _ => 10

def value (w : UInt64) : Int :=
  match fs.convSpec with
  | .signedInt => signedValue fs.lengthModifier w
  | .pointer => w.toNat
  | _ => unsignedValue fs.lengthModifier w

def convertWord (w : UInt64) : Converted :=
  match fs.convSpec with
  | .signedInt => convertSigned fs w
  | .pointer =>
      { payload := (npfUtoaRev 16 (chr 'a' - chr 'A') 64 w.toNat).reverse
        need0x := chr 'x'
        prec := fs.prec }
  | _ => convertUnsigned fs w

/-- A zero for which no digit is asked. -/
def Blank (w : UInt64) : Prop :=
  fs.value w = 0 ∧ fs.precOpt = .literal ∧ fs.prec = 0 ∧ ¬ (fs.convSpec = .octal ∧ fs.altForm = true)

instance (w : UInt64) : Decidable (fs.Blank w) := inferInstanceAs (Decidable (_ ∧ _))

/-- The zeros that pad a left-justified number, as a negative star makes them. -/
def zerosBehind (w : UInt64) : Nat :=
  if fs.leftJustified = true ∧ fs.leadingZeroPad = true ∧ fs.fieldWidthOpt = .literal then
    let unpadded := render { fs with fieldWidthOpt := .none } (fs.convertWord w)
    (fs.fieldWidth - .ofNat unpadded.length).toNatClampNeg
  else 0

end FormatSpec

variable {fs : FormatSpec}

theorem convert_word (integer : fs.Integer) (w : UInt64) (rest : List Arg) :
    convert fs (.word w :: rest) = some (fs.convertWord w, rest) := by
  rcases integer with kind | kind | kind | kind | kind <;>
    simp only [convert, FormatSpec.convertWord, kind]

/-! ## Digits -/

theorem npfUtoaRev_spells {base : Nat} (large : 2 ≤ base) (small : base ≤ 36) {caseAdj : UInt8}
    (letters : caseAdj = chr 'a' - chr 'A' ∨ caseAdj = 0) (fuel n : Nat) (fits : n < base ^ fuel) :
    ∃ ds, Spells base (npfUtoaRev base caseAdj fuel n) ds ∧ Nat.ofDigits base ds = n := by
  have char : ∀ d < 36, digitValue
      (if d < 10 then chr '0' + d.toUInt8 else chr 'A' + caseAdj + (d - 10).toUInt8) = some d := by
    rcases letters with rfl | rfl <;> decide
  induction fuel generalizing n with
  | zero =>
      obtain rfl : n = 0 := by simpa using fits
      exact ⟨[], List.Forall₂.nil, rfl⟩
  | succ fuel ih =>
      have digit : n % base < base := Nat.mod_lt n (by omega)
      have first : digitBelow base (if n % base < 10 then chr '0' + (n % base).toUInt8
          else chr 'A' + caseAdj + (n % base - 10).toUInt8) = some (n % base) := by
        rw [digitBelow, char (n % base) (by omega)]
        simp [Option.filter, digit]
      rw [npfUtoaRev]
      by_cases last : n / base = 0
      · rw [if_pos last]
        refine ⟨[n % base], List.Forall₂.cons first List.Forall₂.nil, ?_⟩
        rw [Nat.ofDigits_singleton]
        have split := Nat.mod_add_div n base
        rw [last] at split
        simpa using split
      · rw [if_neg last]
        have fits' : n / base < base ^ fuel := Nat.div_lt_of_lt_mul (by rwa [pow_succ'] at fits)
        obtain ⟨ds, spells, value⟩ := ih (n / base) fits'
        refine ⟨n % base :: ds, List.Forall₂.cons first spells, ?_⟩
        rw [Nat.ofDigits_cons, value]
        exact Nat.mod_add_div n base

theorem npfUtoaRev_ne_nil (base : Nat) (caseAdj : UInt8) (n : Nat) :
    npfUtoaRev base caseAdj 64 n ≠ [] := by
  rw [npfUtoaRev]
  exact List.cons_ne_nil _ _

theorem npfUtoaRev_reads {base : Nat} (large : 2 ≤ base) (small : base ≤ 36) {caseAdj : UInt8}
    (letters : caseAdj = chr 'a' - chr 'A' ∨ caseAdj = 0) {n : Nat} (fits : n < 2 ^ 64) :
    ∃ ds, Spells base (npfUtoaRev base caseAdj 64 n).reverse ds ∧
      Nat.ofDigits base ds.reverse = n := by
  have enough : n < base ^ 64 := Nat.lt_of_lt_of_le fits (Nat.pow_le_pow_left large 64)
  obtain ⟨ds, spells, value⟩ := npfUtoaRev_spells large small letters 64 n enough
  refine ⟨ds.reverse, List.rel_reverse spells, ?_⟩
  rw [List.reverse_reverse, value]

/-! ## Values -/

theorem signedValue_natAbs (modifier : LengthModifier) (w : UInt64) :
    (signedValue modifier w).natAbs < 2 ^ 64 := by
  have long := And.intro w.toInt64.le_toInt w.toInt64.toInt_lt
  cases modifier with
  | none =>
      have range := And.intro w.toUInt32.toInt32.le_toInt w.toUInt32.toInt32.toInt_lt
      simp only [signedValue]
      omega
  | short =>
      have range := And.intro w.toUInt16.toInt16.le_toInt w.toUInt16.toInt16.toInt_lt
      simp only [signedValue]
      omega
  | char =>
      have range := And.intro w.toUInt8.toInt8.le_toInt w.toUInt8.toInt8.toInt_lt
      simp only [signedValue]
      omega
  | _ =>
      simp only [signedValue]
      omega

theorem unsignedValue_lt (modifier : LengthModifier) (w : UInt64) :
    unsignedValue modifier w < 2 ^ 64 := by
  cases modifier with
  | none => exact Nat.lt_trans w.toUInt32.toNat_lt (by decide)
  | short => exact Nat.lt_trans w.toUInt16.toNat_lt (by decide)
  | char => exact Nat.lt_trans w.toUInt8.toNat_lt (by decide)
  | _ => exact w.toNat_lt

/-- A sign, a mark and digits that make up the value. -/
structure Converted.ReadsAs (base : Nat) (value : Int) (conv : Converted) : Prop where
  sign : conv.signC = 0 ∨ conv.signC = chr ' ' ∨ conv.signC = chr '+' ∨ conv.signC = chr '-'
  negative : conv.signC = chr '-' ↔ value < 0
  mark : conv.need0x = 0 ∨
    base = 16 ∧ conv.signC = 0 ∧ conv.payload ≠ [] ∧
      (conv.need0x = chr 'x' ∨ conv.need0x = chr 'X')
  digits : ∃ ds, Spells base conv.payload ds ∧ Nat.ofDigits base ds.reverse = value.natAbs

theorem convertSigned_reads (prepend : fs.prepend = 0 ∨ fs.prepend = chr ' ' ∨ fs.prepend = chr '+')
    (w : UInt64) : (convertSigned fs w).ReadsAs 10 (signedValue fs.lengthModifier w) := by
  have minus : fs.prepend ≠ chr '-' := by
    rcases prepend with prepend | prepend | prepend <;> rw [prepend] <;> decide
  refine ⟨?_, ?_, Or.inl rfl, ?_⟩
  · simp only [convertSigned]
    split_ifs
    · exact Or.inr (Or.inr (Or.inr rfl))
    · rcases prepend with prepend | prepend | prepend <;> simp [prepend]
  · simp only [convertSigned]
    split_ifs with negative
    · simp [negative]
    · simp [negative, minus]
  · simp only [convertSigned]
    split_ifs with skipped
    · refine ⟨[], List.Forall₂.nil, ?_⟩
      rw [skipped.1]
      rfl
    · exact npfUtoaRev_reads (by decide) (by decide) (Or.inr rfl) (signedValue_natAbs _ _)

theorem convertUnsigned_payload
    (kind : fs.convSpec = .octal ∨ fs.convSpec = .hexInt ∨ fs.convSpec = .unsignedInt) (w : UInt64) :
    (convertUnsigned fs w).payload =
      (if unsignedValue fs.lengthModifier w ≠ 0 ∧ fs.altForm = true ∧ fs.convSpec = .octal then [48]
        else []) ++
      if unsignedValue fs.lengthModifier w = 0 ∧ fs.precOpt = .literal ∧ fs.prec = 0 then []
      else (npfUtoaRev fs.base fs.caseAdjust 64 (unsignedValue fs.lengthModifier w)).reverse := by
  rcases kind with kind | kind | kind <;>
    simp only [convertUnsigned, FormatSpec.base, kind, decide_eq_true_eq] <;> rfl

theorem convertUnsigned_reads
    (kind : fs.convSpec = .octal ∨ fs.convSpec = .hexInt ∨ fs.convSpec = .unsignedInt)
    (letters : fs.caseAdjust = chr 'a' - chr 'A' ∨ fs.caseAdjust = 0) (w : UInt64) :
    (convertUnsigned fs w).ReadsAs fs.base (unsignedValue fs.lengthModifier w) := by
  have payload := convertUnsigned_payload kind w
  have range : 2 ≤ fs.base ∧ fs.base ≤ 36 := by
    rcases kind with kind | kind | kind <;> simp [FormatSpec.base, kind]
  have nonneg : ¬ (unsignedValue fs.lengthModifier w : Int) < 0 := by omega
  refine ⟨Or.inl rfl, ?_, ?_, ?_⟩
  · simp only [convertUnsigned, nonneg, iff_false]
    decide
  · by_cases marked : unsignedValue fs.lengthModifier w ≠ 0 ∧ fs.altForm = true ∧ fs.convSpec = .hexInt
    · have letter : (convertUnsigned fs w).need0x = chr 'X' + fs.caseAdjust := if_pos marked
      refine Or.inr ⟨by rw [FormatSpec.base, marked.2.2], rfl, ?_, ?_⟩
      · have whole : ¬ (unsignedValue fs.lengthModifier w = 0 ∧ fs.precOpt = .literal ∧ fs.prec = 0) :=
          fun skipped => marked.1 skipped.1
        rw [payload, if_neg whole]
        exact List.append_ne_nil_of_right_ne_nil _ (by simpa using npfUtoaRev_ne_nil _ _ _)
      · rw [letter]
        rcases letters with letters | letters <;> rw [letters]
        · exact Or.inl (by decide)
        · exact Or.inr (by decide)
    · exact Or.inl (if_neg marked)
  · have digits : ∃ ds, Spells fs.base (if unsignedValue fs.lengthModifier w = 0 ∧
        fs.precOpt = .literal ∧ fs.prec = 0 then []
        else (npfUtoaRev fs.base fs.caseAdjust 64 (unsignedValue fs.lengthModifier w)).reverse) ds ∧
        Nat.ofDigits fs.base ds.reverse = unsignedValue fs.lengthModifier w := by
      split_ifs with skipped
      · exact ⟨[], List.Forall₂.nil, skipped.1.symm⟩
      · exact npfUtoaRev_reads range.1 range.2 letters (unsignedValue_lt fs.lengthModifier w)
    obtain ⟨ds, spells, value⟩ := digits
    rw [payload, Int.natAbs_natCast]
    by_cases lead : unsignedValue fs.lengthModifier w ≠ 0 ∧ fs.altForm = true ∧ fs.convSpec = .octal
    · have positive : 0 < fs.base := by omega
      refine ⟨[0] ++ ds, ?_, ?_⟩
      · rw [if_pos lead]
        exact (spells_zeros positive 1).append spells
      · rw [List.reverse_append, Nat.ofDigits_append, value]
        simp
    · rw [if_neg lead]
      exact ⟨ds, spells, value⟩

/-- What is left of a well-formed specification when its stars are filled in. -/
structure FormatSpec.Ready (fs : FormatSpec) : Prop where
  prepend : fs.prepend = 0 ∨ fs.prepend = chr ' ' ∨ fs.prepend = chr '+'
  letters : fs.caseAdjust = chr 'a' - chr 'A' ∨ fs.caseAdjust = 0
  converts : fs.Converts

theorem FormatSpec.Converts.filled (converts : fs.Converts) {fs' : FormatSpec}
    (kind : fs'.convSpec = fs.convSpec) (zeros : fs'.leadingZeroPad = fs.leadingZeroPad)
    (option : fs.precOpt ≠ .star → fs'.precOpt = fs.precOpt) : fs'.Converts := by
  unfold Converts at converts ⊢
  rw [kind, zeros]
  by_cases star : fs.precOpt = .star
  · rw [star] at converts
    cases conv : fs.convSpec <;> simp_all
  · rwa [option star]

theorem extractStars_keeps {fs' : FormatSpec} {args rest : List Arg}
    (starred : extractStars fs args = some (fs', rest)) :
    fs'.prepend = fs.prepend ∧ fs'.caseAdjust = fs.caseAdjust ∧ fs'.convSpec = fs.convSpec ∧
      fs'.leadingZeroPad = fs.leadingZeroPad ∧ (fs.precOpt ≠ .star → fs'.precOpt = fs.precOpt) := by
  obtain ⟨_, _, fieldWidthOpt, _, _, _, precOpt, _⟩ := fs
  cases fieldWidthOpt with
  | star =>
      rcases args with _ | ⟨_ | _, args⟩
      · cases starred
      · cases precOpt with
        | star =>
            rcases args with _ | ⟨_ | _, args⟩ <;> cases starred
            exact ⟨rfl, rfl, rfl, rfl, absurd rfl⟩
        | _ =>
            cases starred
            exact ⟨rfl, rfl, rfl, rfl, fun _ => rfl⟩
      · cases starred
  | _ =>
      cases precOpt with
      | star =>
          rcases args with _ | ⟨_ | _, args⟩ <;> cases starred
          exact ⟨rfl, rfl, rfl, rfl, absurd rfl⟩
      | _ =>
          cases starred
          exact ⟨rfl, rfl, rfl, rfl, fun _ => rfl⟩

theorem extractStars_ready {fs' : FormatSpec} {args rest : List Arg} (wf : fs.WellFormed 0)
    (starred : extractStars fs args = some (fs', rest)) : fs'.Ready := by
  obtain ⟨prepend, letters, kind, zeros, option⟩ := extractStars_keeps starred
  exact ⟨prepend ▸ wf.prepend, letters ▸ wf.letters.imp_right And.right,
    wf.converts.filled kind zeros option⟩

theorem convertWord_reads (ready : fs.Ready) (integer : fs.Integer) (w : UInt64) :
    (fs.convertWord w).ReadsAs fs.base (fs.value w) := by
  rcases integer with kind | kind | kind | kind | kind
  · simpa only [FormatSpec.convertWord, FormatSpec.base, FormatSpec.value, kind] using
      convertSigned_reads ready.prepend w
  · simpa only [FormatSpec.convertWord, FormatSpec.value, kind] using
      convertUnsigned_reads (Or.inl kind) ready.letters w
  · simpa only [FormatSpec.convertWord, FormatSpec.value, kind] using
      convertUnsigned_reads (Or.inr (Or.inl kind)) ready.letters w
  · simpa only [FormatSpec.convertWord, FormatSpec.value, kind] using
      convertUnsigned_reads (Or.inr (Or.inr kind)) ready.letters w
  · obtain ⟨ds, spells, value⟩ := npfUtoaRev_reads (by decide : 2 ≤ 16) (by decide)
      (Or.inl rfl : chr 'a' - chr 'A' = chr 'a' - chr 'A' ∨ _) w.toNat_lt
    have nonneg : ¬ (w.toNat : Int) < 0 := by omega
    simp only [FormatSpec.convertWord, FormatSpec.base, FormatSpec.value, kind]
    have nonempty := npfUtoaRev_ne_nil 16 (chr 'a' - chr 'A') w.toNat
    refine ⟨Or.inl rfl, ?_, Or.inr ⟨rfl, rfl, by simpa using nonempty, Or.inl rfl⟩, ds, spells, ?_⟩
    · simp only [nonneg, iff_false]
      decide
    · rw [value, Int.natAbs_natCast]

/-! ## Where the zeros stand -/

theorem padChar_cases (fs : FormatSpec) (conv : Converted) :
    padChar fs conv = 0 ∨ padChar fs conv = chr ' ' ∨
      padChar fs conv = chr '0' ∧ fs.leadingZeroPad = true ∧ fs.fieldWidthOpt = .literal := by
  unfold padChar
  split_ifs with literal zeros
  · exact Or.inl rfl
  · exact Or.inl rfl
  · exact Or.inr (Or.inl rfl)
  · exact Or.inr (Or.inr ⟨rfl, zeros, not_not.mp literal⟩)
  · exact Or.inr (Or.inl rfl)

def Converted.sign (conv : Converted) : List UInt8 := if conv.signC = 0 then [] else [conv.signC]

def Converted.hex (conv : Converted) : List UInt8 :=
  if conv.need0x = 0 then [] else [chr '0', conv.need0x]

/-- The text without its padding. -/
def plain (fs : FormatSpec) (conv : Converted) : List UInt8 :=
  conv.sign ++ (conv.hex ++ (List.replicate (precPad fs conv).toNatClampNeg 48 ++ conv.payload))

/-- What is left of the width, as the `int`s of the code wrap around. -/
theorem fieldPad_eq (conv : Converted) (counted : conv.cbufLen = .ofNat conv.payload.length) :
    (fieldPad fs conv).toNatClampNeg =
      (fs.fieldWidth - .ofNat (plain fs conv).length).toNatClampNeg := by
  have sign : Int32.ofNat conv.sign.length = if conv.signC = 0 then 0 else 1 := by
    unfold Converted.sign
    split_ifs <;> rfl
  have hex : Int32.ofNat conv.hex.length = if conv.need0x = 0 then 0 else 2 := by
    unfold Converted.hex
    split_ifs <;> rfl
  have zeros : Int32.ofNat (precPad fs conv).toNatClampNeg = precPad fs conv :=
    Int32.ofNat_toNatClampNeg _ (Int32.le_iff_toInt_le.mpr (precPad_nonneg fs conv))
  rw [fieldPad, npfMax_zero, plain, List.length_append, List.length_append, List.length_append,
    List.length_replicate, Int32.ofNat_add, Int32.ofNat_add, Int32.ofNat_add, sign, hex, zeros,
    counted]
  congr 1
  grind

theorem render_eq (conv : Converted) (counted : conv.cbufLen = .ofNat conv.payload.length)
    (kind : fs.convSpec ≠ .string) :
    render fs conv =
      (if !fs.leftJustified ∧ padChar fs conv ≠ 0 then
        if padChar fs conv = chr '0' then conv.sign ++ conv.hex ++
          List.replicate (fs.fieldWidth - .ofNat (plain fs conv).length).toNatClampNeg
            (padChar fs conv)
        else List.replicate (fs.fieldWidth - .ofNat (plain fs conv).length).toNatClampNeg
            (padChar fs conv) ++ conv.hex
      else conv.hex) ++
      ((if !fs.leftJustified ∧ padChar fs conv = chr '0' then [] else conv.sign) ++
        List.replicate (precPad fs conv).toNatClampNeg 48 ++ conv.payload) ++
      if fs.leftJustified ∧ padChar fs conv ≠ 0 then
        List.replicate (fs.fieldWidth - .ofNat (plain fs conv).length).toNatClampNeg
          (padChar fs conv)
      else [] := by
  simp only [render, if_neg kind, fieldPad_eq conv counted]
  rfl

theorem render_unpadded (conv : Converted) (counted : conv.cbufLen = .ofNat conv.payload.length)
    (kind : fs.convSpec ≠ .string) (one : conv.signC = 0 ∨ conv.need0x = 0) :
    render { fs with fieldWidthOpt := .none } conv = plain fs conv := by
  have padding : padChar { fs with fieldWidthOpt := .none } conv = 0 := rfl
  have digit : ¬ (0 : UInt8) = chr '0' := by decide
  have kind' : { fs with fieldWidthOpt := .none }.convSpec ≠ .string := kind
  have zeros : precPad { fs with fieldWidthOpt := .none } conv = precPad fs conv := rfl
  rw [render_eq conv counted kind', padding, zeros]
  simp only [plain]
  rcases one with none | none
  · have nothing : conv.sign = [] := if_pos none
    simp [digit, nothing]
  · have nothing : conv.hex = [] := if_pos none
    simp [digit, nothing]

/-- A number is rendered with its zeros behind the sign and the mark, and blanks around; only a
left-justified one may have zeros behind its digits. -/
theorem render_number {conv : Converted} (counted : conv.cbufLen = .ofNat conv.payload.length)
    (kind : fs.convSpec ≠ .string) (one : conv.signC = 0 ∨ conv.need0x = 0) :
    ∃ k zeros m, (precPad fs conv).toNatClampNeg ≤ zeros ∧
      ((precPad fs conv).toNatClampNeg = 0 → padChar fs conv ≠ chr '0' → zeros = 0) ∧
      render fs conv = List.replicate k 32 ++ (conv.sign ++ (conv.hex ++
        ((List.replicate zeros 48 ++ (conv.payload ++
          (List.replicate (if fs.leftJustified = true ∧ padChar fs conv = chr '0' then
            (fs.fieldWidth - .ofNat (plain fs conv).length).toNatClampNeg else 0) 48))) ++
              List.replicate m 32))) := by
  have swap : conv.hex ++ conv.sign = conv.sign ++ conv.hex := by
    rcases one with none | none
    · rw [Converted.sign, if_pos none, List.append_nil, List.nil_append]
    · rw [Converted.hex, if_pos none, List.append_nil, List.nil_append]
  have space : chr ' ' = 32 := rfl
  have zero : chr '0' = 48 := rfl
  have turned (text : List UInt8) : conv.hex ++ (conv.sign ++ text) = conv.sign ++ (conv.hex ++ text) := by
    rw [← List.append_assoc, swap, List.append_assoc]
  rw [render_eq conv counted kind]
  generalize (fs.fieldWidth - .ofNat (plain fs conv).length).toNatClampNeg = pad
  generalize (precPad fs conv).toNatClampNeg = prec
  cases left : fs.leftJustified with
  | true =>
      rcases padChar_cases fs conv with char | char | ⟨char, -⟩
      · refine ⟨0, prec, 0, Nat.le_refl _, fun none _ => none, ?_⟩
        simp [char, zero, turned]
      · refine ⟨0, prec, pad, Nat.le_refl _, fun none _ => none, ?_⟩
        simp [char, space, zero, turned]
      · refine ⟨0, prec, 0, Nat.le_refl _, fun none _ => none, ?_⟩
        simp [char, zero, turned]
  | false =>
      rcases padChar_cases fs conv with char | char | ⟨char, -⟩
      · refine ⟨0, prec, 0, Nat.le_refl _, fun none _ => none, ?_⟩
        simp [char, zero, turned]
      · refine ⟨pad, prec, 0, Nat.le_refl _, fun none _ => none, ?_⟩
        simp [char, space, zero, turned]
      · refine ⟨0, pad + prec, 0, Nat.le_add_left _ _, fun _ other => absurd char other, ?_⟩
        simp [char, zero]
        rw [List.replicate_add, List.append_assoc]

theorem Converted.ReadsAs.reads {base : Nat} {value : Int} {conv : Converted}
    (readable : conv.ReadsAs base value) (positive : 0 < base) (k zeros behind m : Nat) :
    readInteger base (List.replicate k 32 ++ (conv.sign ++ (conv.hex ++
        ((List.replicate zeros 48 ++ (conv.payload ++ List.replicate behind 48)) ++
          List.replicate m 32)))) =
      if zeros = 0 ∧ conv.payload = [] ∧ behind = 0 then none else some (value * base ^ behind) := by
  obtain ⟨sign, negative, mark, ds, spells, magnitude⟩ := readable
  have signs : conv.sign = [] ∨ conv.sign = [32] ∨ conv.sign = [43] ∨ conv.sign = [45] := by
    rcases sign with sign | sign | sign | sign
    · exact Or.inl (if_pos sign)
    · exact Or.inr (Or.inl (by rw [Converted.sign, sign]; rfl))
    · exact Or.inr (Or.inr (Or.inl (by rw [Converted.sign, sign]; rfl)))
    · exact Or.inr (Or.inr (Or.inr (by rw [Converted.sign, sign]; rfl)))
  have digits : Spells base (List.replicate zeros 48 ++ (conv.payload ++ List.replicate behind 48))
      (List.replicate zeros 0 ++ (ds ++ List.replicate behind 0)) :=
    (spells_zeros positive zeros).append (spells.append (spells_zeros positive behind))
  have total : Nat.ofDigits base (List.replicate zeros 0 ++ (ds ++ List.replicate behind 0)).reverse =
      value.natAbs * base ^ behind := by
    simp only [List.reverse_append, List.reverse_replicate, Nat.ofDigits_append,
      Nat.ofDigits_replicate_zero, List.length_replicate, magnitude]
    ring
  have marks : conv.hex = [] ∨
      base = 16 ∧ conv.sign = [] ∧ (conv.hex = [48, 120] ∨ conv.hex = [48, 88]) := by
    rcases mark with none | ⟨sixteen, unsigned, -, letter | letter⟩
    · exact Or.inl (if_pos none)
    · exact Or.inr ⟨sixteen, if_pos unsigned, Or.inl (by rw [Converted.hex, letter]; rfl)⟩
    · exact Or.inr ⟨sixteen, if_pos unsigned, Or.inr (by rw [Converted.hex, letter]; rfl)⟩
  have minus : conv.sign = [45] ↔ value < 0 := by
    rw [← negative, Converted.sign]
    split_ifs with none
    · simp [none]
      decide
    · simp
      exact Iff.rfl
  split_ifs with nothing
  · obtain ⟨rfl, empty, rfl⟩ := nothing
    have plain : conv.hex = [] := by
      rcases mark with none | ⟨-, -, nonempty, -⟩
      · exact if_pos none
      · exact absurd empty nonempty
    obtain rfl : ds = [] := by
      rw [empty] at spells
      cases spells
      rfl
    have zero : value = 0 := Int.natAbs_eq_zero.mp magnitude.symm
    have signs' : conv.sign = [] ∨ conv.sign = [32] ∨ conv.sign = [43] := by
      rcases signs with sign | sign | sign | sign
      · exact Or.inl sign
      · exact Or.inr (Or.inl sign)
      · exact Or.inr (Or.inr sign)
      · have below := minus.mp sign
        omega
    simpa [plain, empty] using readInteger_nothing k m signs'
  · have nonempty : List.replicate zeros 48 ++ (conv.payload ++ List.replicate behind 48) ≠ [] := by
      intro empty
      simp at empty
      exact nothing empty
    rw [readInteger_spelled k m signs marks digits nonempty, total]
    congr 1
    rw [signed]
    split_ifs with below
    · have magnitude : (value.natAbs : Int) = -value := by
        have negative := minus.mp below
        omega
      rw [Nat.cast_mul, Nat.cast_pow, magnitude]
      ring
    · have magnitude : (value.natAbs : Int) = value := by
        have nonneg := mt minus.mpr below
        omega
      rw [Nat.cast_mul, Nat.cast_pow, magnitude]

/-! ## Reading what was printed -/

theorem convertUnsigned_empty
    (kind : fs.convSpec = .octal ∨ fs.convSpec = .hexInt ∨ fs.convSpec = .unsignedInt) (w : UInt64) :
    (convertUnsigned fs w).payload = [] ↔
      unsignedValue fs.lengthModifier w = 0 ∧ fs.precOpt = .literal ∧ fs.prec = 0 := by
  rw [convertUnsigned_payload kind]
  split_ifs with lead skipped skipped
  · exact absurd skipped.1 lead.1
  · simp [skipped]
  · simp [skipped]
  · simpa [npfUtoaRev_ne_nil] using skipped

theorem convertUnsigned_blank
    (kind : fs.convSpec = .octal ∨ fs.convSpec = .hexInt ∨ fs.convSpec = .unsignedInt) {w : UInt64}
    (value : fs.value w = unsignedValue fs.lengthModifier w) :
    fs.Blank w ↔ (convertUnsigned fs w).payload = [] ∧
      (precPad fs (convertUnsigned fs w)).toNatClampNeg = 0 := by
  have zero : fs.value w = 0 ↔ unsignedValue fs.lengthModifier w = 0 := by
    rw [value]
    exact Int.natCast_eq_zero
  have prec (skipped : unsignedValue fs.lengthModifier w = 0 ∧ fs.precOpt = .literal ∧ fs.prec = 0) :
      (precPad fs (convertUnsigned fs w)).toNatClampNeg =
        if fs.convSpec = .octal ∧ fs.altForm = true then 1 else 0 := by
    have number : ¬ fs.convSpec = .string := by
      rcases kind with kind | kind | kind <;> simp [kind]
    have nothing : (convertUnsigned fs w).cbufLen = 0 :=
      congrArg (fun text : List UInt8 => Int32.ofNat text.length) ((convertUnsigned_empty kind w).mpr skipped)
    have prec : (convertUnsigned fs w).prec =
        if fs.convSpec = .octal ∧ fs.altForm = true then 1 else 0 := by
      simp only [convertUnsigned, skipped, and_self, decide_true, true_and]
    rw [precPad, if_neg number, npfMax_zero, nothing, prec]
    split_ifs <;> rfl
  rw [convertUnsigned_empty kind, FormatSpec.Blank, zero]
  constructor
  · rintro ⟨zero, literal, none, plain⟩
    exact ⟨⟨zero, literal, none⟩, (prec ⟨zero, literal, none⟩).trans (if_neg plain)⟩
  · rintro ⟨skipped, unpadded⟩
    refine ⟨skipped.1, skipped.2.1, skipped.2.2, fun octal => ?_⟩
    rw [prec skipped, if_pos octal] at unpadded
    contradiction

/-- No digit is printed exactly where none is asked for. -/
theorem convertWord_blank (ready : fs.Ready) (integer : fs.Integer) (w : UInt64) :
    fs.Blank w ↔ (fs.convertWord w).payload = [] ∧
      (precPad fs (fs.convertWord w)).toNatClampNeg = 0 := by
  rcases integer with kind | kind | kind | kind | kind
  · have number : ¬ fs.convSpec = .string := by simp [kind]
    rw [precPad, if_neg number, npfMax_zero]
    simp only [FormatSpec.Blank, FormatSpec.convertWord, FormatSpec.value, kind, convertSigned]
    split_ifs with skipped
    · simp [skipped]
    · simpa [npfUtoaRev_ne_nil] using skipped
  · simpa only [FormatSpec.convertWord, kind] using
      convertUnsigned_blank (Or.inl kind) (by rw [FormatSpec.value, kind])
  · simpa only [FormatSpec.convertWord, kind] using
      convertUnsigned_blank (Or.inr (Or.inl kind)) (by rw [FormatSpec.value, kind])
  · simpa only [FormatSpec.convertWord, kind] using
      convertUnsigned_blank (Or.inr (Or.inr kind)) (by rw [FormatSpec.value, kind])
  · have converts := ready.converts
    rw [FormatSpec.Converts, kind] at converts
    simp [FormatSpec.Blank, FormatSpec.convertWord, kind, converts, npfUtoaRev_ne_nil]

theorem FormatSpec.Ready.precOpt_none (ready : fs.Ready) (integer : fs.Integer)
    (zeros : fs.leadingZeroPad = true) : fs.precOpt = .none := by
  have converts := ready.converts
  rcases integer with kind | kind | kind | kind | kind
  iterate 4
    · rw [FormatSpec.Converts, kind] at converts
      by_contra option
      rw [converts option] at zeros
      cases zeros
  · rwa [FormatSpec.Converts, kind] at converts

theorem padChar_zero_iff (ready : fs.Ready) (integer : fs.Integer) (conv : Converted) :
    padChar fs conv = chr '0' ↔ fs.leadingZeroPad = true ∧ fs.fieldWidthOpt = .literal := by
  constructor
  · intro zero
    rcases padChar_cases fs conv with char | char | ⟨-, zeros⟩
    · rw [char] at zero
      exact absurd zero (by decide)
    · rw [char] at zero
      exact absurd zero (by decide)
    · exact zeros
  · rintro ⟨zeros, literal⟩
    have number : ¬ (fs.convSpec = .string ∨ fs.convSpec = .char ∨ fs.convSpec = .percent) := by
      rcases integer with kind | kind | kind | kind | kind <;> simp [kind]
    have none := ready.precOpt_none integer zeros
    simp [padChar, literal, zeros, number, none]

theorem convertWord_counted (fs : FormatSpec) (w : UInt64) :
    (fs.convertWord w).cbufLen = .ofNat (fs.convertWord w).payload.length := by
  unfold FormatSpec.convertWord
  cases fs.convSpec <;> rfl

/-- A reader finds the value in the printed text, unless no digit was asked for, or zeros pad the
digits on their right. -/
theorem render_reads (ready : fs.Ready) (integer : fs.Integer) (w : UInt64) :
    readInteger fs.base (render fs (fs.convertWord w)) =
      if fs.Blank w then none else some (fs.value w * fs.base ^ fs.zerosBehind w) := by
  have kind : fs.convSpec ≠ .string := by
    rcases integer with kind | kind | kind | kind | kind <;> simp [kind]
  have positive : 0 < fs.base := by
    rcases integer with kind | kind | kind | kind | kind <;> simp [FormatSpec.base, kind]
  have readable := convertWord_reads ready integer w
  have one : (fs.convertWord w).signC = 0 ∨ (fs.convertWord w).need0x = 0 := by
    rcases readable.mark with none | ⟨-, unsigned, -⟩
    · exact Or.inr none
    · exact Or.inl unsigned
  have counted := convertWord_counted fs w
  have behind : (if fs.leftJustified = true ∧ padChar fs (fs.convertWord w) = chr '0' then
      (fs.fieldWidth - .ofNat (plain fs (fs.convertWord w)).length).toNatClampNeg else 0) =
        fs.zerosBehind w := by
    simp only [FormatSpec.zerosBehind, render_unpadded _ counted kind one,
      padChar_zero_iff ready integer]
  obtain ⟨k, zeros, m, enough, few, text⟩ := render_number counted kind one
  rw [text, behind, readable.reads positive]
  have nothing : (zeros = 0 ∧ (fs.convertWord w).payload = [] ∧ fs.zerosBehind w = 0) ↔ fs.Blank w := by
    rw [convertWord_blank ready integer]
    constructor
    · rintro ⟨rfl, empty, -⟩
      exact ⟨empty, Nat.le_zero.mp enough⟩
    · rintro ⟨empty, unpadded⟩
      have blank := (convertWord_blank ready integer w).mpr ⟨empty, unpadded⟩
      have spaces : ¬ fs.leadingZeroPad = true := by
        intro zero
        have literal := blank.2.1
        rw [ready.precOpt_none integer zero] at literal
        cases literal
      have other : padChar fs (fs.convertWord w) ≠ chr '0' :=
        fun zero => spaces ((padChar_zero_iff ready integer _).mp zero).1
      exact ⟨few unpadded other, empty, if_neg fun behind => spaces behind.2.1⟩
  simp only [nothing]

/-- The text of any integer conversion, however it is written and whatever stars it has, gives its
value back to a reader, unless no digit was asked for, or a negative star put the zeros of the
padding behind the digits. -/
theorem integer_read_back {cur : List UInt8} {args rest : List Arg} {spec : FormatSpec} {w : UInt64}
    (parsed : npfParseFormatSpec cur = some (fs, []))
    (starred : extractStars fs args = some (spec, .word w :: rest)) (integer : spec.Integer) :
    ∃ text, npfVpprintf (chr '%' :: cur) args = some text ∧
      readInteger spec.base text =
        if spec.Blank w then none else some (spec.value w * spec.base ^ spec.zerosBehind w) := by
  have ready := extractStars_ready (npfParseFormatSpec_wellFormed parsed) starred
  have printed : fs.print args = some (render spec (spec.convertWord w), rest) := by
    simp only [FormatSpec.print, starred, convert_word integer, bind, Option.bind, pure]
  refine ⟨render spec (spec.convertWord w), ?_, render_reads ready integer w⟩
  rw [npfVpprintf_eq, pieces_spec parsed, pieces_nil]
  simp only [printPieces, printed, bind, Option.bind, Option.map_some, List.append_nil]

theorem integer_read_back_negativeStar :
    ∃ text, npfVpprintf (ascii "%0*d") [.word (-5), .word 42] = some text ∧
      readInteger 10 text = some (42 * 10 ^ 3) := by
  have parsed : npfParseFormatSpec (ascii "0*d") =
      some ({ leadingZeroPad := true, fieldWidthOpt := .star, convSpec := .signedInt }, []) := by
    decide
  have starred : extractStars { leadingZeroPad := true, fieldWidthOpt := .star, convSpec := .signedInt }
      [.word (-5), .word 42] =
      some ({ fieldWidthOpt := .literal, fieldWidth := 5, leftJustified := true,
              leadingZeroPad := true, convSpec := .signedInt }, [.word 42]) := by
    decide
  exact integer_read_back parsed starred (Or.inl rfl)

example : npfVpprintf (ascii "%0*d") [.word (-5), .word 42] = some (ascii "42000") := by decide

example : npfVpprintf (ascii "%4294967299.4294967298d") [.word 7] = some (ascii " 07") := by decide

end Sphynx.External

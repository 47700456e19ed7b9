import Sphynx.External.FormatNumbers

/-!
# The conversions in the kernel's formats

The text that each prints.
-/

namespace Sphynx.External
open Lib

/-! ## Strings -/

def stringSpec : FormatSpec := { convSpec := .string }

/-- `%-ns` -/
def leftSpec (n : Nat) : FormatSpec :=
  { fieldWidthOpt := .literal, fieldWidth := .ofNat n, leftJustified := true, convSpec := .string }

def blankPadded (n : Nat) (text : List UInt8) : List UInt8 :=
  text ++ List.replicate (n - text.length) (chr ' ')

theorem stringSpec_prints (text : List UInt8) (rest : List Arg) :
    stringSpec.print (.str text :: rest) = some (counted text, rest) := by
  have plain : extractStars stringSpec (.str text :: rest) = some (stringSpec, .str text :: rest) :=
    extractStars_plain (by decide) (by decide)
  have whole : convert stringSpec (.str text :: rest) = some (convertString stringSpec text, rest) := rfl
  simp only [FormatSpec.print, plain, whole, bind, Option.bind, pure]
  rw [convertString_whole stringSpec rfl text]
  exact congrArg (fun text => some (text, rest)) (render_string _ rfl)

theorem sub_toNatClampNeg {n k : Nat} (small : n < 2 ^ 31) (few : k < 2 ^ 31) :
    (Int32.ofNat n - Int32.ofNat k).toNatClampNeg = n - k := by
  have left := Int32.toInt_ofNat_of_lt small
  have right := Int32.toInt_ofNat_of_lt few
  have whole : (Int32.ofNat n - Int32.ofNat k).toInt = n - k := by
    rw [sub_toInt, left, right] <;> rw [left, right] <;> omega
  rw [← Int32.toNat_toInt, whole]
  omega

theorem leftSpec_prints {n : Nat} (narrow : n < 2 ^ 31) {text : List UInt8}
    (short : text.length < 2 ^ 31) (rest : List Arg) :
    (leftSpec n).print (.str text :: rest) = some (blankPadded n text, rest) := by
  have plain : extractStars (leftSpec n) (.str text :: rest) = some (leftSpec n, .str text :: rest) :=
    extractStars_plain (fun star => by cases star) (fun star => by cases star)
  have whole : convert (leftSpec n) (.str text :: rest) =
      some (convertString (leftSpec n) text, rest) := rfl
  have pad : (fieldPad (leftSpec n) (convertString (leftSpec n) text)).toNatClampNeg =
      n - text.length := by
    rw [convertString_whole (leftSpec n) rfl text]
    simpa [fieldPad, precPad, leftSpec] using sub_toNatClampNeg narrow short
  have blank : padChar (leftSpec n) (convertString (leftSpec n) text) = chr ' ' := rfl
  have visible : chr ' ' ≠ 0 := by decide
  have payload : (convertString (leftSpec n) text).payload = text := by
    rw [convertString_whole (leftSpec n) rfl text]
    exact counted_eq short
  have unmarked : (convertString (leftSpec n) text).need0x = 0 := rfl
  have text_only : (leftSpec n).convSpec = .string := rfl
  have left : (leftSpec n).leftJustified = true := rfl
  have rendered : render (leftSpec n) (convertString (leftSpec n) text) = blankPadded n text := by
    simp [render, blank, pad, blankPadded, payload, unmarked, text_only, left, visible]
  simp only [FormatSpec.print, plain, whole, bind, Option.bind, pure, rendered]

theorem blankPadded_length (n : Nat) (text : List UInt8) :
    (blankPadded n text).length = max n text.length := by
  rw [blankPadded, List.length_append, List.length_replicate]
  omega

theorem blankPadded_rdropWhile (n : Nat) (text : List UInt8) :
    (blankPadded n text).rdropWhile (· = chr ' ') = text.rdropWhile (· = chr ' ') := by
  rw [blankPadded]
  generalize n - text.length = k
  induction k with
  | zero => rw [List.replicate_zero, List.append_nil]
  | succ k ih =>
      rw [List.replicate_succ', ← List.append_assoc, List.rdropWhile_concat_pos _ _ _ (by simp), ih]

/-! ## Numbers -/

variable {fs : FormatSpec}

def FormatSpec.text (fs : FormatSpec) (w : UInt64) : List UInt8 := render fs (fs.convertWord w)

theorem FormatSpec.print_word (integer : fs.Integer) (width : fs.fieldWidthOpt ≠ .star)
    (precision : fs.precOpt ≠ .star) (w : UInt64) (rest : List Arg) :
    fs.print (.word w :: rest) = some (fs.text w, rest) := by
  have plain : extractStars fs (.word w :: rest) = some (fs, .word w :: rest) :=
    extractStars_plain width precision
  simp only [FormatSpec.print, plain, convert_word integer, bind, Option.bind, pure]
  rfl

/-- `%.16llx` -/
def hexSpec : FormatSpec :=
  { precOpt := .literal, prec := 16, lengthModifier := .largeLongLong, convSpec := .hexInt }

/-- `%016llx` -/
def zeroHexSpec : FormatSpec :=
  { fieldWidthOpt := .literal, fieldWidth := 16, leadingZeroPad := true
    lengthModifier := .largeLongLong, convSpec := .hexInt }

def intSpec : FormatSpec := { convSpec := .signedInt }

def unsignedSpec : FormatSpec := { convSpec := .unsignedInt }

def hexDigits (w : UInt64) : List UInt8 :=
  let digits := (npfUtoaRev 16 (chr 'a' - chr 'A') 64 w.toNat).reverse
  List.replicate (16 - digits.length) 48 ++ digits

theorem npfUtoaRev_length {base : Nat} (caseAdj : UInt8) (fuel n k : Nat) (fits : n < base ^ (k + 1)) :
    (npfUtoaRev base caseAdj fuel n).length ≤ k + 1 := by
  induction fuel generalizing n k with
  | zero => exact Nat.zero_le _
  | succ fuel ih =>
      rw [npfUtoaRev, List.length_cons]
      by_cases last : n / base = 0
      · rw [if_pos last]
        exact Nat.succ_le_succ (Nat.zero_le k)
      · rw [if_neg last]
        cases k with
        | zero => exact absurd (Nat.div_eq_of_lt (by simpa using fits)) last
        | succ k =>
            have fits' : n / base < base ^ (k + 1) := Nat.div_lt_of_lt_mul (by rwa [pow_succ'] at fits)
            exact Nat.succ_le_succ (ih (n / base) k fits')

theorem hex_length (w : UInt64) : (npfUtoaRev 16 (chr 'a' - chr 'A') 64 w.toNat).length ≤ 16 :=
  npfUtoaRev_length _ 64 w.toNat 15 w.toNat_lt

theorem hexDigits_length (w : UInt64) : (hexDigits w).length = 16 := by
  have short := hex_length w
  rw [hexDigits, List.length_append, List.length_replicate, List.length_reverse]
  omega

theorem hexDigits_spells (w : UInt64) :
    ∃ ds, Spells 16 (hexDigits w) ds ∧ Nat.ofDigits 16 ds.reverse = w.toNat := by
  obtain ⟨ds, spells, value⟩ := npfUtoaRev_reads (by decide : 2 ≤ 16) (by decide)
    (Or.inl rfl : chr 'a' - chr 'A' = chr 'a' - chr 'A' ∨ _) w.toNat_lt
  refine ⟨_, (spells_zeros (by decide : 0 < 16) _).append spells, ?_⟩
  rw [List.reverse_append, Nat.ofDigits_append, List.reverse_replicate, Nat.ofDigits_replicate_zero,
    Nat.mul_zero, Nat.add_zero, value]

theorem hexDigits_reads (w : UInt64) : readNumeral 16 (hexDigits w) = some w.toNat := by
  obtain ⟨ds, spells, value⟩ := hexDigits_spells w
  have nonempty : hexDigits w ≠ [] := by
    intro empty
    have length := hexDigits_length w
    rw [empty] at length
    cases length
  rw [spells.readNumeral nonempty, value]

theorem hexSpec_payload (w : UInt64) :
    (hexSpec.convertWord w).payload = (npfUtoaRev 16 (chr 'a' - chr 'A') 64 w.toNat).reverse := by
  simp [FormatSpec.convertWord, convertUnsigned, hexSpec, unsignedValue]

theorem precPad_number {conv : Converted} (kind : fs.convSpec ≠ .string)
    (counted : conv.cbufLen = .ofNat conv.payload.length) {n : Nat} (small : n < 2 ^ 31)
    (prec : conv.prec = .ofNat n) (few : conv.payload.length < 2 ^ 31) :
    (precPad fs conv).toNatClampNeg = n - conv.payload.length := by
  rw [precPad, if_neg kind, npfMax_zero, prec, counted, sub_toNatClampNeg small few]

theorem hexSpec_text (w : UInt64) : hexSpec.text w = hexDigits w := by
  have counted := convertWord_counted hexSpec w
  have number : hexSpec.convSpec ≠ .string := by decide
  have rendered := render_unpadded (hexSpec.convertWord w) counted number (Or.inl rfl)
  have unmarked : (hexSpec.convertWord w).hex = [] := by
    simp [Converted.hex, FormatSpec.convertWord, convertUnsigned, hexSpec]
  have unsigned : (hexSpec.convertWord w).sign = [] := rfl
  have prec : (hexSpec.convertWord w).prec = .ofNat 16 := by
    simp [FormatSpec.convertWord, convertUnsigned, hexSpec]
  have few : (hexSpec.convertWord w).payload.length < 2 ^ 31 := by
    rw [hexSpec_payload, List.length_reverse]
    exact Nat.lt_of_le_of_lt (hex_length w) (by decide)
  have pad := precPad_number number counted (by decide) prec few
  rwa [plain, unmarked, unsigned, pad, hexSpec_payload] at rendered

theorem zeroHexSpec_text (w : UInt64) : zeroHexSpec.text w = hexDigits w := by
  have counted := convertWord_counted zeroHexSpec w
  have number : zeroHexSpec.convSpec ≠ .string := by decide
  have payload : (zeroHexSpec.convertWord w).payload =
      (npfUtoaRev 16 (chr 'a' - chr 'A') 64 w.toNat).reverse := by
    simp [FormatSpec.convertWord, convertUnsigned, zeroHexSpec, unsignedValue]
  have unmarked : (zeroHexSpec.convertWord w).hex = [] := by
    simp [Converted.hex, FormatSpec.convertWord, convertUnsigned, zeroHexSpec]
  have unsigned : (zeroHexSpec.convertWord w).sign = [] := rfl
  have few : (zeroHexSpec.convertWord w).payload.length < 2 ^ 31 := by
    rw [payload, List.length_reverse]
    exact Nat.lt_of_le_of_lt (hex_length w) (by decide)
  have exact_digits : (precPad zeroHexSpec (zeroHexSpec.convertWord w)).toNatClampNeg = 0 := by
    have prec : (zeroHexSpec.convertWord w).prec = .ofNat 0 := by
      simp [FormatSpec.convertWord, convertUnsigned, zeroHexSpec]
    rw [precPad_number number counted (by decide) prec few, Nat.zero_sub]
  have zeros : padChar zeroHexSpec (zeroHexSpec.convertWord w) = chr '0' := rfl
  have unpadded : plain zeroHexSpec (zeroHexSpec.convertWord w) =
      (npfUtoaRev 16 (chr 'a' - chr 'A') 64 w.toNat).reverse := by
    rw [plain, unsigned, unmarked, exact_digits, payload]
    rfl
  have pad : (zeroHexSpec.fieldWidth -
      .ofNat (plain zeroHexSpec (zeroHexSpec.convertWord w)).length).toNatClampNeg =
      16 - (npfUtoaRev 16 (chr 'a' - chr 'A') 64 w.toNat).reverse.length := by
    rw [unpadded, ← payload]
    exact sub_toNatClampNeg (by decide : 16 < 2 ^ 31) few
  rw [FormatSpec.text, render_eq _ counted number, zeros, pad, unsigned, unmarked, exact_digits,
    payload, hexDigits]
  simp [zeroHexSpec, chr]

theorem hexSpec_prints (w : UInt64) (rest : List Arg) :
    hexSpec.print (.word w :: rest) = some (hexDigits w, rest) := by
  rw [FormatSpec.print_word (by decide) (by decide) (by decide), hexSpec_text]

theorem zeroHexSpec_prints (w : UInt64) (rest : List Arg) :
    zeroHexSpec.print (.word w :: rest) = some (hexDigits w, rest) := by
  rw [FormatSpec.print_word (by decide) (by decide) (by decide), zeroHexSpec_text]

theorem unsignedSpec_prints (w : UInt64) (rest : List Arg) :
    unsignedSpec.print (.word w :: rest) = some (unsignedSpec.text w, rest) :=
  FormatSpec.print_word (by decide) (by decide) (by decide) w rest

theorem decimal_length (caseAdj : UInt8) {n : Nat} (small : n < 2 ^ 32) :
    (npfUtoaRev 10 caseAdj 64 n).length ≤ 10 :=
  npfUtoaRev_length caseAdj 64 n 9 (Nat.lt_trans small (by decide))

theorem unsignedSpec_text (w : UInt64) :
    unsignedSpec.text w = (npfUtoaRev 10 (chr 'a' - chr 'A') 64 w.toUInt32.toNat).reverse := by
  have counted := convertWord_counted unsignedSpec w
  have number : unsignedSpec.convSpec ≠ .string := by decide
  have rendered := render_unpadded (unsignedSpec.convertWord w) counted number (Or.inl rfl)
  have payload : (unsignedSpec.convertWord w).payload =
      (npfUtoaRev 10 (chr 'a' - chr 'A') 64 w.toUInt32.toNat).reverse := by
    simp [FormatSpec.convertWord, convertUnsigned, unsignedSpec, unsignedValue]
  have unmarked : (unsignedSpec.convertWord w).hex = [] := by
    simp [Converted.hex, FormatSpec.convertWord, convertUnsigned, unsignedSpec]
  have unsigned : (unsignedSpec.convertWord w).sign = [] := rfl
  have few : (unsignedSpec.convertWord w).payload.length < 2 ^ 31 := by
    rw [payload, List.length_reverse]
    exact Nat.lt_of_le_of_lt (decimal_length _ w.toUInt32.toNat_lt) (by decide)
  have pad : (precPad unsignedSpec (unsignedSpec.convertWord w)).toNatClampNeg = 0 := by
    have prec : (unsignedSpec.convertWord w).prec = .ofNat 0 := by
      simp [FormatSpec.convertWord, convertUnsigned, unsignedSpec]
    rw [precPad_number number counted (by decide) prec few, Nat.zero_sub]
  rwa [plain, unmarked, unsigned, pad, payload] at rendered

theorem unsignedSpec_length (w : UInt64) : (unsignedSpec.text w).length ≤ 10 := by
  rw [unsignedSpec_text, List.length_reverse]
  exact decimal_length _ w.toUInt32.toNat_lt

theorem unsignedSpec_spells (w : UInt64) :
    ∃ ds, Spells 10 (unsignedSpec.text w) ds ∧ Nat.ofDigits 10 ds.reverse = w.toUInt32.toNat := by
  rw [unsignedSpec_text]
  exact npfUtoaRev_reads (by decide) (by decide) (Or.inl rfl)
    (Nat.lt_trans w.toUInt32.toNat_lt (by decide))

theorem unsignedSpec_reads (w : UInt64) :
    readNumeral 10 (unsignedSpec.text w) = some w.toUInt32.toNat := by
  obtain ⟨ds, spells, value⟩ := unsignedSpec_spells w
  have nonempty : unsignedSpec.text w ≠ [] := by
    rw [unsignedSpec_text]
    exact List.reverse_ne_nil_iff.mpr (npfUtoaRev_ne_nil _ _ _)
  rw [spells.readNumeral nonempty, value]

theorem intSpec_length (w : UInt64) : (intSpec.text w).length ≤ 11 := by
  have counted := convertWord_counted intSpec w
  have number : intSpec.convSpec ≠ .string := by decide
  have rendered : intSpec.text w = plain intSpec (intSpec.convertWord w) :=
    render_unpadded (intSpec.convertWord w) counted number (Or.inr rfl)
  have digits : (intSpec.convertWord w).payload =
      (npfUtoaRev 10 0 64 w.toUInt32.toInt32.toInt.natAbs).reverse := by
    simp [FormatSpec.convertWord, convertSigned, intSpec, signedValue]
  have unmarked : (intSpec.convertWord w).hex = [] := rfl
  have sign : (intSpec.convertWord w).sign.length ≤ 1 := by
    unfold Converted.sign
    split_ifs <;> simp
  have range := And.intro w.toUInt32.toInt32.le_toInt w.toUInt32.toInt32.toInt_lt
  have few := decimal_length 0 (by omega : w.toUInt32.toInt32.toInt.natAbs < 2 ^ 32)
  have short : (intSpec.convertWord w).payload.length < 2 ^ 31 := by
    rw [digits, List.length_reverse]
    exact Nat.lt_of_le_of_lt few (by decide)
  have pad : (precPad intSpec (intSpec.convertWord w)).toNatClampNeg = 0 := by
    rw [precPad_number number counted (by decide) (rfl : _ = Int32.ofNat 0) short, Nat.zero_sub]
  rw [rendered, plain, unmarked, pad, digits]
  simp only [List.length_append, List.length_reverse, List.length_replicate, List.length_nil]
  omega

end Sphynx.External

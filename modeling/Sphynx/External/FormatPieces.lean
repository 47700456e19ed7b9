import Mathlib.Algebra.Group.Int.Defs
import Sphynx.External.Nanoprintf

/-!
# The pieces of a format

A format is plain characters and conversion specifications, found before any argument is looked at.
Each specification takes its arguments from the front of the list; which of them it takes, and
whether its text depends on them, can be read off the specification.
-/

namespace Sphynx.External

inductive Piece where
  | char (c : UInt8)
  | spec (fs : FormatSpec)
deriving DecidableEq, Repr

def piecesLoop : Nat → List UInt8 → List Piece
  | 0, _ => []
  | _, [] => []
  | fuel + 1, c :: cur =>
      match if c = chr '%' then npfParseFormatSpec cur else none with
      | none => .char c :: piecesLoop fuel cur
      | some (fs, cur) => .spec fs :: piecesLoop fuel cur

def pieces (format : List UInt8) : List Piece := piecesLoop format.length format

def FormatSpec.print (fs : FormatSpec) (args : List Arg) : Option (List UInt8 × List Arg) := do
  let (fs, args) ← extractStars fs args
  let (conv, args) ← convert fs args
  return (render fs conv, args)

def printPieces : List Piece → List Arg → Option (List UInt8)
  | [], _ => some []
  | .char c :: ps, args => (printPieces ps args).map (c :: ·)
  | .spec fs :: ps, args => do
      let (text, args) ← fs.print args
      (printPieces ps args).map (text ++ ·)

/-! ## Formatting is printing the pieces -/

theorem parseFlags_length (spec : FormatSpec) (cur : List UInt8) :
    (parseFlags spec cur).2.length ≤ cur.length := by
  induction cur generalizing spec with
  | nil => exact Nat.le_refl 0
  | cons c cur ih =>
      have later (spec : FormatSpec) : (parseFlags spec cur).2.length ≤ (c :: cur).length :=
        Nat.le_succ_of_le (ih spec)
      unfold parseFlags
      split_ifs
      iterate 6
        · apply later
      exact Nat.le_refl (c :: cur).length

theorem parseDigits_length (value : Int32) (cur : List UInt8) :
    (parseDigits value cur).2.length ≤ cur.length := by
  induction cur generalizing value with
  | nil => exact Nat.le_refl 0
  | cons c cur ih =>
      unfold parseDigits
      split_ifs
      · exact Nat.le_succ_of_le (ih _)
      · exact Nat.le_refl (c :: cur).length

theorem parseFieldWidth_length (spec : FormatSpec) (cur : List UInt8) :
    (parseFieldWidth spec cur).2.length ≤ cur.length := by
  cases cur with
  | nil => exact Nat.le_refl 0
  | cons c cur =>
      simp only [parseFieldWidth]
      split_ifs
      · exact Nat.le_succ _
      · exact parseDigits_length 0 (c :: cur)
      · exact Nat.le_refl (c :: cur).length

theorem parsePrecision_length (spec : FormatSpec) (cur : List UInt8) :
    (parsePrecision spec cur).2.length ≤ cur.length := by
  cases cur with
  | nil => exact Nat.le_refl 0
  | cons c cur =>
      simp only [parsePrecision]
      split_ifs
      · exact Nat.le_refl (c :: cur).length
      · cases cur with
        | nil => exact Nat.zero_le _
        | cons d cur =>
            simp only
            split_ifs
            · exact Nat.le_succ_of_le (Nat.le_succ _)
            · exact Nat.le_succ_of_le (Nat.le_succ_of_le (parseDigits_length 0 cur))
            · exact Nat.le_succ_of_le (parseDigits_length 0 (d :: cur))

theorem parseLengthModifier_length (spec : FormatSpec) (cur : List UInt8) :
    (parseLengthModifier spec cur).2.length ≤ cur.length := by
  cases cur with
  | nil => exact Nat.le_refl 0
  | cons c cur =>
      have tail : cur.tail.length ≤ cur.length := by simp
      simp only [parseLengthModifier, List.length_cons]
      split_ifs <;> simp only [List.length_cons] <;> omega

theorem parseConversion_length {spec fs : FormatSpec} {cur rest : List UInt8}
    (parsed : parseConversion spec cur = some (fs, rest)) : rest.length ≤ cur.length := by
  cases cur with
  | nil => cases parsed
  | cons c cur =>
      have branch {p : Prop} [Decidable p] {spec' : FormatSpec}
          {others : Option (FormatSpec × List UInt8)}
          (parsed : (if p then some (spec', cur) else others) = some (fs, rest)) :
          rest = cur ∨ others = some (fs, rest) := by
        split_ifs at parsed
        · cases parsed
          exact Or.inl rfl
        · exact Or.inr parsed
      have same : rest = cur := by
        unfold parseConversion at parsed
        iterate 9
          rcases branch parsed with same | parsed
          · exact same
        cases parsed
      rw [same]
      exact Nat.le_succ _

theorem npfParseFormatSpec_length {fs : FormatSpec} {cur rest : List UInt8}
    (parsed : npfParseFormatSpec cur = some (fs, rest)) : rest.length ≤ cur.length := by
  have flags := parseFlags_length {} cur
  have width := parseFieldWidth_length (parseFlags {} cur).1 (parseFlags {} cur).2
  have precision (spec : FormatSpec × List UInt8) := parsePrecision_length spec.1 spec.2
  have modifier (spec : FormatSpec × List UInt8) := parseLengthModifier_length spec.1 spec.2
  have conversion := parseConversion_length parsed
  exact conversion.trans ((modifier _).trans ((precision _).trans (width.trans flags)))

theorem vpprintfLoop_eq (fuel : Nat) (cur : List UInt8) (args : List Arg)
    (enough : cur.length ≤ fuel) :
    vpprintfLoop fuel cur args = printPieces (piecesLoop fuel cur) args := by
  induction fuel generalizing cur args with
  | zero =>
      obtain rfl := List.length_eq_zero_iff.mp (Nat.le_zero.mp enough)
      rfl
  | succ fuel ih =>
      cases cur with
      | nil => rfl
      | cons c cur =>
          have shorter : cur.length ≤ fuel := by simpa using enough
          unfold vpprintfLoop piecesLoop
          cases parsed : if c = chr '%' then npfParseFormatSpec cur else none with
          | none =>
              simp only [printPieces]
              rw [ih cur args shorter]
          | some spec =>
              obtain ⟨fs, rest⟩ := spec
              have taken : npfParseFormatSpec cur = some (fs, rest) := by
                split_ifs at parsed
                exact parsed
              have left : rest.length ≤ fuel := (npfParseFormatSpec_length taken).trans shorter
              cases stars : extractStars fs args with
              | none => simp only [printPieces, FormatSpec.print, stars, bind, Option.bind]
              | some starred =>
                  obtain ⟨fs', args'⟩ := starred
                  cases converted : convert fs' args' with
                  | none =>
                      simp only [printPieces, FormatSpec.print, stars, converted, bind, Option.bind]
                  | some result =>
                      simp only [printPieces, FormatSpec.print, stars, converted, bind, Option.bind,
                        pure, ih rest result.2 left]

theorem npfVpprintf_eq (format : List UInt8) (args : List Arg) :
    npfVpprintf format args = printPieces (pieces format) args :=
  vpprintfLoop_eq format.length format args (Nat.le_refl _)

/-! ## Which arguments are taken -/

/-- How many arguments a specification takes: one for each star, and the one it converts. -/
def FormatSpec.wanted (fs : FormatSpec) : Nat :=
  (if fs.fieldWidthOpt = .star then 1 else 0) + (if fs.precOpt = .star then 1 else 0) +
    if fs.convSpec = .percent then 0 else 1

def Piece.wanted : Piece → Nat
  | .char _ => 0
  | .spec fs => fs.wanted

def wanted : List Piece → Nat
  | [] => 0
  | p :: ps => p.wanted + wanted ps

variable {fs fs' : FormatSpec} {ps : List Piece} {args args' rest rest' : List Arg} {text text' : List UInt8}

theorem extractStars_taken (extracted : extractStars fs args = some (fs', rest)) :
    ∃ taken, taken.length = (if fs.fieldWidthOpt = .star then 1 else 0) +
        (if fs.precOpt = .star then 1 else 0) ∧
      args = taken ++ rest ∧
      (fs'.convSpec = fs.convSpec ∧ fs'.leadingZeroPad = fs.leadingZeroPad ∧
        (fs.precOpt ≠ .star → fs'.prec = fs.prec)) ∧
      ∀ more, extractStars fs (taken ++ more) = some (fs', more) := by
  obtain ⟨_, _, fieldWidthOpt, _, _, _, precOpt, _⟩ := fs
  cases fieldWidthOpt with
  | star =>
      rcases args with _ | ⟨_ | _, args⟩
      · cases extracted
      · cases precOpt with
        | star =>
            rcases args with _ | ⟨_ | _, args⟩
            · cases extracted
            · cases extracted
              exact ⟨[_, _], rfl, rfl, ⟨rfl, rfl, absurd rfl⟩, fun _ => rfl⟩
            · cases extracted
        | _ =>
            cases extracted
            exact ⟨[_], rfl, rfl, ⟨rfl, rfl, fun _ => rfl⟩, fun _ => rfl⟩
      · cases extracted
  | _ =>
      cases precOpt with
      | star =>
          rcases args with _ | ⟨_ | _, args⟩
          · cases extracted
          · cases extracted
            exact ⟨[_], rfl, rfl, ⟨rfl, rfl, absurd rfl⟩, fun _ => rfl⟩
          · cases extracted
      | _ =>
          cases extracted
          exact ⟨[], rfl, rfl, ⟨rfl, rfl, fun _ => rfl⟩, fun _ => rfl⟩

theorem convert_taken {conv : Converted} (converted : convert fs args = some (conv, rest)) :
    ∃ taken, taken.length = (if fs.convSpec = .percent then 0 else 1) ∧ args = taken ++ rest ∧
      ∀ more, convert fs (taken ++ more) = some (conv, more) := by
  unfold convert at converted ⊢
  cases kind : fs.convSpec with
  | percent =>
      rw [kind] at converted
      cases converted
      exact ⟨[], rfl, rfl, fun _ => rfl⟩
  | _ =>
      rw [kind] at converted
      rcases args with _ | ⟨_ | _, args⟩
      all_goals cases converted
      exact ⟨[_], rfl, rfl, fun _ => rfl⟩

theorem FormatSpec.print_taken (printed : fs.print args = some (text, rest)) :
    ∃ taken, taken.length = fs.wanted ∧ args = taken ++ rest ∧
      ∀ more, fs.print (taken ++ more) = some (text, more) := by
  simp only [print, bind, Option.bind_eq_some_iff] at printed
  obtain ⟨⟨fs', later⟩, extracted, ⟨conv, rest'⟩, converted, shown⟩ := printed
  cases shown
  obtain ⟨stars, starsLength, rfl, ⟨kind, -⟩, starsEnough⟩ := extractStars_taken extracted
  obtain ⟨value, valueLength, rfl, valueEnough⟩ := convert_taken converted
  refine ⟨stars ++ value, ?_, (List.append_assoc stars value _).symm, fun more => ?_⟩
  · rw [List.length_append, starsLength, valueLength, kind, wanted]
  · simp only [print, List.append_assoc, starsEnough, valueEnough, bind, Option.bind, pure]

theorem FormatSpec.print_exists (fs : FormatSpec) : ∃ args text, fs.print args = some (text, []) := by
  have stars : ∃ stars fs', ∀ more, extractStars fs (stars ++ more) = some (fs', more) := by
    obtain ⟨_, _, fieldWidthOpt, _, _, _, precOpt, _⟩ := fs
    cases fieldWidthOpt with
    | star =>
        cases precOpt with
        | star => exact ⟨[.word 0, .word 0], _, fun _ => rfl⟩
        | _ => exact ⟨[.word 0], _, fun _ => rfl⟩
    | _ =>
        cases precOpt with
        | star => exact ⟨[.word 0], _, fun _ => rfl⟩
        | _ => exact ⟨[], _, fun _ => rfl⟩
  obtain ⟨stars, fs', starred⟩ := stars
  have value : ∃ value conv, convert fs' value = some (conv, []) := by
    unfold convert
    cases fs'.convSpec with
    | percent => exact ⟨[], _, rfl⟩
    | string => exact ⟨[.str []], _, rfl⟩
    | _ => exact ⟨[.word 0], _, rfl⟩
  obtain ⟨value, conv, converted⟩ := value
  refine ⟨stars ++ value, render fs' conv, ?_⟩
  simp only [print, starred, converted, bind, Option.bind, pure]

theorem printPieces_taken (printed : printPieces ps args = some text) :
    ∃ taken rest, taken.length = wanted ps ∧ args = taken ++ rest ∧
      ∀ more, printPieces ps (taken ++ more) = some text := by
  induction ps generalizing args text with
  | nil => exact ⟨[], args, rfl, rfl, fun _ => printed⟩
  | cons p ps ih =>
      cases p with
      | char c =>
          obtain ⟨tail, later, rfl⟩ := Option.map_eq_some_iff.mp printed
          obtain ⟨taken, rest, length, split, enough⟩ := ih later
          refine ⟨taken, rest, ?_, split, fun more => ?_⟩
          · simp only [length, wanted, Piece.wanted, Nat.zero_add]
          · simp only [printPieces, enough, Option.map_some]
      | spec fs =>
          simp only [printPieces, bind, Option.bind_eq_some_iff] at printed
          obtain ⟨⟨first, args'⟩, front, back⟩ := printed
          obtain ⟨tail, later, rfl⟩ := Option.map_eq_some_iff.mp back
          obtain ⟨taken, length, rfl, enough⟩ := fs.print_taken front
          obtain ⟨taken', rest, length', rfl, enough'⟩ := ih later
          refine ⟨taken ++ taken', rest, ?_, (List.append_assoc taken taken' rest).symm, fun more => ?_⟩
          · simp only [List.length_append, length, length', wanted, Piece.wanted]
          · simp only [printPieces, List.append_assoc, enough, enough', bind, Option.bind,
              Option.map_some]

theorem printPieces_exists (ps : List Piece) : ∃ args text, printPieces ps args = some text := by
  induction ps with
  | nil => exact ⟨[], [], rfl⟩
  | cons p ps ih =>
      obtain ⟨args, tail, later⟩ := ih
      cases p with
      | char c => exact ⟨args, c :: tail, by simp only [printPieces, later, Option.map_some]⟩
      | spec fs =>
          obtain ⟨first, text, printed⟩ := fs.print_exists
          obtain ⟨taken, -, rfl, enough⟩ := fs.print_taken printed
          refine ⟨taken ++ args, text ++ tail, ?_⟩
          simp only [printPieces, enough, later, bind, Option.bind, Option.map_some]

theorem FormatSpec.print_of_wanted_zero (none : fs.wanted = 0) :
    ∃ text, ∀ args, fs.print args = some (text, args) := by
  obtain ⟨_, text, printed⟩ := fs.print_exists
  obtain ⟨taken, length, -, enough⟩ := fs.print_taken printed
  obtain rfl := List.length_eq_zero_iff.mp (length.trans none)
  exact ⟨text, enough⟩

theorem printPieces_of_wanted_zero (none : wanted ps = 0) :
    ∃ text, ∀ args, printPieces ps args = some text := by
  obtain ⟨_, text, printed⟩ := printPieces_exists ps
  obtain ⟨taken, _, length, -, enough⟩ := printPieces_taken printed
  obtain rfl := List.length_eq_zero_iff.mp (length.trans none)
  exact ⟨text, enough⟩

theorem wanted_eq_zero (none : wanted ps = 0) (member : .spec fs ∈ ps) : fs.wanted = 0 := by
  induction ps with
  | nil => contradiction
  | cons p ps ih =>
      obtain ⟨first, later⟩ := Nat.add_eq_zero_iff.mp none
      rcases List.mem_cons.mp member with rfl | member
      · exact first
      · exact ih later member

/-! ## Which specifications heed their arguments -/

/-- Specifications that take an argument and print the same whatever it is: a string cut to
nothing, and a percent sign whose padding is left out. -/
def FormatSpec.Ignores (fs : FormatSpec) : Prop :=
  (fs.convSpec = .string ∧ fs.precOpt = .literal ∧ fs.prec ≤ 0) ∨
    (fs.convSpec = .percent ∧ fs.precOpt ≠ .star ∧ fs.leadingZeroPad = true)

instance (fs : FormatSpec) : Decidable fs.Ignores := inferInstanceAs (Decidable (_ ∨ _))

theorem extractStars_plain (width : fs.fieldWidthOpt ≠ .star) (precision : fs.precOpt ≠ .star) :
    extractStars fs args = some (fs, args) := by
  obtain ⟨_, _, fieldWidthOpt, _, _, _, precOpt, _⟩ := fs
  cases fieldWidthOpt <;> cases precOpt <;> first | rfl | contradiction

theorem render_percent (kind : fs.convSpec = .percent) (zeros : fs.leadingZeroPad = true) :
    render fs { payload := [chr '%'], prec := fs.prec } =
      List.replicate (fs.prec - 1).toNatClampNeg (chr '0') ++ [chr '%'] := by
  have padding (conv : Converted) : padChar fs conv = 0 := by simp [padChar, kind, zeros]
  simp [render, padding, kind, precPad]

theorem FormatSpec.print_ignores (one : fs.wanted ≤ 1) (ignores : fs.wanted = 0 ∨ fs.Ignores) :
    ∃ text, ∀ args text' rest, fs.print args = some (text', rest) → text' = text := by
  rcases ignores with none | ⟨kind, option, low⟩ | ⟨kind, precision, zeros⟩
  · obtain ⟨text, always⟩ := print_of_wanted_zero none
    refine ⟨text, fun args text' rest printed => ?_⟩
    rw [always, Option.some.injEq, Prod.mk.injEq] at printed
    exact printed.1.symm
  · have width : fs.fieldWidthOpt ≠ .star := by
      intro star
      simp [wanted, star, kind, option] at one
    have precision : fs.precOpt ≠ .star := by simp [option]
    refine ⟨render fs { payload := [], prec := fs.prec }, fun args text' rest printed => ?_⟩
    have cut (text : List UInt8) : convertString fs text = { payload := [], prec := fs.prec } := by
      simp [convertString, option, Int32.toNatClampNeg_eq_zero_iff.mpr low]
    rcases args with _ | ⟨_ | text, args⟩ <;>
      simp [print, extractStars_plain width precision, convert, kind, cut] at printed
    exact printed.1.symm
  · refine ⟨List.replicate (fs.prec - 1).toNatClampNeg (chr '0') ++ [chr '%'], fun args text' rest printed => ?_⟩
    simp only [print, bind, Option.bind_eq_some_iff] at printed
    obtain ⟨⟨fs', later⟩, extracted, ⟨conv, rest'⟩, converted, shown⟩ := printed
    obtain ⟨_, -, -, ⟨kind', zeros', prec'⟩, -⟩ := extractStars_taken extracted
    simp only [convert, kind'.trans kind, Option.some.injEq, Prod.mk.injEq] at converted
    simp only [pure, Option.some.injEq, Prod.mk.injEq] at shown
    rw [← shown.1, ← converted.1, render_percent (kind'.trans kind) (zeros'.trans zeros),
      prec' precision]

section
variable {payload payload' : List UInt8} (fs : FormatSpec) (conv : Converted)

theorem padChar_payload (payload : List UInt8) :
    padChar fs { conv with payload := payload } = padChar fs conv := rfl

theorem precPad_payload (payload : List UInt8) :
    precPad fs { conv with payload := payload } = precPad fs conv := rfl

theorem fieldPad_payload (payload : List UInt8) :
    fieldPad fs { conv with payload := payload } = fieldPad fs conv := rfl

theorem render_length_congr (length : payload.length = payload'.length) :
    (render fs { conv with payload := payload }).length =
      (render fs { conv with payload := payload' }).length := by
  simp only [render, padChar_payload, precPad_payload, fieldPad_payload, length, List.length_append,
    apply_ite List.length]
  rfl

theorem render_injective
    (same : render fs { conv with payload := payload } = render fs { conv with payload := payload' }) :
    payload = payload' := by
  simp only [render, padChar_payload, precPad_payload, fieldPad_payload] at same
  have body := List.append_cancel_left (List.append_cancel_right same)
  by_cases string : fs.convSpec = .string
  · simpa only [if_pos string] using body
  · simp only [if_neg string] at body
    exact List.append_cancel_left body

end

/-- Two arguments on which a specification prints different texts of one length. -/
def FormatSpec.Tells (fs : FormatSpec) : Prop :=
  ∃ arg arg' text text', fs.print [arg] = some (text, []) ∧ fs.print [arg'] = some (text', []) ∧
    text.length = text'.length ∧ text ≠ text'

theorem tells_of_convert (width : fs.fieldWidthOpt ≠ .star) (precision : fs.precOpt ≠ .star)
    {arg arg' : Arg} {conv conv' : Converted} (first : convert fs [arg] = some (conv, []))
    (second : convert fs [arg'] = some (conv', []))
    (alike : { conv with payload := conv'.payload } = conv')
    (length : conv.payload.length = conv'.payload.length)
    (differ : conv.payload ≠ conv'.payload) : fs.Tells := by
  refine ⟨arg, arg', render fs conv, render fs conv', ?_, ?_, ?_, ?_⟩
  · simp only [FormatSpec.print, extractStars_plain width precision, first, bind, Option.bind, pure]
  · simp only [FormatSpec.print, extractStars_plain width precision, second, bind, Option.bind, pure]
  · rw [← alike]
    exact render_length_congr fs conv length
  · intro same
    rw [← alike] at same
    exact differ (render_injective fs conv same)

theorem npfUtoaRev_small {w : UInt64} (small : w = 1 ∨ w = 2) {base : Nat} (large : 3 ≤ base)
    (caseAdj : UInt8) : npfUtoaRev base caseAdj 64 w.toNat = [chr '0' + w.toUInt8] := by
  have digit : w.toNat < base := by
    rcases small with rfl | rfl
    · exact Nat.lt_of_lt_of_le (by decide) large
    · exact large
  have decimal : w.toNat < 10 := by
    rcases small with rfl | rfl <;> decide
  simp only [npfUtoaRev, Nat.mod_eq_of_lt digit, Nat.div_eq_of_lt digit, if_pos decimal, if_true]
  rfl

theorem convertSigned_small {w : UInt64} (small : w = 1 ∨ w = 2) :
    convertSigned fs w =
      { payload := [chr '0' + w.toUInt8], signC := fs.prepend, prec := fs.prec } := by
  have value : signedValue fs.lengthModifier w = w.toNat := by
    rcases small with rfl | rfl <;> cases fs.lengthModifier <;> rfl
  have positive : 0 < w.toNat := by
    rcases small with rfl | rfl <;> decide
  have sign : ¬ (w.toNat : Int) < 0 := by omega
  simp [convertSigned, value, npfUtoaRev_small small, positive.ne', sign]

theorem convertUnsigned_small {w : UInt64} (small : w = 1 ∨ w = 2) :
    convertUnsigned fs w =
      { payload := (if fs.altForm ∧ fs.convSpec = .octal then [chr '0'] else []) ++
          [chr '0' + w.toUInt8]
        need0x := if fs.altForm ∧ fs.convSpec = .hexInt then chr 'X' + fs.caseAdjust else 0
        prec := fs.prec } := by
  have value : unsignedValue fs.lengthModifier w = w.toNat := by
    rcases small with rfl | rfl <;> cases fs.lengthModifier <;> rfl
  have positive : 0 < w.toNat := by
    rcases small with rfl | rfl <;> decide
  cases kind : fs.convSpec <;>
    simp [convertUnsigned, value, kind, npfUtoaRev_small small, positive.ne']

theorem convertString_single (counts : fs.precOpt = .none ∨ ¬ fs.prec ≤ 0) (c : UInt8) :
    convertString fs [c] = { payload := [c], prec := fs.prec } := by
  have whole : (if fs.precOpt = .none then 1 else min 1 fs.prec.toNatClampNeg) = 1 := by
    split_ifs with none
    · rfl
    · have some : fs.prec.toNatClampNeg ≠ 0 :=
        mt Int32.toNatClampNeg_eq_zero_iff.mp (counts.resolve_left none)
      omega
  simp only [convertString, List.length_singleton, whole]
  rfl

theorem FormatSpec.tells (one : fs.wanted = 1) (argument : fs.convSpec ≠ .percent)
    (heeds : ¬ fs.Ignores) : fs.Tells := by
  have width : fs.fieldWidthOpt ≠ .star := by
    intro star
    simp only [wanted, if_pos star, if_neg argument] at one
    omega
  have precision : fs.precOpt ≠ .star := by
    intro star
    simp only [wanted, if_pos star, if_neg argument] at one
    omega
  have one_two : ([chr '0' + UInt64.toUInt8 1] : List UInt8) ≠ [chr '0' + UInt64.toUInt8 2] := by
    decide
  cases kind : fs.convSpec with
  | percent => contradiction
  | char =>
      have converted (w : UInt64) : convert fs [.word w] =
          some ({ payload := [w.toUInt8], prec := fs.prec }, []) := by
        simp only [convert, kind]
      have differ : ([UInt64.toUInt8 1] : List UInt8) ≠ [UInt64.toUInt8 2] := by decide
      exact tells_of_convert width precision (converted 1) (converted 2) rfl rfl differ
  | string =>
      have counts : fs.precOpt = .none ∨ ¬ fs.prec ≤ 0 := by
        cases option : fs.precOpt with
        | none => exact Or.inl rfl
        | literal => exact Or.inr fun low => heeds (Or.inl ⟨kind, option, low⟩)
        | star => contradiction
      have converted (c : UInt8) : convert fs [.str [c]] =
          some ({ payload := [c], prec := fs.prec }, []) := by
        simp only [convert, kind, convertString_single counts]
      have differ : ([1] : List UInt8) ≠ [2] := by decide
      exact tells_of_convert width precision (converted 1) (converted 2) rfl rfl differ
  | signedInt =>
      have converted {w : UInt64} (small : w = 1 ∨ w = 2) : convert fs [.word w] =
          some ({ payload := [chr '0' + w.toUInt8], signC := fs.prepend, prec := fs.prec }, []) := by
        simp only [convert, kind, convertSigned_small small]
      exact tells_of_convert width precision (converted (Or.inl rfl)) (converted (Or.inr rfl)) rfl rfl
        one_two
  | pointer =>
      have converted {w : UInt64} (small : w = 1 ∨ w = 2) : convert fs [.word w] =
          some ({ payload := [chr '0' + w.toUInt8], need0x := chr 'x', prec := fs.prec }, []) := by
        simp only [convert, kind, npfUtoaRev_small small (by decide : 3 ≤ 16), List.reverse_singleton]
      exact tells_of_convert width precision (converted (Or.inl rfl)) (converted (Or.inr rfl)) rfl rfl
        one_two
  | _ =>
      have converted {w : UInt64} (small : w = 1 ∨ w = 2) :
          convert fs [.word w] = some (convertUnsigned fs w, []) := by
        simp only [convert, kind]
      refine tells_of_convert width precision (converted (Or.inl rfl)) (converted (Or.inr rfl)) ?_ ?_ ?_
      all_goals rw [convertUnsigned_small (Or.inl rfl), convertUnsigned_small (Or.inr rfl)]
      · simp only [List.length_append, List.length_singleton]
      · simp only [List.length_append, List.length_singleton]
      · intro same
        exact one_two (List.append_cancel_left same)

theorem sub_toInt {x y : Int32} (low : -2 ^ 31 ≤ x.toInt - y.toInt)
    (high : x.toInt - y.toInt < 2 ^ 31) : (x - y).toInt = x.toInt - y.toInt := by
  rw [Int32.toInt_sub]
  exact Int.bmod_eq_of_le low high

theorem precPad_le_render (conv : Converted) (kind : fs.convSpec ≠ .string) :
    (precPad fs conv).toNatClampNeg + conv.payload.length ≤ (render fs conv).length := by
  simp only [render, if_neg kind, List.length_append, List.length_replicate]
  omega

theorem fieldPad_le_render (conv : Converted) (kind : fs.convSpec ≠ .string)
    (padded : padChar fs conv ≠ 0) :
    (fieldPad fs conv).toNatClampNeg + (precPad fs conv).toNatClampNeg + conv.payload.length ≤
      (render fs conv).length := by
  -- The padding stands behind a left-justified text, else before it or behind its sign.
  cases left : fs.leftJustified with
  | true =>
      simp only [render, if_neg kind, left, padded, Bool.not_true, Bool.false_eq_true, false_and,
        if_false, ne_eq, not_false_eq_true, and_self, if_true, List.length_append,
        List.length_replicate]
      omega
  | false =>
      by_cases zeros : padChar fs conv = chr '0'
      · have digit : chr '0' ≠ 0 := by decide
        simp only [render, if_neg kind, left, zeros, digit, Bool.not_false, Bool.false_eq_true,
          false_and, if_false, ne_eq, not_false_eq_true, and_self, if_true, List.length_append,
          List.length_replicate]
        omega
      · simp only [render, if_neg kind, left, zeros, padded, Bool.not_false, Bool.false_eq_true,
          false_and, if_false, ne_eq, not_false_eq_true, and_self, if_true, and_false,
          List.length_append, List.length_replicate]
        omega

theorem npfMax_nonneg (x : Int32) : 0 ≤ (npfMax 0 x).toInt := by
  unfold npfMax
  split_ifs with negative
  · decide
  · have least : ¬ x.toInt < (0 : Int32).toInt := mt Int32.lt_iff_toInt_lt.mpr negative
    exact Int.not_lt.mp least

theorem precPad_nonneg (fs : FormatSpec) (conv : Converted) : 0 ≤ (precPad fs conv).toInt := by
  unfold precPad
  split_ifs
  · decide
  · exact npfMax_nonneg _

theorem remainder_enough {x : Int32} (nonneg : 0 ≤ x.toInt) :
    1999 ≤ (1999 - x).toNatClampNeg + x.toNatClampNeg := by
  have high := x.toInt_lt
  have whole : (1999 : Int32).toInt = 1999 := by decide
  have rest : (1999 - x).toInt = 1999 - x.toInt := by
    rw [sub_toInt, whole] <;> rw [whole] <;> omega
  rw [← Int32.toNat_toInt, ← Int32.toNat_toInt, rest]
  omega

/-- A percent sign with a star that counts can be padded without end. -/
theorem FormatSpec.print_long (one : fs.wanted = 1) (kind : fs.convSpec = .percent)
    (heeds : ¬ fs.Ignores) :
    ∃ text, fs.print [.word 2000] = some (text, []) ∧ 2000 ≤ text.length := by
  obtain ⟨_, _, fieldWidthOpt, _, _, leadingZeroPad, precOpt, prec, _, convSpec, _⟩ := fs
  obtain rfl : convSpec = .percent := kind
  cases precOpt with
  | star =>
      cases fieldWidthOpt with
      | star => simp [wanted] at one
      | _ =>
          refine ⟨_, rfl, Nat.le_trans ?_ (precPad_le_render _ (by simp))⟩
          simp [precPad]
  | _ =>
      cases fieldWidthOpt with
      | star =>
          have spaces : leadingZeroPad = false := by
            cases leadingZeroPad with
            | false => rfl
            | true => exact absurd (Or.inr ⟨rfl, by simp, rfl⟩) heeds
          subst spaces
          refine ⟨_, rfl, Nat.le_trans ?_
            (fieldPad_le_render _ (by simp) (by simp [padChar]; decide))⟩
          simpa [fieldPad] using remainder_enough (precPad_nonneg _ _)
      | _ => simp [wanted] at one

theorem FormatSpec.print_other (one : fs.wanted = 1) (heeds : ¬ fs.Ignores) (tail : List UInt8)
    {text : List UInt8} (short : text.length < 2000) :
    ∃ arg first, fs.print [arg] = some (first, []) ∧ first ++ tail ≠ text := by
  by_cases kind : fs.convSpec = .percent
  · obtain ⟨first, printed, long⟩ := print_long one kind heeds
    refine ⟨_, first, printed, fun same => ?_⟩
    rw [← same, List.length_append] at short
    omega
  · obtain ⟨arg, arg', first, first', printed, printed', -, differ⟩ := tells one kind heeds
    by_cases same : first ++ tail = text
    · refine ⟨arg', first', printed', fun same' => differ ?_⟩
      exact List.append_cancel_right (same.trans same'.symm)
    · exact ⟨arg, first, printed, same⟩

/-! ## Formats that heed their arguments -/

def Ignores (ps : List Piece) : Prop := ∀ fs, .spec fs ∈ ps → fs.wanted = 0 ∨ fs.Ignores

theorem printPieces_ignores (one : wanted ps ≤ 1) (ignores : Ignores ps) :
    ∃ text, ∀ args text', printPieces ps args = some text' → text' = text := by
  induction ps with
  | nil => exact ⟨[], fun _ _ printed => (Option.some.inj printed).symm⟩
  | cons p ps ih =>
      have sum : wanted (p :: ps) = p.wanted + wanted ps := rfl
      obtain ⟨tail, later⟩ := ih (by omega) fun fs member => ignores fs (List.mem_cons_of_mem p member)
      cases p with
      | char c =>
          refine ⟨c :: tail, fun args text' printed => ?_⟩
          obtain ⟨tail', printed', rfl⟩ := Option.map_eq_some_iff.mp printed
          rw [later args tail' printed']
      | spec fs =>
          have few : fs.wanted ≤ 1 := Nat.le_trans (Nat.le_add_right _ _) (sum ▸ one)
          obtain ⟨first, front⟩ := fs.print_ignores few (ignores fs List.mem_cons_self)
          refine ⟨first ++ tail, fun args text' printed => ?_⟩
          simp only [printPieces, bind, Option.bind_eq_some_iff] at printed
          obtain ⟨⟨first', rest⟩, printed, back⟩ := printed
          obtain ⟨tail', printed', rfl⟩ := Option.map_eq_some_iff.mp back
          rw [front _ _ _ printed, later _ _ printed']

theorem printPieces_other (one : wanted ps = 1) (heeds : ¬ Ignores ps) {text : List UInt8}
    (short : text.length < 2000) : ∃ args text', printPieces ps args = some text' ∧ text' ≠ text := by
  induction ps generalizing text with
  | nil => simp [wanted] at one
  | cons p ps ih =>
      have sum : wanted (p :: ps) = p.wanted + wanted ps := rfl
      cases p with
      | char c =>
          have later : ¬ Ignores ps := fun ignores =>
            heeds fun fs member => ignores fs (by simpa using member)
          have one' : wanted ps = 1 := by simpa [Piece.wanted] using sum.symm.trans one
          have short' : text.tail.length < 2000 := by
            rw [List.length_tail]
            omega
          obtain ⟨args, tail, printed, other⟩ := ih one' later short'
          refine ⟨args, c :: tail, by simp only [printPieces, printed, Option.map_some], fun same => ?_⟩
          exact other (by rw [← same, List.tail_cons])
      | spec fs =>
          change wanted (.spec fs :: ps) = fs.wanted + wanted ps at sum
          by_cases none : fs.wanted = 0
          · have later : ¬ Ignores ps := by
              intro ignores
              apply heeds
              intro fs' member
              rcases List.mem_cons.mp member with same | member
              · cases same
                exact Or.inl none
              · exact ignores fs' member
            obtain ⟨first, front⟩ := fs.print_of_wanted_zero none
            have short' : (text.drop first.length).length < 2000 := by
              rw [List.length_drop]
              omega
            obtain ⟨args, tail, printed, other⟩ := ih (by omega) later short'
            refine ⟨args, first ++ tail, ?_, fun same => ?_⟩
            · simp only [printPieces, front, printed, bind, Option.bind, Option.map_some]
            · exact other (by rw [← same, List.drop_left])
          · have later : wanted ps = 0 := by omega
            have heeds' : ¬ fs.Ignores := by
              intro ignored
              apply heeds
              intro fs' member
              rcases List.mem_cons.mp member with same | member
              · cases same
                exact Or.inr ignored
              · exact Or.inl (wanted_eq_zero later member)
            obtain ⟨tail, back⟩ := printPieces_of_wanted_zero later
            obtain ⟨arg, first, printed, other⟩ :=
              fs.print_other (by omega) heeds' tail short
            refine ⟨[arg], first ++ tail, ?_, other⟩
            simp only [printPieces, printed, back, bind, Option.bind, Option.map_some]

end Sphynx.External

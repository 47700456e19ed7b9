import Mathlib.Data.List.DropRight
import Mathlib.Data.Nat.Digits.Lemmas

/-!
# Integers as text

Reading an integer from bytes of ASCII: blanks around it, a sign, in base 16 the mark `0x` or `0X`,
and digits, letters of either case from ten on.
-/

namespace Lib

def digitValue (c : UInt8) : Option Nat :=
  if 48 ≤ c ∧ c ≤ 57 then some (c.toNat - 48)
  else if 65 ≤ c ∧ c ≤ 90 then some (c.toNat - 55)
  else if 97 ≤ c ∧ c ≤ 122 then some (c.toNat - 87)
  else none

def digitBelow (base : Nat) (c : UInt8) : Option Nat := (digitValue c).filter (· < base)

def readNumeral (base : Nat) (text : List UInt8) : Option Nat :=
  if text = [] then none
  else (text.mapM (digitBelow base)).map fun ds => Nat.ofDigits base ds.reverse

def readMarked (base : Nat) (text : List UInt8) : Option Nat :=
  match text with
  | zero :: mark :: digits =>
      if base = 16 ∧ zero = 48 ∧ (mark = 120 ∨ mark = 88) then readNumeral 16 digits
      else readNumeral base text
  | _ => readNumeral base text

def trim (text : List UInt8) : List UInt8 := (text.dropWhile (· = 32)).rdropWhile (· = 32)

def readInteger (base : Nat) (text : List UInt8) : Option Int :=
  match trim text with
  | [] => none
  | c :: rest =>
      if c = 45 then (readMarked base rest).map fun n => -(n : Int)
      else if c = 43 then (readMarked base rest).map fun n => (n : Int)
      else (readMarked base (c :: rest)).map fun n => (n : Int)

/-! ## Digits -/

/-- The text consists of the digits `ds`, the highest one first. -/
def Spells (base : Nat) (text : List UInt8) (ds : List Nat) : Prop :=
  List.Forall₂ (fun c d => digitBelow base c = some d) text ds

variable {base n : Nat} {text text' : List UInt8} {ds ds' : List Nat}

theorem Spells.append (spells : Spells base text ds) (spells' : Spells base text' ds') :
    Spells base (text ++ text') (ds ++ ds') := List.rel_append spells spells'

theorem spells_zeros (positive : 0 < base) (k : Nat) :
    Spells base (List.replicate k 48) (List.replicate k 0) := by
  induction k with
  | zero => exact List.Forall₂.nil
  | succ k ih =>
      refine List.Forall₂.cons ?_ ih
      simp [digitBelow, digitValue, positive]

theorem Spells.readNumeral (spells : Spells base text ds) (nonempty : text ≠ []) :
    readNumeral base text = some (Nat.ofDigits base ds.reverse) := by
  have digits : text.mapM (digitBelow base) = some ds := by
    clear nonempty
    induction spells with
    | nil => rfl
    | cons first later ih =>
        rw [List.mapM_cons, first, ih]
        rfl
  rw [Lib.readNumeral, if_neg nonempty, digits]
  rfl

theorem Spells.digit (spells : Spells base text ds) {c : UInt8} (member : c ∈ text) :
    ∃ d < base, digitValue c = some d := by
  induction spells with
  | nil => cases member
  | cons first later ih =>
      rcases List.mem_cons.mp member with rfl | member
      · obtain ⟨value, small⟩ := Option.filter_eq_some_iff.mp first
        exact ⟨_, by simpa using small, value⟩
      · exact ih member

/-- No blank and no sign. -/
theorem Spells.plain (spells : Spells base text ds) {c : UInt8} (member : c ∈ text) :
    c ≠ 32 ∧ c ≠ 43 ∧ c ≠ 45 := by
  obtain ⟨d, -, value⟩ := spells.digit member
  refine ⟨?_, ?_, ?_⟩ <;> (rintro rfl; cases value)

theorem Spells.readMarked (spells : Spells base text ds) (nonempty : text ≠ []) :
    readMarked base text = some (Nat.ofDigits base ds.reverse) := by
  have value := spells.readNumeral nonempty
  rcases text with _ | ⟨zero, _ | ⟨mark, digits⟩⟩
  · contradiction
  · exact value
  · have unmarked : ¬ (base = 16 ∧ zero = 48 ∧ (mark = 120 ∨ mark = 88)) := by
      rintro ⟨rfl, -, letter⟩
      obtain ⟨d, small, digit⟩ := spells.digit (List.mem_cons_of_mem zero List.mem_cons_self)
      have large : d = 33 := by
        rcases letter with rfl | rfl <;> exact (Option.some.inj digit).symm
      omega
    rw [Lib.readMarked, if_neg unmarked, value]

theorem Spells.marked {mark : UInt8} (spells : Spells 16 text ds) (nonempty : text ≠ [])
    (letter : mark = 120 ∨ mark = 88) :
    Lib.readMarked 16 (48 :: mark :: text) = some (Nat.ofDigits 16 ds.reverse) := by
  rw [Lib.readMarked, if_pos ⟨rfl, rfl, letter⟩, spells.readNumeral nonempty]

/-! ## Blanks and signs -/

theorem dropWhile_blanks (k : Nat) (text : List UInt8) :
    (List.replicate k 32 ++ text).dropWhile (· = 32) = text.dropWhile (· = 32) := by
  refine List.dropWhile_append_of_pos fun c member => ?_
  simp [List.eq_of_mem_replicate member]

theorem trim_blanks (text : List UInt8) (k m : Nat) (solid : ∀ c ∈ text, c ≠ 32) :
    trim (List.replicate k 32 ++ (text ++ List.replicate m 32)) = text := by
  have first (text : List UInt8) (solid : ∀ c ∈ text, c ≠ 32) : text.dropWhile (· = 32) = text := by
    cases text with
    | nil => rfl
    | cons c text => simp [solid c List.mem_cons_self]
  have turned : ∀ c ∈ text.reverse, c ≠ 32 := fun c member => solid c (List.mem_reverse.mp member)
  have trailing : (text ++ List.replicate m 32).rdropWhile (· = 32) = text := by
    rw [List.rdropWhile, List.reverse_append, List.reverse_replicate, dropWhile_blanks,
      first _ turned, List.reverse_reverse]
  rw [trim, dropWhile_blanks]
  cases text with
  | nil =>
      have nothing := dropWhile_blanks m []
      rw [List.append_nil] at nothing
      rw [List.nil_append, nothing]
      rfl
  | cons c text =>
      rw [List.cons_append, List.dropWhile_cons_of_neg (by simpa using solid c List.mem_cons_self)]
      exact trailing

/-- Signs, the blank that may stand for one, and what they make of a number. -/
def signed (sign : List UInt8) (n : Nat) : Int := if sign = [45] then -n else n

variable {sign mark : List UInt8}

theorem readInteger_nothing (k m : Nat) (signs : sign = [] ∨ sign = [32] ∨ sign = [43]) :
    readInteger base (List.replicate k 32 ++ (sign ++ List.replicate m 32)) = none := by
  rcases signs with rfl | rfl | rfl
  · have nothing := trim_blanks [] k m (by simp)
    rw [readInteger, nothing]
  · have blank : List.replicate k 32 ++ ([32] ++ List.replicate m 32) =
        List.replicate k 32 ++ ([] ++ List.replicate (m + 1) (32 : UInt8)) := by
      simp [List.replicate_succ]
    have nothing := trim_blanks [] k (m + 1) (by simp)
    rw [readInteger, blank, nothing]
  · have plus := trim_blanks [43] k m (by simp)
    rw [readInteger, plus]
    rfl

theorem readInteger_unsigned {c : UInt8} (trimmed : trim text' = c :: text) (plus : c ≠ 43)
    (minus : c ≠ 45) : readInteger base text' = (readMarked base (c :: text)).map fun n => (n : Int) := by
  simp only [readInteger, trimmed, if_neg plus, if_neg minus]

theorem readInteger_spelled (k m : Nat)
    (signs : sign = [] ∨ sign = [32] ∨ sign = [43] ∨ sign = [45])
    (marks : mark = [] ∨ base = 16 ∧ sign = [] ∧ (mark = [48, 120] ∨ mark = [48, 88]))
    (spells : Spells base text ds) (nonempty : text ≠ []) :
    readInteger base (List.replicate k 32 ++ (sign ++ (mark ++ (text ++ List.replicate m 32)))) =
      some (signed sign (Nat.ofDigits base ds.reverse)) := by
  have solid (c : UInt8) (member : c ∈ text) : c ≠ 32 := (spells.plain member).1
  have unmarked (k : Nat) : readInteger base (List.replicate k 32 ++ (text ++ List.replicate m 32)) =
      some (Nat.ofDigits base ds.reverse : Nat) := by
    have trimmed := trim_blanks text k m solid
    have value := spells.readMarked nonempty
    cases text with
    | nil => contradiction
    | cons c rest =>
        obtain ⟨-, plus, minus⟩ := spells.plain List.mem_cons_self
        rw [readInteger_unsigned trimmed plus minus, value]
        rfl
  rcases marks with rfl | ⟨rfl, rfl, letter⟩
  · rcases signs with rfl | rfl | rfl | rfl
    · exact unmarked k
    · have blank : List.replicate k 32 ++ ([32] ++ ([] ++ (text ++ List.replicate m 32))) =
          List.replicate (k + 1) 32 ++ (text ++ List.replicate m 32) := by
        simp [List.replicate_succ']
      rw [blank]
      exact unmarked (k + 1)
    · have trimmed := trim_blanks (43 :: text) k m (by simpa using solid)
      rw [List.nil_append, ← List.append_assoc [43], readInteger, List.singleton_append, trimmed]
      simp only [if_neg (by decide : ¬ (43 : UInt8) = 45), if_true, spells.readMarked nonempty]
      rfl
    · have trimmed := trim_blanks (45 :: text) k m (by simpa using solid)
      rw [List.nil_append, ← List.append_assoc [45], readInteger, List.singleton_append, trimmed]
      simp only [if_true, spells.readMarked nonempty]
      rfl
  · have marked (c : UInt8) (x : c = 120 ∨ c = 88) :
        readInteger 16 (List.replicate k 32 ++ ([] ++ ([48, c] ++ (text ++ List.replicate m 32)))) =
          some (Nat.ofDigits 16 ds.reverse : Nat) := by
      have solid' : ∀ d ∈ 48 :: c :: text, d ≠ 32 := by
        rcases x with rfl | rfl <;> simpa using solid
      have trimmed := trim_blanks (48 :: c :: text) k m solid'
      rw [List.nil_append, ← List.append_assoc [48, c]]
      refine (readInteger_unsigned trimmed (by decide) (by decide)).trans ?_
      rw [spells.marked nonempty x]
      rfl
    rcases letter with rfl | rfl
    · exact marked 120 (Or.inl rfl)
    · exact marked 88 (Or.inr rfl)

end Lib

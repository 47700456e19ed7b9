import Sphynx.Lib.Search
import Sphynx.Stdlib.String

/-!
# Searching C strings (`string.cpp`)

`strchr`, `strrchr` and `strstr`. The pointer they return is its offset in the string searched,
`none` the null pointer.
-/

namespace Sphynx.Stdlib
open Lib

/-- `static_cast<char>` of an `int`. -/
def toChar (c : Int32) : UInt8 := c.toUInt32.toUInt8

def strchrLoop (ch : UInt8) : List UInt8 → Nat → Except Fault (Option Nat)
  | [], _ => .error .outOfBounds
  | d :: s, i =>
      if d = 0 then .ok none
      else if d = ch then .ok (some i)
      else strchrLoop ch s (i + 1)

def strchr (s : List UInt8) (c : Int32) : Except Fault (Option Nat) := strchrLoop (toChar c) s 0

def strrchrLoop (ch : UInt8) (lastOccurrence : Option Nat) :
    List UInt8 → Nat → Except Fault (Option Nat)
  | [], _ => .error .outOfBounds
  | d :: s, i =>
      if d = 0 then .ok lastOccurrence
      else strrchrLoop ch (if d = ch then some i else lastOccurrence) s (i + 1)

def strrchr (s : List UInt8) (c : Int32) : Except Fault (Option Nat) :=
  strrchrLoop (toChar c) none s 0

def strstrLoop (needle : List UInt8) : List UInt8 → Nat → Except Fault (Option Nat)
  | [], _ => .error .outOfBounds
  | c :: haystack, i => do
      if c = 0 then
        return none
      if c = (← deref needle) then
        if (← strcmp (c :: haystack) needle) = 0 then
          return some i
      strstrLoop needle haystack (i + 1)

def strstr (haystack needle : List UInt8) : Except Fault (Option Nat) := do
  if (← deref needle) = 0 then
    return some 0
  strstrLoop needle haystack 0

variable {s : List UInt8} {ch : UInt8}

/-! ## Characters -/

theorem strchrLoop_finds (ch : UInt8) (clean : 0 ∉ s) :
    ∃ r, First (fun i => s[i]? = some ch) r ∧
      ∀ i after, strchrLoop ch (s ++ 0 :: after) i = .ok (r.map (i + ·)) := by
  induction s with
  | nil => exact ⟨none, fun i => by simp, fun i after => by simp [strchrLoop]⟩
  | cons d s ih =>
      rw [List.mem_cons, not_or] at clean
      have nonzero : d ≠ 0 := Ne.symm clean.1
      by_cases here : d = ch
      · refine ⟨some 0, .zero (congrArg some here), fun i after => ?_⟩
        rw [List.cons_append, strchrLoop, if_neg nonzero, if_pos here]
        rfl
      · obtain ⟨r, first, run⟩ := ih clean.2
        refine ⟨r.map (· + 1), .succ (by simpa using here) first, fun i after => ?_⟩
        rw [List.cons_append, strchrLoop, if_neg nonzero, if_neg here, run, Option.map_map]
        simp only [Function.comp_def, Nat.add_assoc, Nat.add_comm 1]

theorem strrchrLoop_finds (ch : UInt8) (clean : 0 ∉ s) :
    ∃ r, Last (fun i => s[i]? = some ch) r ∧ ∀ i last after,
      strrchrLoop ch last (s ++ 0 :: after) i = .ok ((r.map (i + ·)).or last) := by
  induction s with
  | nil => exact ⟨none, fun i => by simp, fun i last after => by simp [strrchrLoop]⟩
  | cons d s ih =>
      rw [List.mem_cons, not_or] at clean
      have nonzero : d ≠ 0 := Ne.symm clean.1
      obtain ⟨r, last, run⟩ := ih clean.2
      refine ⟨_, .succ last, fun i before after => ?_⟩
      rw [List.cons_append, strrchrLoop, if_neg nonzero, run]
      cases r with
      | some j => simp [Nat.add_assoc, Nat.add_comm 1]
      | none => by_cases here : d = ch <;> simp [here]

/-- `strchr` finds the least index in the string, its terminator included, that holds `c`. -/
def StrchrFinds (s : CString) (c : Int32) : Prop :=
  ∃ r, First (fun i => (s.chars ++ [0])[i]? = some (toChar c)) r ∧
    ∀ after, strchr (s.stored after) c = .ok r

def StrrchrFinds (s : CString) (c : Int32) : Prop :=
  ∃ r, Last (fun i => (s.chars ++ [0])[i]? = some (toChar c)) r ∧
    ∀ after, strrchr (s.stored after) c = .ok r

theorem getElem_terminated (nonzero : ch ≠ 0) (i : Nat) :
    s[i]? = some ch ↔ (s ++ [0])[i]? = some ch := by
  by_cases inside : i < s.length
  · rw [List.getElem?_append_left inside]
  · have outside : s.length ≤ i := by omega
    rw [List.getElem?_append_right outside, List.getElem?_eq_none outside]
    cases i - s.length <;> simp [Ne.symm nonzero]

theorem getElem_ne_zero (clean : 0 ∉ s) (i : Nat) : ¬ s[i]? = some 0 :=
  fun zero => clean (List.mem_of_getElem? zero)

/-- A search of the characters answers for the whole string unless it is for the terminator. -/
theorem first_terminated_iff {r : Option Nat} (clean : 0 ∉ s)
    (least : First (fun i => s[i]? = some ch) r) :
    First (fun i => (s ++ [0])[i]? = some ch) r ↔ ch ≠ 0 := by
  constructor
  · rintro whole rfl
    obtain ⟨_, here, -⟩ := whole.of_holds List.getElem?_concat_length
    rw [least.eq_none (getElem_ne_zero clean)] at here
    cases here
  · intro nonzero
    exact least.congr (getElem_terminated nonzero)

theorem last_terminated_iff {r : Option Nat} (clean : 0 ∉ s)
    (greatest : Last (fun i => s[i]? = some ch) r) :
    Last (fun i => (s ++ [0])[i]? = some ch) r ↔ ch ≠ 0 := by
  constructor
  · rintro whole rfl
    obtain ⟨_, here, -⟩ := whole.of_holds List.getElem?_concat_length
    rw [greatest.eq_none (getElem_ne_zero clean)] at here
    cases here
  · intro nonzero
    exact greatest.congr (getElem_terminated nonzero)

theorem answer_iff {P : Option Nat → Prop} {search : List UInt8 → Except Fault (Option Nat)}
    {r : Option Nat} (run : ∀ after, search after = .ok r) :
    (∃ r', P r' ∧ ∀ after, search after = .ok r') ↔ P r := by
  constructor
  · rintro ⟨r', holds, returned⟩
    have same : r = r' := Except.ok.inj ((run []).symm.trans (returned []))
    rwa [same]
  · intro holds
    exact ⟨r, holds, run⟩

theorem strchr_finds_iff (s : CString) (c : Int32) :
    (StrchrFinds s c ↔ toChar c ≠ 0) ∧ (StrrchrFinds s c ↔ toChar c ≠ 0) := by
  obtain ⟨r, first, run⟩ := strchrLoop_finds (toChar c) s.nonzero
  obtain ⟨r', last, run'⟩ := strrchrLoop_finds (toChar c) s.nonzero
  have strchr_eq (after : List UInt8) : strchr (s.stored after) c = .ok r := by
    rw [strchr, CString.stored, run]
    simp only [Nat.zero_add, Option.map_id']
  have strrchr_eq (after : List UInt8) : strrchr (s.stored after) c = .ok r' := by
    rw [strrchr, CString.stored, run']
    simp only [Nat.zero_add, Option.map_id', Option.or_none]
  constructor
  · exact (answer_iff strchr_eq).trans (first_terminated_iff s.nonzero first)
  · exact (answer_iff strrchr_eq).trans (last_terminated_iff s.nonzero last)

theorem terminator_missed : ¬ StrchrFinds ⟨[], by simp⟩ 0 := by
  rintro ⟨r, least, returned⟩
  have missed : (Except.ok r : Except Fault _) = .ok none := (returned []).symm.trans rfl
  obtain ⟨_, here, -⟩ := least.of_holds (i := 0) rfl
  rw [here] at missed
  cases missed

/-! ## Strings -/

theorem deref_stored {s : CString} (nonempty : s.chars ≠ []) :
    ∃ c rest, s.chars = c :: rest ∧ c ≠ 0 ∧ ∀ after, deref (s.stored after) = .ok c := by
  obtain ⟨c, rest, chars⟩ := List.exists_cons_of_ne_nil nonempty
  refine ⟨c, rest, chars, ?_, fun after => ?_⟩
  · rintro rfl
    exact s.nonzero (by rw [chars]; exact List.mem_cons_self)
  · rw [CString.stored, chars]
    rfl

/-- At each place the loop compares what is left of the haystack with the whole needle. -/
theorem strstrLoop_cons {needle : CString} (nonempty : needle.chars ≠ []) {c : UInt8}
    (clean : 0 ∉ c :: s) (i : Nat) (after after' : List UInt8) :
    strstrLoop (needle.stored after') (c :: s ++ 0 :: after) i =
      if c :: s = needle.chars then .ok (some i)
      else strstrLoop (needle.stored after') (s ++ 0 :: after) (i + 1) := by
  obtain ⟨n, rest, chars, -, head⟩ := deref_stored nonempty
  have nonzero : c ≠ 0 := by
    rintro rfl
    exact clean List.mem_cons_self
  have member : 0 ∈ c :: s ++ 0 :: after := by simp
  obtain ⟨r, compared⟩ := strcmp_ok (c :: s ++ 0 :: after) needle after' (Or.inl member)
  have equal : r = 0 ↔ c :: s = needle.chars := by
    have ends := strcmp_eq_zero_iff (c :: s ++ 0 :: after) needle after'
    rw [compared, Except.ok.injEq, terminated_prefix_iff needle.nonzero clean] at ends
    rw [ends, eq_comm]
  rw [List.cons_append] at compared ⊢
  rw [strstrLoop, if_neg nonzero, head]
  by_cases first : c = n
  · simp only [bind, Except.bind, if_pos first, compared, equal]
    split_ifs <;> rfl
  · have other : c :: s ≠ needle.chars := by
      rw [chars]
      exact fun same => first (List.cons.inj same).1
    simp only [bind, Except.bind, if_neg first, if_neg other]

theorem strstrLoop_finds {needle : CString} (nonempty : needle.chars ≠ []) {haystack : List UInt8}
    (clean : 0 ∉ haystack) :
    ∃ r, First (fun i => haystack.drop i = needle.chars) r ∧ ∀ i after after',
      strstrLoop (needle.stored after') (haystack ++ 0 :: after) i = .ok (r.map (i + ·)) := by
  induction haystack with
  | nil =>
      refine ⟨none, fun i => ?_, fun i after after' => ?_⟩
      · simpa using nonempty.symm
      · rfl
  | cons c haystack ih =>
      have clean' : 0 ∉ haystack := fun member => clean (List.mem_cons_of_mem c member)
      by_cases here : c :: haystack = needle.chars
      · refine ⟨some 0, .zero here, fun i after after' => ?_⟩
        rw [strstrLoop_cons nonempty clean, if_pos here]
        rfl
      · obtain ⟨r, first, run⟩ := ih clean'
        refine ⟨r.map (· + 1), .succ here first, fun i after after' => ?_⟩
        rw [strstrLoop_cons nonempty clean, if_neg here, run, Option.map_map]
        simp only [Function.comp_def, Nat.add_assoc, Nat.add_comm 1]

def StrstrFinds (haystack needle : CString) : Prop :=
  ∃ r, First (fun i => needle.chars <+: haystack.chars.drop i) r ∧
    ∀ after after', strstr (haystack.stored after) (needle.stored after') = .ok r

theorem strstr_empty {needle : CString} (empty : needle.chars = []) (haystack after : List UInt8) :
    strstr haystack (needle.stored after) = .ok (some 0) := by
  rw [CString.stored, empty]
  rfl

theorem strstr_ends {needle : CString} (nonempty : needle.chars ≠ []) (haystack : CString) :
    ∃ r, First (fun i => haystack.chars.drop i = needle.chars) r ∧
      ∀ after after', strstr (haystack.stored after) (needle.stored after') = .ok r := by
  obtain ⟨r, first, run⟩ := strstrLoop_finds nonempty haystack.nonzero
  refine ⟨r, first, fun after after' => ?_⟩
  obtain ⟨n, rest, chars, nonzero, head⟩ := deref_stored nonempty
  have run' := run 0 after after'
  simp only [Nat.zero_add, Option.map_id'] at run'
  simp only [strstr, head, bind, Except.bind, if_neg nonzero]
  exact run'

theorem strstr_finds_iff (haystack needle : CString) :
    StrstrFinds haystack needle ↔
      needle.chars = [] ∨
        ∀ before rest, haystack.chars = before ++ needle.chars ++ rest → rest = [] := by
  by_cases empty : needle.chars = []
  · refine ⟨fun _ => Or.inl empty, fun _ => ⟨some 0, ?_, ?_⟩⟩
    · exact .zero (by rw [empty]; exact List.nil_prefix)
    · exact fun after after' => strstr_empty empty _ after'
  · obtain ⟨r, ends, run⟩ := strstr_ends empty haystack
    constructor
    · rintro ⟨found, least, returned⟩
      right
      intro before rest split
      have occurs : needle.chars <+: haystack.chars.drop before.length := by
        rw [split, List.append_assoc, List.drop_left]
        exact List.prefix_append _ _
      obtain ⟨i, here, -, earlier⟩ := least.of_holds occurs
      have same : r = found := Except.ok.inj ((run [] []).symm.trans (returned [] []))
      rw [same, here] at ends
      have lengths := congrArg List.length ends.1
      have total := congrArg List.length split
      rw [List.length_drop] at lengths
      rw [List.length_append, List.length_append] at total
      have positive := List.length_pos_iff.mpr empty
      exact List.length_eq_zero_iff.mp (by omega)
    · intro condition
      have atEnd := condition.resolve_left empty
      refine ⟨r, ends.congr fun i => ⟨fun same => ?_, fun occurs => ?_⟩, run⟩
      · rw [same]
      · obtain ⟨rest, split⟩ := occurs
        have whole : haystack.chars = haystack.chars.take i ++ needle.chars ++ rest := by
          rw [List.append_assoc, split, List.take_append_drop]
        have nothing := atEnd _ _ whole
        rw [← split, nothing, List.append_nil]

theorem inner_occurrence_missed : ¬ StrstrFinds ⟨[97, 98], by decide⟩ ⟨[97], by decide⟩ := by
  rintro ⟨r, least, returned⟩
  have missed : (Except.ok r : Except Fault _) = .ok none := (returned [] []).symm.trans rfl
  obtain ⟨_, here, -⟩ := least.of_holds (i := 0) ⟨[98], rfl⟩
  rw [here] at missed
  cases missed

end Sphynx.Stdlib

import Sphynx.Stdlib.String

/-!
# The order of C strings (`string.cpp`)

`strcmp` and `strncmp` compare by one order: the lexicographic order of the bytes as unsigned
numbers.
-/

namespace Sphynx.Stdlib
open Lib

def strncmp : List UInt8 → List UInt8 → Nat → Except Fault Int
  | _, _, 0 => .ok 0
  | c₁ :: s₁, c₂ :: s₂, n + 1 =>
      if c₁ ≠ 0 ∧ c₁ = c₂ then strncmp s₁ s₂ n else .ok ((c₁.toNat : Int) - c₂.toNat)
  | _, _, _ + 1 => .error .outOfBounds

variable {s t p q : List UInt8}

/-! ## `strcmp` -/

theorem uchar_difference_neg (c d : UInt8) : (c.toNat : Int) - d.toNat < 0 ↔ c < d := by
  rw [UInt8.lt_iff_toNat_lt]
  omega

theorem uchar_pos {c : UInt8} (nonzero : 0 ≠ c) : 0 < c.toNat := by
  rw [Nat.pos_iff_ne_zero]
  exact fun zero => nonzero (UInt8.toNat_inj.mp zero).symm

theorem strcmp_sign (s_clean : 0 ∉ s) (t_clean : 0 ∉ t) :
    ∃ r, (∀ after after', strcmp (s ++ 0 :: after) (t ++ 0 :: after') = .ok r) ∧
      (r < 0 ↔ s < t) ∧ (0 < r ↔ t < s) := by
  induction s generalizing t with
  | nil =>
      cases t with
      | nil => exact ⟨0, fun _ _ => rfl, by simp, by simp⟩
      | cons d t =>
          rw [List.mem_cons, not_or] at t_clean
          have positive := uchar_pos t_clean.1
          exact ⟨0 - d.toNat, fun _ _ => rfl, by simp [positive], by simp⟩
  | cons c s ih =>
      rw [List.mem_cons, not_or] at s_clean
      have positive := uchar_pos s_clean.1
      cases t with
      | nil =>
          refine ⟨c.toNat - 0, fun _ _ => ?_, by simp, by simp [positive]⟩
          simp [strcmp, Ne.symm s_clean.1]
      | cons d t =>
          rw [List.mem_cons, not_or] at t_clean
          by_cases same : c = d
          · subst same
            obtain ⟨r, run, less, greater⟩ := ih s_clean.2 t_clean.2
            refine ⟨r, fun after after' => ?_, ?_, ?_⟩
            · rw [List.cons_append, List.cons_append, strcmp, if_pos ⟨Ne.symm s_clean.1, rfl⟩, run]
            · rw [less, List.cons_lt_cons_iff]
              simp
            · rw [greater, List.cons_lt_cons_iff]
              simp
          · refine ⟨c.toNat - d.toNat, fun after after' => ?_, ?_, ?_⟩
            · rw [List.cons_append, List.cons_append, strcmp, if_neg fun step => same step.2]
            · rw [uchar_difference_neg, List.cons_lt_cons_iff]
              simp [same]
            · rw [List.cons_lt_cons_iff, UInt8.lt_iff_toNat_lt]
              simp only [Ne.symm same, false_and, or_false]
              omega

/-! ## `strncmp` -/

/-- No more than the first `n` bytes of either object decide. -/
theorem strncmp_take (p q : List UInt8) (n : Nat) :
    strncmp (p.take n) (q.take n) n = strncmp p q n := by
  induction n generalizing p q with
  | zero => simp [strncmp]
  | succ n ih =>
      cases p with
      | nil => simp [strncmp]
      | cons c p =>
          cases q with
          | nil => simp [strncmp]
          | cons d q => simp only [List.take_succ_cons, strncmp, ih]

theorem strncmp_eq_strcmp (s_clean : 0 ∉ s) (t_clean : 0 ∉ t) (after after' : List UInt8) (n : Nat) :
    strncmp (s ++ 0 :: after) (t ++ 0 :: after') n =
      strcmp (s.take n ++ [0]) (t.take n ++ [0]) := by
  induction n generalizing s t with
  | zero => simp [strncmp, strcmp]
  | succ n ih =>
      cases s with
      | nil =>
          cases t with
          | nil => simp [strncmp, strcmp]
          | cons d t => simp [strncmp, strcmp]
      | cons c s =>
          rw [List.mem_cons, not_or] at s_clean
          cases t with
          | nil => simp [strncmp, strcmp, Ne.symm s_clean.1]
          | cons d t =>
              rw [List.mem_cons, not_or] at t_clean
              simp only [List.cons_append, List.take_succ_cons, strncmp, strcmp,
                ih s_clean.2 t_clean.2]

/-! ## One order -/

/-- What `strcmp` returns for two strings; with nothing behind their terminators, it reads no
further. -/
def Compares (a b : CString) (r : Int) : Prop :=
  ∀ after after', strcmp (a.stored after) (b.stored after') = .ok r

/-- What `strncmp` returns, also from objects that end behind their first `n` bytes. -/
def ComparesFirst (n : Nat) (a b : CString) (r : Int) : Prop :=
  ∀ after after', strncmp (a.stored after) (b.stored after') n = .ok r ∧
    strncmp ((a.stored after).take n) ((b.stored after').take n) n = .ok r

theorem exists_compares (a b : CString) :
    ∃ r, Compares a b r ∧ (r < 0 ↔ a.chars < b.chars) ∧ (0 < r ↔ b.chars < a.chars) :=
  strcmp_sign a.nonzero b.nonzero

namespace Compares
variable {a b c : CString} {r r' ab ba bc ac : Int}

theorem unique (h : Compares a b r) (h' : Compares a b r') : r = r' :=
  Except.ok.inj ((h [] []).symm.trans (h' [] []))

theorem neg_iff (h : Compares a b r) : r < 0 ↔ a.chars < b.chars := by
  obtain ⟨r', compares, less, -⟩ := exists_compares a b
  rw [h.unique compares]
  exact less

theorem pos_iff (h : Compares a b r) : 0 < r ↔ b.chars < a.chars := by
  obtain ⟨r', compares, -, greater⟩ := exists_compares a b
  rw [h.unique compares]
  exact greater

theorem eq_zero_iff (h : Compares a b r) : r = 0 ↔ a = b := by
  have equal := strcmp_eq_zero_iff (a.stored []) b []
  rw [h, Except.ok.injEq, CString.stored, terminated_prefix_iff b.nonzero a.nonzero] at equal
  rw [equal, eq_comm, CString.ext_iff]

theorem sign_swap (h : Compares a b ab) (h' : Compares b a ba) : ba.sign = -ab.sign := by
  rcases Int.lt_trichotomy ab 0 with less | equal | greater
  · have flipped : 0 < ba := h'.pos_iff.mpr (h.neg_iff.mp less)
    rw [Int.sign_eq_one_of_pos flipped, Int.sign_eq_neg_one_of_neg less, Int.neg_neg]
  · have flipped : ba = 0 := h'.eq_zero_iff.mpr (h.eq_zero_iff.mp equal).symm
    rw [equal, flipped]
    rfl
  · have flipped : ba < 0 := h'.neg_iff.mpr (h.pos_iff.mp greater)
    rw [Int.sign_eq_one_of_pos greater, Int.sign_eq_neg_one_of_neg flipped]

theorem lt_trans (left : Compares a b ab) (right : Compares b c bc) (across : Compares a c ac)
    (less : ab < 0) (less' : bc < 0) : ac < 0 := by
  rw [left.neg_iff] at less
  rw [right.neg_iff] at less'
  rw [across.neg_iff]
  exact List.lt_trans less less'

theorem le_trans (left : Compares a b ab) (right : Compares b c bc) (across : Compares a c ac)
    (le : ab ≤ 0) (le' : bc ≤ 0) : ac ≤ 0 := by
  rcases Int.lt_or_eq_of_le le with less | equal
  · rcases Int.lt_or_eq_of_le le' with less' | equal'
    · exact Int.le_of_lt (left.lt_trans right across less less')
    · obtain rfl := right.eq_zero_iff.mp equal'
      rw [across.unique left]
      exact le
  · obtain rfl := left.eq_zero_iff.mp equal
    rw [across.unique right]
    exact le'

theorem first {n : Nat} (h : Compares (a.take n) (b.take n) r) : ComparesFirst n a b r := by
  intro after after'
  have whole : strncmp (a.stored after) (b.stored after') n = .ok r := by
    rw [CString.stored, CString.stored, strncmp_eq_strcmp a.nonzero b.nonzero]
    exact h [] []
  exact ⟨whole, (strncmp_take _ _ n).trans whole⟩

end Compares

theorem strcmp_strncmp_order (a b c : CString) (n : Nat) :
    ∃ ab ba bc ac first, Compares a b ab ∧ Compares b a ba ∧ Compares b c bc ∧ Compares a c ac ∧
      ComparesFirst n a b first ∧
      (ab < 0 ↔ a.chars < b.chars) ∧ (0 < ab ↔ b.chars < a.chars) ∧ (ab = 0 ↔ a = b) ∧
      ba.sign = -ab.sign ∧ (ab ≤ 0 → bc ≤ 0 → ac ≤ 0) ∧ (ab < 0 → bc < 0 → ac < 0) ∧
      Compares (a.take n) (b.take n) first ∧ (n = 0 → first = 0) ∧
      (a.chars.length < n → b.chars.length < n → first = ab) := by
  obtain ⟨ab, a_b, less, greater⟩ := exists_compares a b
  obtain ⟨ba, b_a, -⟩ := exists_compares b a
  obtain ⟨bc, b_c, -⟩ := exists_compares b c
  obtain ⟨ac, a_c, -⟩ := exists_compares a c
  obtain ⟨first, cut, -⟩ := exists_compares (a.take n) (b.take n)
  refine ⟨ab, ba, bc, ac, first, a_b, b_a, b_c, a_c, cut.first, less, greater, a_b.eq_zero_iff,
    a_b.sign_swap b_a, a_b.le_trans b_c a_c, a_b.lt_trans b_c a_c, cut, ?_, ?_⟩
  · rintro rfl
    exact cut.eq_zero_iff.mpr rfl
  · intro a_shorter b_shorter
    rw [CString.take_of_length_lt a_shorter, CString.take_of_length_lt b_shorter] at cut
    exact cut.unique a_b

end Sphynx.Stdlib

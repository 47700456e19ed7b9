import Mathlib.Order.Bounds.Basic
import Mathlib.Data.Nat.Bitwise

/-!
# Rounding to multiples

The neighbouring multiples of a number, and the bit masks that find them when the number is a power
of two.
-/

namespace Lib

variable {n b m M : Nat}

theorem isGreatest_multiple (n : Nat) (positive : 0 < b) :
    IsGreatest {m | b ∣ m ∧ m ≤ n} (n / b * b) := by
  refine ⟨⟨Nat.dvd_mul_left b (n / b), Nat.div_mul_le_self n b⟩, ?_⟩
  rintro m ⟨⟨q, rfl⟩, below⟩
  rw [Nat.mul_comm b q] at below ⊢
  exact Nat.mul_le_mul_right b ((Nat.le_div_iff_mul_le positive).mpr below)

theorem isLeast_multiple (n : Nat) (positive : 0 < b) :
    IsLeast {m | b ∣ m ∧ n ≤ m} ((n + b - 1) / b * b) := by
  have split := Nat.div_add_mod' (n + b - 1) b
  have small := Nat.mod_lt (n + b - 1) positive
  refine ⟨⟨Nat.dvd_mul_left b _, by omega⟩, ?_⟩
  rintro m ⟨⟨q, rfl⟩, above⟩
  have next : (n + b - 1) / b < q + 1 := by
    rw [Nat.div_lt_iff_lt_mul positive, Nat.add_mul, Nat.mul_comm q]
    omega
  rw [Nat.mul_comm b q]
  exact Nat.mul_le_mul_right b (Nat.le_of_lt_succ next)

/-- Reduced modulo a multiple of `b`, only the numbers below that multiple round as before. -/
theorem mod_multiple_eq_iff (positive : 0 < b) (divides : b ∣ M) (some_range : 0 < M) :
    n % M / b * b = n / b * b ↔ n < M := by
  constructor
  · intro same
    by_contra large
    have reached := (isGreatest_multiple n positive).2 ⟨divides, Nat.not_lt.mp large⟩
    have low := Nat.div_mul_le_self (n % M) b
    have small := Nat.mod_lt n some_range
    omega
  · intro small
    rw [Nat.mod_eq_of_lt small]

theorem add_le_of_multiple (divides : b ∣ M) (multiple : b ∣ m) (below : m < M) : m + b ≤ M := by
  have gap := Nat.le_of_dvd (Nat.sub_pos_of_lt below) (Nat.dvd_sub divides multiple)
  omega

section
variable {w k : Nat} {bits : BitVec w}

theorem two_pow_dvd_range (power : bits.toNat = 2 ^ k) : 2 ^ k ∣ 2 ^ w := by
  have bound := bits.isLt
  rw [power] at bound
  exact Nat.pow_dvd_pow 2 (Nat.le_of_lt ((Nat.pow_lt_pow_iff_right (by decide)).mp bound))

theorem sub_one_toNat (power : bits.toNat = 2 ^ k) (some_bits : 0 < w) :
    (bits - 1#w).toNat = 2 ^ k - 1 := by
  have one : 1 < 2 ^ w := Nat.one_lt_two_pow some_bits.ne'
  have below : 1#w ≤ bits := by
    rw [BitVec.le_def, power, BitVec.toNat_ofNat, Nat.mod_eq_of_lt one]
    exact Nat.two_pow_pos k
  rw [BitVec.toNat_sub_of_le below, power, BitVec.toNat_ofNat, Nat.mod_eq_of_lt one]

end

/-- The mask is formed in `v` bits and then widened: it also clears all bits from `v` on. -/
theorem and_mask_toNat {v w k : Nat} (x : BitVec w) (mask : BitVec v) (power : mask.toNat = 2 ^ k - 1)
    (narrow : v ≤ w) :
    (x &&& (~~~mask).setWidth w).toNat = x.toNat % 2 ^ v / 2 ^ k * 2 ^ k := by
  apply Nat.eq_of_testBit_eq
  intro i
  have bit : mask.getLsbD i = decide (i < k) := by
    rw [← BitVec.testBit_toNat, power, Nat.testBit_two_pow_sub_one]
  rw [BitVec.testBit_toNat, BitVec.getLsbD_and, BitVec.getLsbD_setWidth, BitVec.getLsbD_not, bit,
    Nat.testBit_mul_two_pow, Nat.testBit_div_two_pow, Nat.testBit_mod_two_pow, BitVec.testBit_toNat]
  by_cases low : i < k
  · simp [low]
  · have high : k ≤ i := Nat.not_lt.mp low
    rw [Nat.sub_add_cancel high]
    by_cases inside : i < v
    · have within : i < w := Nat.lt_of_lt_of_le inside narrow
      simp [low, high, inside, within]
    · simp [inside]

end Lib

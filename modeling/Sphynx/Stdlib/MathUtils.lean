import Sphynx.Lib.CInteger
import Sphynx.Lib.Rounding

/-!
# Rounding macros (`math_utils.hpp`)

`ALIGN_UP` and `ALIGN_DOWN` form their mask in the type of the base. For a base in a `uint32_t` the
mask has no bits from 32 on, and the conversion to 64 bits does not add them.
-/

namespace Sphynx.Stdlib
open Lib

def divRoundup (x y : CInt) : CInt := (x + y - 1) / y

def alignUp (x base : CInt) : CInt := (x + base - 1) &&& ~~~(base - 1)

def alignDown (x base : CInt) : CInt := x &&& ~~~(base - 1)

/-- A power of two in a `uint32_t` or a `uint64_t` operand. -/
inductive Alignment where
  | narrow (bits : BitVec 32) (exponent : Nat) (power : bits.toNat = 2 ^ exponent)
  | wide (bits : BitVec 64) (exponent : Nat) (power : bits.toNat = 2 ^ exponent)

namespace Alignment

def operand : Alignment → CInt
  | .narrow bits _ _ => .uint32 bits
  | .wide bits _ _ => .uint64 bits

def size : Alignment → Nat
  | .narrow bits _ _ => bits.toNat
  | .wide bits _ _ => bits.toNat

variable (b : Alignment) (x : BitVec 64)

theorem size_pos : 0 < b.size := by
  cases b with
  | narrow bits k power =>
      rw [size, power]
      exact Nat.two_pow_pos k
  | wide bits k power =>
      rw [size, power]
      exact Nat.two_pow_pos k

theorem size_dvd : b.size ∣ 2 ^ b.operand.width := by
  cases b with
  | narrow bits k power =>
      rw [size, power]
      exact two_pow_dvd_range power
  | wide bits k power =>
      rw [size, power]
      exact two_pow_dvd_range power

theorem size_le : b.size ≤ 2 ^ b.operand.width := Nat.le_of_dvd (Nat.two_pow_pos _) b.size_dvd

theorem size_dvd_range : b.size ∣ 2 ^ 64 := by
  cases b with
  | narrow bits k power => exact (size_dvd (.narrow bits k power)).trans (by decide : 2 ^ 32 ∣ 2 ^ 64)
  | wide bits k power => exact size_dvd (.wide bits k power)

theorem toUInt64_toNat : b.operand.toUInt64.toNat = b.size := by
  cases b with
  | narrow bits k power =>
      change (bits.setWidth 64).toNat = bits.toNat
      rw [BitVec.toNat_setWidth, Nat.mod_eq_of_lt (Nat.lt_trans bits.isLt (by decide))]
  | wide bits k power => rfl

theorem masked (y : BitVec 64) :
    ∃ z : BitVec 64, (.uint64 y : CInt) &&& ~~~(b.operand - 1) = .uint64 z ∧
      z.toNat = y.toNat % 2 ^ b.operand.width / b.size * b.size := by
  cases b with
  | narrow bits k power =>
      refine ⟨y &&& (~~~(bits - 1)).setWidth 64, rfl, ?_⟩
      rw [size, power]
      exact and_mask_toNat y (bits - 1) (sub_one_toNat power (by decide)) (by decide)
  | wide bits k power =>
      refine ⟨y &&& (~~~(bits - 1)).setWidth 64, ?_, ?_⟩
      · rw [BitVec.setWidth_eq]
        rfl
      · rw [size, power]
        exact and_mask_toNat y (bits - 1) (sub_one_toNat power (by decide)) (Nat.le_refl 64)

end Alignment

variable (x : BitVec 64) (b : Alignment)

theorem alignDown_value :
    (alignDown (.uint64 x) b.operand).value.toNat =
      x.toNat % 2 ^ b.operand.width / b.size * b.size := by
  obtain ⟨z, run, value⟩ := b.masked x
  rw [alignDown, run]
  exact value

/-- `x + base - 1` in 64 bits. -/
def lastReached (x : BitVec 64) (b : Alignment) : Nat := (x.toNat + b.size - 1) % 2 ^ 64

theorem lastReached_eq :
    ∃ y : BitVec 64, (.uint64 x : CInt) + b.operand - 1 = .uint64 y ∧ y.toNat = lastReached x b := by
  have positive := b.size_pos
  refine ⟨x + b.operand.toUInt64 - 1, ?_, ?_⟩
  · rw [CInt.uint64_add, CInt.uint64_sub]
    rfl
  · rw [lastReached, ← b.toUInt64_toNat] at *
    bv_omega

theorem alignUp_value :
    ∃ z : BitVec 64, alignUp (.uint64 x) b.operand = .uint64 z ∧
      z.toNat = lastReached x b % 2 ^ b.operand.width / b.size * b.size := by
  obtain ⟨y, sum, reached⟩ := lastReached_eq x b
  rw [alignUp, sum, ← reached]
  exact b.masked y

theorem divRoundup_value :
    ∃ z : BitVec 64, divRoundup (.uint64 x) b.operand * b.operand = .uint64 z ∧
      z.toNat = lastReached x b / b.size * b.size := by
  obtain ⟨y, sum, reached⟩ := lastReached_eq x b
  refine ⟨y / b.operand.toUInt64 * b.operand.toUInt64, ?_, ?_⟩
  · rw [divRoundup, sum, CInt.uint64_div, CInt.uint64_mul]
  · have bound := Nat.div_mul_le_self y.toNat b.size
    rw [BitVec.toNat_mul, BitVec.toNat_udiv, b.toUInt64_toNat,
      Nat.mod_eq_of_lt (Nat.lt_of_le_of_lt bound y.isLt), reached]

theorem lastReached_lt_iff :
    lastReached x b < 2 ^ b.operand.width ↔
      x.toNat + b.size ≤ 2 ^ b.operand.width ∨ 2 ^ 64 < x.toNat + b.size := by
  have positive := b.size_pos
  have size := b.size_le
  have range := Nat.le_of_dvd (Nat.two_pow_pos 64) b.size_dvd_range
  have bound := x.isLt
  unfold lastReached
  by_cases wraps : 2 ^ 64 < x.toNat + b.size
  · have wrapped : (x.toNat + b.size - 1) % 2 ^ 64 = x.toNat + b.size - 1 - 2 ^ 64 := by omega
    rw [wrapped]
    omega
  · rw [Nat.mod_eq_of_lt (by omega)]
    omega

/-! ## When they are exact -/

def AlignsDown (x : BitVec 64) (b : Alignment) : Prop :=
  IsGreatest {m | b.size ∣ m ∧ m ≤ x.toNat} (alignDown (.uint64 x) b.operand).value.toNat

def AlignsUp (x : BitVec 64) (b : Alignment) : Prop :=
  ∀ m, IsLeast {m | b.size ∣ m ∧ x.toNat ≤ m} m → m < 2 ^ 64 →
    (alignUp (.uint64 x) b.operand).value.toNat = m

def RoundsUpAlike (x : BitVec 64) (b : Alignment) : Prop :=
  alignUp (.uint64 x) b.operand = divRoundup (.uint64 x) b.operand * b.operand

theorem alignsDown_iff : AlignsDown x b ↔ x.toNat < 2 ^ b.operand.width := by
  have greatest := isGreatest_multiple x.toNat b.size_pos
  have round := mod_multiple_eq_iff (n := x.toNat) b.size_pos b.size_dvd (Nat.two_pow_pos _)
  rw [AlignsDown, alignDown_value, ← round]
  constructor
  · intro found
    exact found.unique greatest
  · intro same
    rw [same]
    exact greatest

theorem roundsUpAlike_iff :
    RoundsUpAlike x b ↔
      x.toNat + b.size ≤ 2 ^ b.operand.width ∨ 2 ^ 64 < x.toNat + b.size := by
  have round := mod_multiple_eq_iff (n := lastReached x b) b.size_pos b.size_dvd (Nat.two_pow_pos _)
  obtain ⟨up, up_eq, up_value⟩ := alignUp_value x b
  obtain ⟨rounded, rounded_eq, rounded_value⟩ := divRoundup_value x b
  rw [← lastReached_lt_iff, ← round, RoundsUpAlike, up_eq, rounded_eq, CInt.uint64.injEq,
    ← BitVec.toNat_inj, up_value, rounded_value]

theorem alignsUp_iff :
    AlignsUp x b ↔ x.toNat + b.size ≤ 2 ^ b.operand.width ∨ 2 ^ 64 < x.toNat + b.size := by
  have positive := b.size_pos
  obtain ⟨up, up_eq, up_value⟩ := alignUp_value x b
  have value : (alignUp (.uint64 x) b.operand).value.toNat = up.toNat := by
    rw [up_eq]
    rfl
  have least := isLeast_multiple x.toNat positive
  by_cases wraps : 2 ^ 64 < x.toNat + b.size
  · constructor
    · exact fun _ => Or.inr wraps
    · intro _ m found below
      have room := add_le_of_multiple b.size_dvd_range found.1.1 below
      have above : x.toNat ≤ m := found.1.2
      omega
  · have reached : lastReached x b = x.toNat + b.size - 1 := Nat.mod_eq_of_lt (by omega)
    have round := mod_multiple_eq_iff (n := lastReached x b) positive b.size_dvd (Nat.two_pow_pos _)
    have representable : (x.toNat + b.size - 1) / b.size * b.size < 2 ^ 64 :=
      Nat.lt_of_le_of_lt (Nat.div_mul_le_self _ _) (by omega)
    rw [← lastReached_lt_iff, ← round]
    constructor
    · intro exact_up
      rw [← up_value, ← value, exact_up _ least representable, reached]
    · intro same m found below
      rw [value, up_value, same, reached]
      exact least.unique found

theorem align_exact_iff :
    (AlignsDown x b ∧ AlignsUp x b ∧ RoundsUpAlike x b) ↔
      b.operand.width = 64 ∨ x.toNat + b.size ≤ 2 ^ 32 := by
  rw [alignsDown_iff, alignsUp_iff, roundsUpAlike_iff]
  have bound := x.isLt
  have positive := b.size_pos
  have size := b.size_le
  cases b with
  | narrow bits k power =>
      change _ ≤ 2 ^ 32 at size
      change (_ < 2 ^ 32 ∧ (_ ≤ 2 ^ 32 ∨ _) ∧ (_ ≤ 2 ^ 32 ∨ _)) ↔ 32 = 64 ∨ _
      omega
  | wide bits k power =>
      change (_ < 2 ^ 64 ∧ (_ ≤ 2 ^ 64 ∨ _) ∧ (_ ≤ 2 ^ 64 ∨ _)) ↔ 64 = 64 ∨ _
      omega

/-- Pages of 4096 bytes, the size in a `uint32_t`. -/
def pageAlignment : Alignment := .narrow 4096 12 rfl

theorem fourGiB_misaligned : ¬ AlignsDown 0x100000000 pageAlignment := by
  intro greatest
  have zero : (alignDown (.uint64 0x100000000) pageAlignment.operand).value.toNat = 0 := by decide
  have aligned : 4096 ∣ 0x100000000 ∧ 0x100000000 ≤ (0x100000000 : BitVec 64).toNat := by decide
  have reached := greatest.2 aligned
  rw [zero] at reached
  contradiction

end Sphynx.Stdlib

import Mathlib.Data.BitVec

/-!
# C integers

Operands of C's integer arithmetic as they are after promotion: an `int` of 32 bits, a `uint32_t`,
an `int64_t` or a `uint64_t`. The two operands of an operator are first converted to one type, the
result of a shift has the type of its left operand. Signed overflow, which C leaves undefined, wraps.
-/

namespace Lib

inductive CInt where
  | int (bits : BitVec 32)
  | uint32 (bits : BitVec 32)
  | int64 (bits : BitVec 64)
  | uint64 (bits : BitVec 64)
deriving DecidableEq, Repr

namespace CInt

def value : CInt → Int
  | .int bits => bits.toInt
  | .uint32 bits => bits.toNat
  | .int64 bits => bits.toInt
  | .uint64 bits => bits.toNat

def width : CInt → Nat
  | .int _ | .uint32 _ => 32
  | .int64 _ | .uint64 _ => 64

def toUInt32 : CInt → BitVec 32
  | .int bits | .uint32 bits => bits
  | .int64 bits | .uint64 bits => bits.setWidth 32

/-- Conversion to `uint64_t`, and to `int64_t`, which gives the same bits. -/
def toUInt64 : CInt → BitVec 64
  | .int bits => bits.signExtend 64
  | .uint32 bits => bits.setWidth 64
  | .int64 bits | .uint64 bits => bits

/-- Conversion to `uint8_t`. -/
def toByte (a : CInt) : BitVec 8 := a.toUInt32.setWidth 8

/-- The promotion of a `uint8_t`. -/
def ofByte (byte : BitVec 8) : CInt := .int (byte.setWidth 32)

/-- An operator behind the usual arithmetic conversions. -/
def binary (signed unsigned : (w : Nat) → BitVec w → BitVec w → BitVec w) : CInt → CInt → CInt
  | .uint64 a, b => .uint64 (unsigned 64 a b.toUInt64)
  | a, .uint64 b => .uint64 (unsigned 64 a.toUInt64 b)
  | .int64 a, b => .int64 (signed 64 a b.toUInt64)
  | a, .int64 b => .int64 (signed 64 a.toUInt64 b)
  | .uint32 a, b => .uint32 (unsigned 32 a b.toUInt32)
  | a, .uint32 b => .uint32 (unsigned 32 a.toUInt32 b)
  | .int a, .int b => .int (signed 32 a b)

instance (n : Nat) : OfNat CInt n := ⟨.int (BitVec.ofNat 32 n)⟩
instance : Add CInt := ⟨binary (fun _ => BitVec.add) fun _ => BitVec.add⟩
instance : Sub CInt := ⟨binary (fun _ => BitVec.sub) fun _ => BitVec.sub⟩
instance : Mul CInt := ⟨binary (fun _ => BitVec.mul) fun _ => BitVec.mul⟩
instance : Div CInt := ⟨binary (fun _ => BitVec.sdiv) fun _ => BitVec.udiv⟩
instance : Mod CInt := ⟨binary (fun _ => BitVec.srem) fun _ => BitVec.umod⟩
instance : AndOp CInt := ⟨binary (fun _ => BitVec.and) fun _ => BitVec.and⟩
instance : OrOp CInt := ⟨binary (fun _ => BitVec.or) fun _ => BitVec.or⟩

instance : Complement CInt where
  complement
    | .int bits => .int (~~~bits)
    | .uint32 bits => .uint32 (~~~bits)
    | .int64 bits => .int64 (~~~bits)
    | .uint64 bits => .uint64 (~~~bits)

instance : ShiftLeft CInt where
  shiftLeft
    | .int bits, count => .int (bits <<< count.value.toNat)
    | .uint32 bits, count => .uint32 (bits <<< count.value.toNat)
    | .int64 bits, count => .int64 (bits <<< count.value.toNat)
    | .uint64 bits, count => .uint64 (bits <<< count.value.toNat)

/-! A `uint64_t` on the left decides the type. -/

section
variable (a : BitVec 64) (b : CInt)

theorem uint64_add : uint64 a + b = uint64 (a + b.toUInt64) := rfl

theorem uint64_sub : uint64 a - b = uint64 (a - b.toUInt64) := rfl

theorem uint64_mul : uint64 a * b = uint64 (a * b.toUInt64) := rfl

theorem uint64_div : uint64 a / b = uint64 (a / b.toUInt64) := rfl

end

/-! Signed arithmetic on numbers that are not negative. -/

section
variable {w n : Nat} {x y : BitVec w}

theorem toNat_of_toInt (value : x.toInt = n) : x.msb = false ∧ x.toNat = n := by
  have positive : x.msb = false := by
    rw [BitVec.msb_eq_toInt, value]
    simp
  refine ⟨positive, ?_⟩
  rw [BitVec.toInt_eq_toNat_of_msb positive] at value
  exact_mod_cast value

theorem sdiv_toNat (x_positive : x.msb = false) (y_positive : y.msb = false) :
    (x.sdiv y).msb = false ∧ (x.sdiv y).toNat = x.toNat / y.toNat := by
  have quotient : x.sdiv y = x / y := by
    rw [BitVec.sdiv_eq, x_positive, y_positive]
    rfl
  have toNat : (x / y).toNat = x.toNat / y.toNat := BitVec.toNat_udiv
  have less := Nat.div_le_self x.toNat y.toNat
  rw [quotient, BitVec.msb_eq_false_iff_two_mul_lt, toNat]
  rw [BitVec.msb_eq_false_iff_two_mul_lt] at x_positive
  exact ⟨by omega, rfl⟩

theorem srem_toNat (x_positive : x.msb = false) (y_positive : y.msb = false) :
    (x.srem y).msb = false ∧ (x.srem y).toNat = x.toNat % y.toNat := by
  have remainder : x.srem y = x % y := by
    rw [BitVec.srem_eq, x_positive, y_positive]
  have toNat : (x % y).toNat = x.toNat % y.toNat := BitVec.toNat_umod
  have less := Nat.mod_le x.toNat y.toNat
  rw [remainder, BitVec.msb_eq_false_iff_two_mul_lt, toNat]
  rw [BitVec.msb_eq_false_iff_two_mul_lt] at x_positive
  exact ⟨by omega, rfl⟩

end

theorem signExtend_toNat {x : BitVec 32} (positive : x.msb = false) :
    (x.signExtend 64).msb = false ∧ (x.signExtend 64).toNat = x.toNat := by
  have toNat : (x.signExtend 64).toNat = x.toNat := by
    rw [BitVec.signExtend_eq_setWidth_of_msb_false positive, BitVec.toNat_setWidth]
    exact Nat.mod_eq_of_lt (Nat.lt_trans x.isLt (by decide))
  refine ⟨?_, toNat⟩
  rw [BitVec.msb_eq_false_iff_two_mul_lt, toNat]
  have bound := x.isLt
  omega

/-! Numbers divided by a literal, whatever their type. -/

section
variable {a : CInt} {n d : Nat}

theorem literal (small : d < 2 ^ 31) :
    (BitVec.ofNat 32 d).msb = false ∧ (BitVec.ofNat 32 d).toNat = d := by
  have toNat : (BitVec.ofNat 32 d).toNat = d := Nat.mod_eq_of_lt (by omega)
  refine ⟨?_, toNat⟩
  rw [BitVec.msb_eq_false_iff_two_mul_lt, toNat]
  omega

theorem toUInt64_div (value : a.value = n) (small : d < 2 ^ 31) :
    (a / int (BitVec.ofNat 32 d)).toUInt64.toNat = n / d := by
  obtain ⟨divisor, divisor_toNat⟩ := literal small
  obtain ⟨wide, wide_toNat⟩ := signExtend_toNat divisor
  cases a with
  | int bits =>
      obtain ⟨positive, toNat⟩ := toNat_of_toInt value
      obtain ⟨quotient, quotient_toNat⟩ := sdiv_toNat positive divisor
      change ((bits.sdiv (BitVec.ofNat 32 d)).signExtend 64).toNat = n / d
      rw [(signExtend_toNat quotient).2, quotient_toNat, toNat, divisor_toNat]
  | uint32 bits =>
      have toNat : bits.toNat = n := Int.ofNat.inj value
      change ((bits / BitVec.ofNat 32 d).setWidth 64).toNat = n / d
      rw [BitVec.toNat_setWidth, BitVec.toNat_udiv, toNat, divisor_toNat, Nat.mod_eq_of_lt]
      have less := Nat.div_le_self n d
      omega
  | int64 bits =>
      obtain ⟨positive, toNat⟩ := toNat_of_toInt value
      change (bits.sdiv ((BitVec.ofNat 32 d).signExtend 64)).toNat = n / d
      rw [(sdiv_toNat positive wide).2, toNat, wide_toNat, divisor_toNat]
  | uint64 bits =>
      have toNat : bits.toNat = n := Int.ofNat.inj value
      change (bits / (BitVec.ofNat 32 d).signExtend 64).toNat = n / d
      rw [BitVec.toNat_udiv, toNat, wide_toNat, divisor_toNat]

theorem value_mod (value : a.value = n) (small : d < 2 ^ 31) :
    (a % int (BitVec.ofNat 32 d)).value = (n % d : Nat) := by
  obtain ⟨divisor, divisor_toNat⟩ := literal small
  obtain ⟨wide, wide_toNat⟩ := signExtend_toNat divisor
  cases a with
  | int bits =>
      obtain ⟨positive, toNat⟩ := toNat_of_toInt value
      obtain ⟨remainder, remainder_toNat⟩ := srem_toNat positive divisor
      change (bits.srem (BitVec.ofNat 32 d)).toInt = _
      rw [BitVec.toInt_eq_toNat_of_msb remainder, remainder_toNat, toNat, divisor_toNat]
  | uint32 bits =>
      have toNat : bits.toNat = n := Int.ofNat.inj value
      change ((bits % BitVec.ofNat 32 d).toNat : Int) = _
      rw [BitVec.toNat_umod, toNat, divisor_toNat]
  | int64 bits =>
      obtain ⟨positive, toNat⟩ := toNat_of_toInt value
      obtain ⟨remainder, remainder_toNat⟩ := srem_toNat positive wide
      change (bits.srem ((BitVec.ofNat 32 d).signExtend 64)).toInt = _
      rw [BitVec.toInt_eq_toNat_of_msb remainder, remainder_toNat, toNat, wide_toNat, divisor_toNat]
  | uint64 bits =>
      have toNat : bits.toNat = n := Int.ofNat.inj value
      change ((bits % (BitVec.ofNat 32 d).signExtend 64).toNat : Int) = _
      rw [BitVec.toNat_umod, toNat, wide_toNat, divisor_toNat]

end

/-! Single bits of a byte, reached through `int`. -/

section
variable {count : CInt} {k j : Nat} (byte : BitVec 8)

theorem shift_one (shift : count.value = k) : (1 : CInt) <<< count = int (BitVec.twoPow 32 k) := by
  have amount : count.value.toNat = k := by rw [shift, Int.toNat_natCast]
  rw [BitVec.twoPow_eq, ← amount]
  rfl

theorem or_bit (shift : count.value = k) (small : j < 8) :
    (ofByte byte ||| (1 <<< count)).toByte.getLsbD j = (byte.getLsbD j || decide (j = k)) := by
  rw [shift_one shift]
  change ((byte.setWidth 32 ||| BitVec.twoPow 32 k).setWidth 8).getLsbD j = _
  have wide : j < 32 := by omega
  rw [BitVec.getLsbD_setWidth, BitVec.getLsbD_or, BitVec.getLsbD_setWidth, BitVec.getLsbD_twoPow]
  by_cases here : j = k
  · subst here
    simp [small, wide]
  · simp [small, wide, here, Ne.symm here]

theorem and_not_bit (shift : count.value = k) (small : j < 8) :
    (ofByte byte &&& ~~~(1 <<< count)).toByte.getLsbD j = (byte.getLsbD j && decide (j ≠ k)) := by
  rw [shift_one shift]
  change ((byte.setWidth 32 &&& ~~~BitVec.twoPow 32 k).setWidth 8).getLsbD j = _
  have wide : j < 32 := by omega
  rw [BitVec.getLsbD_setWidth, BitVec.getLsbD_and, BitVec.getLsbD_setWidth, BitVec.getLsbD_not,
    BitVec.getLsbD_twoPow]
  by_cases here : j = k
  · subst here
    simp [wide]
  · simp [small, wide, here, Ne.symm here]

theorem and_bit_ne_zero (shift : count.value = k) (small : k < 8) :
    (ofByte byte &&& (1 <<< count)).value ≠ 0 ↔ byte.getLsbD k = true := by
  rw [shift_one shift]
  change (byte.setWidth 32 &&& BitVec.twoPow 32 k).toInt ≠ 0 ↔ _
  have wide : k < 32 := by omega
  rw [BitVec.and_twoPow, BitVec.getLsbD_setWidth]
  by_cases held : byte.getLsbD k = true
  · have nonzero : (BitVec.twoPow 32 k).toInt ≠ 0 := by
      rw [← BitVec.toInt_zero, ne_eq, BitVec.toInt_inj]
      intro zero
      have bit := BitVec.getLsbD_twoPow (w := 32) k k
      rw [zero, BitVec.getLsbD_zero] at bit
      simp [wide] at bit
    simp [held, wide, nonzero]
  · simp [held]

end

end CInt

end Lib

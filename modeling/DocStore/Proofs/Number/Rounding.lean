import Mathlib.Algebra.Group.Nat.Defs
import DocStore.Proofs.Number.Comparison

/-!
Rounding to doubles, from above. A quotient that is not above the largest double by half of its last
place or more is rounded to a finite one, and rounding adds less than one part in `2 ^ 53`.
-/

namespace DocStore.Double

/-! ## Integers -/

theorem two_mul_roundHalfEven_le (numerator denominator : Nat) :
    2 * (roundHalfEven numerator denominator * denominator) ≤ 2 * numerator + denominator := by
  have parts := Nat.div_add_mod numerator denominator
  rw [Nat.mul_comm] at parts
  have next : (numerator / denominator + 1) * denominator =
      numerator / denominator * denominator + denominator := Nat.succ_mul _ _
  unfold roundHalfEven
  simp only
  split
  · omega
  split
  · rw [next]
    omega
  · rcases Nat.mod_two_eq_zero_or_one (numerator / denominator) with even | odd
    · rw [even, Nat.add_zero]
      omega
    · rw [odd, next]
      omega

theorem roundHalfEven_le {numerator denominator bound : Nat}
    (below : 2 * numerator < (2 * bound + 1) * denominator) :
    roundHalfEven numerator denominator ≤ bound := by
  have rounded := two_mul_roundHalfEven_le numerator denominator
  apply Nat.le_of_not_lt
  intro above
  have more := Nat.mul_le_mul_right denominator (Nat.succ_le_of_lt above)
  rw [Nat.succ_mul] at more
  rw [Nat.add_mul, Nat.mul_assoc] at below
  omega

theorem le_roundHalfEven {numerator denominator bound : Nat} (positive : 0 < denominator)
    (above : bound * denominator ≤ numerator) : bound ≤ roundHalfEven numerator denominator := by
  have floor := (Nat.le_div_iff_mul_le positive).mpr above
  unfold roundHalfEven
  simp only
  split
  · exact floor
  split
  · omega
  · omega

/-! ## Bits -/

theorem toNat_ofMagnitudeBits {bits : Nat} (small : bits < 2 ^ 63) (negative : Bool) :
    (ofMagnitudeBits negative bits).bits.toNat = (if negative then 2 ^ 63 else 0) + bits := by
  have size : UInt64.size = 2 ^ 64 := rfl
  cases negative with
  | true =>
      have fits : 2 ^ 63 + bits < UInt64.size := by omega
      exact UInt64.toNat_ofNat_of_lt' fits
  | false =>
      have fits : bits < UInt64.size := by omega
      exact (UInt64.toNat_ofNat_of_lt' fits).trans (Nat.zero_add bits).symm

theorem exponentField_ofMagnitudeBits {bits : Nat} (small : bits < 2 ^ 63) (negative : Bool) :
    (ofMagnitudeBits negative bits).exponentField = bits / 2 ^ 52 := by
  rw [exponentField, toNat_ofMagnitudeBits small, Nat.pow_eq]
  split
  · omega
  · omega

theorem fractionField_ofMagnitudeBits {bits : Nat} (small : bits < 2 ^ 63) (negative : Bool) :
    (ofMagnitudeBits negative bits).fractionField = bits % 2 ^ 52 := by
  rw [fractionField, toNat_ofMagnitudeBits small, Nat.pow_eq]
  split
  · omega
  · omega

theorem infinityBits_eq : infinityBits = 2047 * 2 ^ 52 := rfl

theorem isInfinite_ofMagnitudeBits {bits : Nat} (finite : bits < infinityBits) (negative : Bool) :
    (ofMagnitudeBits negative bits).isInfinite = false := by
  rw [infinityBits_eq] at finite
  have field : (ofMagnitudeBits negative bits).exponentField ≠ 2047 := by
    rw [exponentField_ofMagnitudeBits (by omega)]
    omega
  rw [isInfinite, beq_eq_false_iff_ne.mpr field, Bool.false_and]

theorem magnitude_ofMagnitudeBits {shift significand : Nat} (least : 2 ^ 52 ≤ significand)
    (greatest : significand ≤ 2 ^ 53) (finite : shift * 2 ^ 52 + significand < infinityBits)
    (negative : Bool) :
    (ofMagnitudeBits negative (shift * 2 ^ 52 + significand)).magnitude =
      significand * 2 ^ shift := by
  rw [infinityBits_eq] at finite
  have small : shift * 2 ^ 52 + significand < 2 ^ 63 := by omega
  rw [magnitude, Double.significand, Double.shift, exponentField_ofMagnitudeBits small,
    fractionField_ofMagnitudeBits small, Nat.pow_eq, Nat.pow_eq, if_neg (by omega)]
  rcases Nat.lt_or_eq_of_le greatest with below | equal
  · have field : (shift * 2 ^ 52 + significand) / 2 ^ 52 = shift + 1 := by omega
    have rest : 2 ^ 52 + (shift * 2 ^ 52 + significand) % 2 ^ 52 = significand := by omega
    rw [field, rest, Nat.add_sub_cancel]
  · have field : (shift * 2 ^ 52 + significand) / 2 ^ 52 = shift + 1 + 1 := by omega
    have rest : (shift * 2 ^ 52 + significand) % 2 ^ 52 = 0 := by omega
    rw [field, rest, Nat.add_sub_cancel, Nat.pow_succ, equal]
    omega

/-! ## Quotients -/

section

variable (numerator denominator : Nat)

def quotientShift : Nat :=
  (numerator * unitsPerOne / denominator).log2 + 1 - 53

def quotientSignificand : Nat :=
  roundHalfEven (numerator * unitsPerOne) (denominator * 2 ^ quotientShift numerator denominator)

theorem ofQuotient_eq (negative : Bool) :
    ofQuotient negative numerator denominator = ofMagnitudeBits negative
      (min (quotientShift numerator denominator * 2 ^ 52 + quotientSignificand numerator denominator)
        infinityBits) := rfl

end

variable {numerator denominator : Nat}

theorem lt_of_quotientShift (numerator : Nat) (positive : 0 < denominator) :
    numerator * unitsPerOne < 2 ^ (quotientShift numerator denominator + 53) * denominator := by
  rw [← Nat.div_lt_iff_lt_mul positive, quotientShift]
  generalize numerator * unitsPerOne / denominator = quotient
  refine Nat.lt_of_lt_of_le Nat.lt_log2_self (Nat.pow_le_pow_right (by omega) ?_)
  omega

theorem quotientSignificand_le (numerator : Nat) (positive : 0 < denominator) :
    quotientSignificand numerator denominator ≤ 2 ^ 53 := by
  have below := lt_of_quotientShift numerator positive
  rw [Nat.pow_add, Nat.mul_right_comm, Nat.mul_comm _ denominator] at below
  apply roundHalfEven_le
  omega

theorem le_unitsPerOne : 2 ^ 52 ≤ unitsPerOne := by
  have large : 52 ≤ 1074 := by decide
  unfold unitsPerOne
  generalize 1074 = places at large ⊢
  exact Nat.pow_le_pow_right Nat.two_pos large

theorem pow_mul_unitsPerOne (power : Nat) : Nat.pow 2 power * unitsPerOne = 2 ^ (power + 1074) := by
  unfold unitsPerOne
  generalize 1074 = places
  exact (Nat.pow_add 2 power places).symm

theorem le_of_quotientShift (one : denominator ≤ numerator) (positive : 0 < denominator) :
    2 ^ 52 * (denominator * 2 ^ quotientShift numerator denominator) ≤ numerator * unitsPerOne := by
  have large : 2 ^ 52 ≤ numerator * unitsPerOne / denominator := by
    rw [Nat.le_div_iff_mul_le positive, Nat.mul_comm]
    exact Nat.mul_le_mul one le_unitsPerOne
  have nonzero : numerator * unitsPerOne / denominator ≠ 0 := by omega
  have bits := (Nat.le_log2 nonzero).mpr large
  have leading : quotientShift numerator denominator + 52 =
      (numerator * unitsPerOne / denominator).log2 := by
    rw [quotientShift]
    omega
  have floor := Nat.log2_self_le nonzero
  rw [← leading, Nat.le_div_iff_mul_le positive, Nat.pow_add] at floor
  calc 2 ^ 52 * (denominator * 2 ^ quotientShift numerator denominator)
      = 2 ^ quotientShift numerator denominator * 2 ^ 52 * denominator := by
        rw [Nat.mul_left_comm, Nat.mul_comm, Nat.mul_comm (2 ^ 52)]
    _ ≤ numerator * unitsPerOne := floor

theorem quotient_lt {bound : Nat} (positive : 0 < denominator)
    (below : numerator < (2 ^ 54 - 1) * Nat.pow 2 bound * denominator) :
    quotientShift numerator denominator * 2 ^ 52 + quotientSignificand numerator denominator <
      (bound + 1074 + 3) * 2 ^ 52 := by
  have scaled : numerator * unitsPerOne < (2 ^ 54 - 1) * 2 ^ (bound + 1074) * denominator := by
    rw [← pow_mul_unitsPerOne, ← Nat.mul_assoc, Nat.mul_right_comm]
    exact Nat.mul_lt_mul_of_pos_right below unitsPerOne_pos
  generalize bound + 1074 = power at scaled ⊢
  have significand := quotientSignificand_le numerator positive
  have shift : quotientShift numerator denominator ≤ power + 1 := by
    have quotient : numerator * unitsPerOne / denominator < 2 ^ (power + 54) := by
      rw [Nat.div_lt_iff_lt_mul positive, Nat.pow_add, Nat.mul_comm (2 ^ power)]
      refine Nat.lt_of_lt_of_le scaled (Nat.mul_le_mul_right denominator ?_)
      exact Nat.mul_le_mul_right (2 ^ power) (by decide)
    rw [quotientShift]
    by_cases zero : numerator * unitsPerOne / denominator = 0
    · rw [zero]
      exact Nat.zero_le _
    · have leading := (Nat.log2_lt zero).mpr quotient
      omega
  rcases Nat.lt_or_eq_of_le shift with less | equal
  · omega
  · have most : quotientSignificand numerator denominator ≤ 2 ^ 53 - 1 := by
      have odd : 2 * (2 ^ 53 - 1) + 1 = 2 ^ 54 - 1 := by decide
      have scale (factor power : Nat) :
          factor * (denominator * (power * 2)) = 2 * (factor * power * denominator) := by
        ac_rfl
      have twice := scale (2 ^ 54 - 1) (2 ^ power)
      rw [← Nat.pow_succ] at twice
      apply roundHalfEven_le
      rw [odd, equal, twice]
      exact Nat.mul_lt_mul_of_pos_left scaled (by decide)
    omega

/-- From this number on, numbers are rounded to an infinity. It is half of the last place above the
largest double. -/
def overflowLimit : Nat :=
  (2 ^ 54 - 1) * Nat.pow 2 970

theorem quotient_lt_infinityBits (positive : 0 < denominator)
    (below : numerator < overflowLimit * denominator) :
    quotientShift numerator denominator * 2 ^ 52 + quotientSignificand numerator denominator <
      infinityBits := by
  unfold overflowLimit at below
  generalize bound_eq : 970 = bound at below
  have bits := quotient_lt positive below
  rw [← bound_eq] at bits
  exact bits

theorem magnitude_ofQuotient_le (positive : 0 < denominator) (one : denominator ≤ numerator)
    (below : numerator < overflowLimit * denominator) (negative : Bool) :
    2 ^ 53 * ((ofQuotient negative numerator denominator).magnitude * denominator) ≤
      (2 ^ 53 + 1) * (numerator * unitsPerOne) := by
  have finite := quotient_lt_infinityBits positive below
  have least : 2 ^ 52 ≤ quotientSignificand numerator denominator :=
    le_roundHalfEven (Nat.mul_pos positive (Nat.pow_pos (by decide)))
      (le_of_quotientShift one positive)
  have rounded := two_mul_roundHalfEven_le (numerator * unitsPerOne)
    (denominator * 2 ^ quotientShift numerator denominator)
  have last := le_of_quotientShift one positive
  rw [ofQuotient_eq, Nat.min_eq_left (Nat.le_of_lt finite),
    magnitude_ofMagnitudeBits least (quotientSignificand_le numerator positive) finite,
    quotientSignificand, Nat.mul_assoc, Nat.mul_comm _ denominator]
  generalize numerator * unitsPerOne = scaled at rounded last ⊢
  omega

theorem isInfinite_ofQuotient (positive : 0 < denominator)
    (below : numerator < overflowLimit * denominator) (negative : Bool) :
    (ofQuotient negative numerator denominator).isInfinite = false := by
  have finite := quotient_lt_infinityBits positive below
  rw [ofQuotient_eq, Nat.min_eq_left (Nat.le_of_lt finite)]
  exact isInfinite_ofMagnitudeBits finite negative

end DocStore.Double

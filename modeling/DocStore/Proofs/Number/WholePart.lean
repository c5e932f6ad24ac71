import DocStore.Proofs.Number.Exact
import Mathlib.Data.Rat.Floor

/-!
Integers beside doubles. The whole part of a double is its exact value, rounded toward zero. A 64-bit
integer holds it just where the value is from `-2 ^ 63` on and below `2 ^ 63`, since doubles of that size
have no fraction; so an integer and a double are ordered as their exact values are. It makes no difference
whether these bounds are asked of the whole part or, before it is taken, of the double.
-/

namespace DocStore

def towardZero (value : ℚ) : ℤ :=
  if value < 0 then ⌈value⌉ else ⌊value⌋

theorem towardZero_div (numerator : ℤ) {denominator : ℕ} (positive : 0 < denominator) :
    towardZero (numerator / denominator) = numerator.tdiv denominator := by
  have unit : (0 : ℚ) < denominator := Nat.cast_pos.mpr positive
  have sign : (numerator / denominator : ℚ) < 0 ↔ numerator < 0 := by
    rw [div_lt_iff₀ unit, zero_mul, Int.cast_lt_zero]
  rw [towardZero, Rat.ceil_intCast_div_natCast, Rat.floor_intCast_div_natCast]
  split
  · next negative =>
    rw [sign] at negative
    rw [← Int.tdiv_eq_ediv_of_nonneg (by omega), Int.neg_tdiv, Int.neg_neg]
  · next natural =>
    rw [sign] at natural
    rw [Int.tdiv_eq_ediv_of_nonneg (by omega)]

namespace Double

theorem whole_eq_towardZero {number : Double} {value : ℚ}
    (scaled : value * unitsPerOne = number.units) : number.whole = towardZero value := by
  have unit : (unitsPerOne : ℚ) ≠ 0 := Nat.cast_ne_zero.mpr unitsPerOne_pos.ne'
  rw [← eq_div_iff unit] at scaled
  rw [scaled, towardZero_div _ unitsPerOne_pos, whole]

theorem remainder_eq_zero {number : Double} (large : 2 ^ 53 * unitsPerOne ≤ number.magnitude) :
    number.remainder = 0 := by
  have scaled : 2 ^ 53 * unitsPerOne < 2 ^ 53 * 2 ^ number.shift :=
    calc 2 ^ 53 * unitsPerOne
      _ ≤ number.significand * 2 ^ number.shift := large
      _ < 2 ^ 53 * 2 ^ number.shift :=
          Nat.mul_lt_mul_of_pos_right number.significand_lt (Nat.two_pow_pos _)
  have power : unitsPerOne < 2 ^ number.shift := Nat.lt_of_mul_lt_mul_left scaled
  have divides : unitsPerOne ∣ number.magnitude := by
    rw [magnitude]
    apply Nat.dvd_mul_left_of_dvd
    unfold unitsPerOne at power ⊢
    generalize 1074 = places at power ⊢
    exact Nat.pow_dvd_pow 2 (Nat.pow_lt_pow_iff_right Nat.one_lt_two |>.mp power).le
  rw [remainder, Int.tmod_eq_zero_of_dvd]
  rw [Int.natCast_dvd, natAbs_units]
  exact divides

/-- The range of 64-bit integers is not left by what the whole part leaves over. -/
theorem units_within {number : Double} (lower : -2 ^ 63 ≤ number.whole) (upper : number.whole < 2 ^ 63) :
    -2 ^ 63 * (unitsPerOne : ℤ) ≤ number.units ∧ number.units < 2 ^ 63 * unitsPerOne := by
  have parts := number.whole_mul_add_remainder
  have small := number.natAbs_remainder_lt
  have unit : (0 : ℤ) ≤ unitsPerOne := Int.natCast_nonneg _
  constructor
  · apply Int.not_lt.mp
    intro below
    have large : 2 ^ 53 * unitsPerOne ≤ number.magnitude := by
      rw [← natAbs_units]
      omega
    rw [remainder_eq_zero large, Int.add_zero] at parts
    have above := Int.mul_le_mul_of_nonneg_right lower unit
    omega
  · have step := Int.mul_le_mul_of_nonneg_right (Int.add_one_le_of_lt upper) unit
    rw [Int.add_mul, Int.one_mul] at step
    omega

def aboveIntegers : Double :=
  ⟨0x43E0000000000000⟩

def leastInteger : Double :=
  ⟨0xC3E0000000000000⟩

theorem isGE_compare?_aboveIntegers {number : Double} (isNumber : number.isNaN = false) :
    (number.compare? aboveIntegers).any Ordering.isGE = true ↔
      2 ^ 63 * (unitsPerOne : ℤ) ≤ number.units := by
  have bound : aboveIntegers.units = 2 ^ 63 * unitsPerOne := by decide +kernel
  have isBound : aboveIntegers.isNaN = false := by decide
  rw [compare?, isNumber, isBound, bound, Bool.or_self, if_neg Bool.false_ne_true, Option.any_some,
    Std.isGE_compare]

theorem compare?_leastInteger_eq_lt {number : Double} (isNumber : number.isNaN = false) :
    number.compare? leastInteger = some .lt ↔ number.units < -2 ^ 63 * (unitsPerOne : ℤ) := by
  have bound : leastInteger.units = -2 ^ 63 * unitsPerOne := by decide +kernel
  have isBound : leastInteger.isNaN = false := by decide
  rw [compare?, isNumber, isBound, bound, Bool.or_self, if_neg Bool.false_ne_true, Option.some_inj,
    Int.compare_eq_lt]

theorem whole_within_iff (number : Double) :
    (Int64.minValue.toInt ≤ number.whole ∧ number.whole ≤ Int64.maxValue.toInt) ↔
      -2 ^ 63 * (unitsPerOne : ℤ) ≤ number.units ∧ number.units < 2 ^ 63 * unitsPerOne := by
  have least : Int64.minValue.toInt = -2 ^ 63 := by decide
  have greatest : Int64.maxValue.toInt = 2 ^ 63 - 1 := by decide
  have unit : (0 : ℤ) < unitsPerOne := Int.natCast_pos.mpr unitsPerOne_pos
  have parts := number.whole_mul_add_remainder
  have small := number.natAbs_remainder_lt
  rw [least, greatest]
  constructor
  · intro within
    exact units_within within.1 (by omega)
  · intro within
    constructor
    · by_contra below
      have step := Int.mul_le_mul_of_nonneg_right (Int.add_one_le_of_lt (Int.not_le.mp below)) unit.le
      rw [Int.add_mul, Int.one_mul] at step
      omega
    · by_contra above
      have most : 2 ^ 63 ≤ number.whole := by omega
      have step := Int.mul_le_mul_of_nonneg_right most unit.le
      have sign : 0 ≤ number.remainder := Int.tmod_nonneg _ (by omega)
      omega

theorem negative_eq_false {number : Double} (positive : 0 < number.units) : number.negative = false := by
  rw [units] at positive
  split at positive
  · omega
  · next notNegative => exact Bool.not_eq_true _ ▸ notNegative

theorem negative_eq_true {number : Double} (below : number.units < 0) : number.negative = true := by
  rw [units] at below
  split at below
  · next negative => exact negative
  · omega

theorem toInt64?_eq_none_iff_units {number : Double} (isNumber : number.isNaN = false) :
    number.toInt64? = none ↔
      2 ^ 63 * (unitsPerOne : ℤ) ≤ number.units ∨ number.units < -2 ^ 63 * (unitsPerOne : ℤ) := by
  rw [toInt64?_eq_none_iff isNumber, whole_within_iff]
  omega

/-- The number may be compared with the bounds of all integers first, so that its whole part is only
taken where it is one of them. -/
theorem compareInt?_eq_guarded (number : Double) (integer : Int64) :
    number.compareInt? integer =
      if number.isNaN then none
      else if (number.compare? aboveIntegers).any Ordering.isGE then some .lt
      else if number.compare? leastInteger = some .lt then some .gt
      else some ((compare integer.toInt number.whole).then (compare 0 number.remainder)) := by
  have unit : (0 : ℤ) < unitsPerOne := Int.natCast_pos.mpr unitsPerOne_pos
  rw [compareInt?]
  split
  · rfl
  next isNumber =>
  rw [Bool.not_eq_true] at isNumber
  have bounds := toInt64?_eq_none_iff_units isNumber
  simp only [isGE_compare?_aboveIntegers isNumber, compare?_leastInteger_eq_lt isNumber]
  cases converted : number.toInt64? with
  | none =>
      rcases bounds.mp converted with above | below
      · rw [if_pos above, negative_eq_false (by omega)]
        rfl
      · have notAbove : ¬2 ^ 63 * (unitsPerOne : ℤ) ≤ number.units := by omega
        rw [if_neg notAbove, if_pos below, negative_eq_true (by omega)]
        rfl
  | some whole =>
      rw [converted] at bounds
      simp only [reduceCtorEq, false_iff, not_or] at bounds
      dsimp only
      rw [if_neg bounds.1, if_neg bounds.2, (toInt64?_eq_some_iff.mp converted).2]

theorem exists_exactValue?_within {number : Double} (isNumber : number.isNaN = false)
    (lower : -2 ^ 63 * (unitsPerOne : ℤ) ≤ number.units) (upper : number.units < 2 ^ 63 * unitsPerOne) :
    ∃ value : ℚ, number.exactValue? = some (value : ExtendedRational) ∧
      -2 ^ 63 ≤ value ∧ value < 2 ^ 63 := by
  have beyond := pow_mul_unitsPerOne_lt
  rw [Nat.pow_eq] at beyond
  obtain ⟨exact, isExact, inUnits⟩ := exists_exactValue? isNumber
  generalize number.units = units at lower upper inUnits
  cases inUnits with
  | @finite value _ scaled =>
      have unit : (0 : ℚ) < unitsPerOne := Nat.cast_pos.mpr unitsPerOne_pos
      refine ⟨value, isExact, ?_, ?_⟩
      · rw [← mul_le_mul_iff_left₀ unit, scaled]
        exact_mod_cast lower
      · rw [← mul_lt_mul_iff_left₀ unit, scaled]
        exact_mod_cast upper
  | top => omega
  | bottom => omega

/-- An integer and a double are ordered as their exact values are, also beside an infinity, and only a NaN
has no order. The whole part becomes a 64-bit integer from `-2 ^ 63` on and below `2 ^ 63`, and nowhere
else, and the conversion keeps it. -/
theorem integers_compare_exactly (number : Double) (integer : Int64) :
    (number.compareInt? integer = none ↔ number.isNaN = true) ∧
    number.compareInt? integer =
      number.exactValue?.map (compare ((integer.toInt : ℚ) : ExtendedRational)) ∧
    ∀ whole, number.toInt64? = some whole ↔
      ∃ value : ℚ, number.exactValue? = some (value : ExtendedRational) ∧
        -2 ^ 63 ≤ value ∧ value < 2 ^ 63 ∧ whole.toInt = towardZero value := by
  have exactly : number.compareInt? integer =
      number.exactValue?.map (compare ((integer.toInt : ℚ) : ExtendedRational)) :=
    Number.compare?_eq_exact (.integer integer) (.double number)
  refine ⟨?_, exactly, ?_⟩
  · rw [exactly, Option.map_eq_none_iff, exactValue?_eq_none_iff]
  intro whole
  rw [toInt64?_eq_some_iff]
  constructor
  · intro converted
    obtain ⟨isNumber, kept⟩ := converted
    have within := units_within (kept ▸ whole.le_toInt) (kept ▸ whole.toInt_lt)
    obtain ⟨value, isValue, least, greatest⟩ := exists_exactValue?_within isNumber within.1 within.2
    rw [whole_eq_towardZero (units_of_exactValue? isValue).2] at kept
    exact ⟨value, isValue, least, greatest, kept⟩
  · intro valued
    obtain ⟨value, isValue, -, -, kept⟩ := valued
    obtain ⟨isNumber, scaled⟩ := units_of_exactValue? isValue
    rw [← whole_eq_towardZero scaled] at kept
    exact ⟨isNumber, kept⟩

example : (⟨0x43E0000000000000⟩ : Double).toInt64? = none ∧
    (⟨0x43DFFFFFFFFFFFFF⟩ : Double).toInt64? = some 9223372036854774784 := by
  decide +kernel

example : (⟨0xC3E0000000000000⟩ : Double).toInt64? = some Int64.minValue ∧
    (⟨0xC3E0000000000001⟩ : Double).toInt64? = none := by
  decide +kernel

example : (⟨0x3FE0000000000000⟩ : Double).compareInt? 0 = some .lt ∧
    (⟨0xBFE0000000000000⟩ : Double).compareInt? 0 = some .gt := by
  decide +kernel

end Double

end DocStore

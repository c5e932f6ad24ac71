import DocStore.Proofs.Number.Rounding
import Mathlib.Algebra.Order.Field.Basic
import Mathlib.Data.Rat.Cast.Order
import Mathlib.Order.WithBotTop
import Mathlib.Tactic.FieldSimp
import Mathlib.Tactic.Ring

/-!
The exact values of numbers: rational numbers, and the two infinities beyond all of them. Numbers compare
as their exact values do, whatever their types are.
-/

namespace DocStore

abbrev ExtendedRational := WithBotTop ℚ

namespace Double

/-- The number that the bits of a finite double stand for: sign, significand and power of two. The
subnormal numbers lack the leading one and have the power of the smallest normal ones. -/
def rational (number : Double) : ℚ :=
  let sign : ℚ := if number.negative then -1 else 1
  let fraction : ℚ := number.fractionField / 2 ^ 52
  if number.exponentField = 0 then sign * fraction * 2 ^ (-1022 : ℤ)
  else sign * (1 + fraction) * 2 ^ ((number.exponentField : ℤ) - 1023)

/-- The exact value of a double. A NaN has none. -/
def exactValue? (number : Double) : Option ExtendedRational :=
  if number.isNaN then none
  else if number.isInfinite then some (if number.negative then ⊥ else ⊤)
  else some (number.rational : ℚ)

end Double

def Number.exactValue? : Number → Option ExtendedRational
  | .integer value => some (value.toInt : ℚ)
  | .double value => value.exactValue?

example : Number.exactValue? (.double ⟨0x3FD5555555555555⟩) = some (6004799503160661 / 2 ^ 54 : ℚ) := by
  decide +kernel

example : Number.exactValue? (.double ⟨1⟩) = some (1 / 2 ^ 1074 : ℚ) := by
  decide +kernel

/-! ## Units of finite numbers -/

namespace Double

theorem cast_two_pow (power : Nat) : ((Nat.pow 2 power : Nat) : ℚ) = 2 ^ (power : ℤ) := by
  rw [Nat.pow_eq, Nat.cast_pow, Nat.cast_ofNat, zpow_natCast]

theorem cast_unitsPerOne : (unitsPerOne : ℚ) = 2 ^ ((1074 : ℕ) : ℤ) := by
  unfold unitsPerOne
  generalize 1074 = places
  exact cast_two_pow places

theorem cast_units (number : Double) :
    (number.units : ℚ) = (if number.negative then -1 else 1) * number.magnitude := by
  rw [units]
  split
  · simp
  · simp

theorem rational_mul_unitsPerOne (number : Double) :
    number.rational * unitsPerOne = number.units := by
  rw [cast_units, cast_unitsPerOne, rational, magnitude, significand, shift, Nat.cast_mul,
    cast_two_pow]
  generalize (if number.negative then (-1 : ℚ) else 1) = sign
  by_cases subnormal : number.exponentField = 0
  · have powers : (2 : ℚ) ^ (-1022 : ℤ) * 2 ^ ((1074 : ℕ) : ℤ) = 2 ^ 52 := by
      rw [← zpow_add₀ two_ne_zero, ← zpow_natCast]
      rfl
    simp only [subnormal, if_true]
    rw [mul_assoc, powers]
    field_simp
    simp
  · have powers : (2 : ℚ) ^ ((number.exponentField : ℤ) - 1023) * 2 ^ ((1074 : ℕ) : ℤ) =
        2 ^ 52 * 2 ^ ((number.exponentField - 1 : ℕ) : ℤ) := by
      rw [← zpow_add₀ two_ne_zero, ← zpow_natCast, ← zpow_add₀ two_ne_zero]
      congr 1
      omega
    simp only [subnormal, if_false]
    rw [mul_assoc, powers, Nat.cast_add, cast_two_pow]
    field_simp
    simp

theorem natAbs_units (number : Double) : number.units.natAbs = number.magnitude := by
  rw [units]
  split
  · rw [Int.natAbs_neg, Int.natAbs_natCast]
  · exact Int.natAbs_natCast _

/-! ## Units of infinities -/

def largestShift : Nat := 2045

def infinityUnits : Nat :=
  2 ^ 53 * 2 ^ largestShift

theorem magnitude_of_isInfinite {number : Double} (infinite : number.isInfinite = true) :
    number.magnitude = infinityUnits := by
  rw [isInfinite, Bool.and_eq_true, beq_iff_eq, beq_iff_eq] at infinite
  have shift : number.shift = largestShift + 1 := by
    rw [Double.shift, infinite.1]
    rfl
  have significand : number.significand = 2 ^ 52 := by
    rw [Double.significand, infinite.1, infinite.2, Nat.pow_eq]
    rfl
  rw [magnitude, shift, significand, infinityUnits, Nat.pow_eq, pow_succ 2 largestShift]
  generalize 2 ^ largestShift = power
  omega

theorem significand_lt (number : Double) : number.significand < 2 ^ 53 := by
  have fraction : number.fractionField < 2 ^ 52 := Nat.mod_lt _ (Nat.two_pow_pos 52)
  rw [Double.significand, Nat.pow_eq]
  split
  · omega
  · omega

theorem magnitude_lt_infinityUnits {number : Double} (finite : number.exponentField ≠ 2047) :
    number.magnitude < infinityUnits := by
  have field : number.exponentField < 2048 := Nat.mod_lt _ (by omega)
  have shift : number.shift ≤ largestShift := by
    rw [Double.shift, largestShift]
    omega
  have power : 2 ^ number.shift ≤ 2 ^ largestShift := Nat.pow_le_pow_right (by omega) shift
  calc number.magnitude
    _ < 2 ^ 53 * 2 ^ number.shift :=
        Nat.mul_lt_mul_of_pos_right number.significand_lt (Nat.two_pow_pos _)
    _ ≤ infinityUnits := Nat.mul_le_mul_left _ power

theorem infinityUnits_pos : 0 < infinityUnits :=
  Nat.mul_pos (Nat.two_pow_pos 53) (Nat.two_pow_pos largestShift)

theorem pow_mul_unitsPerOne_lt : Nat.pow 2 63 * unitsPerOne < infinityUnits := by
  rw [pow_mul_unitsPerOne, infinityUnits, ← Nat.pow_add]
  apply Nat.pow_lt_pow_right
  · omega
  · decide

end Double

theorem Number.natAbs_units_integer_lt (value : Int64) :
    (Number.integer value).units.natAbs < Double.infinityUnits := by
  have lower := value.minValue_le_toInt
  have upper := value.toInt_le
  have within : value.toInt.natAbs ≤ Nat.pow 2 63 := by
    have least : Int64.minValue.toInt = -2 ^ 63 := by decide
    have greatest : Int64.maxValue.toInt = 2 ^ 63 - 1 := by decide
    rw [Nat.pow_eq]
    omega
  rw [units, Int.natAbs_mul, Int.natAbs_natCast]
  exact Nat.lt_of_le_of_lt (Nat.mul_le_mul_right _ within) Double.pow_mul_unitsPerOne_lt

/-! ## Comparison -/

namespace ExtendedRational

/-- How units stand for an exact value. -/
inductive InUnits : ExtendedRational → Int → Prop
  | finite {value : ℚ} {units : Int} (scaled : value * Double.unitsPerOne = units)
      (below : units.natAbs < Double.infinityUnits) : InUnits value units
  | top : InUnits ⊤ Double.infinityUnits
  | bottom : InUnits ⊥ (-Double.infinityUnits)

theorem InUnits.scaled {value : ℚ} {units : Int} (inUnits : InUnits value units) :
    value * Double.unitsPerOne = units := by
  generalize extended : (value : ExtendedRational) = exact at inUnits
  cases inUnits with
  | finite scaled =>
      rw [WithBotTop.coe_injective extended]
      exact scaled
  | top => exact absurd extended (WithBotTop.coe_ne_top value)
  | bottom => exact absurd extended (WithBotTop.coe_ne_bot value)

theorem InUnits.lt_iff {left right : ExtendedRational} {leftUnits rightUnits : Int}
    (first : InUnits left leftUnits) (second : InUnits right rightUnits) :
    left < right ↔ leftUnits < rightUnits := by
  have positive := Double.infinityUnits_pos
  cases first with
  | @finite value _ scaled below =>
      cases second with
      | @finite other _ scaledOther belowOther =>
          have unit : (0 : ℚ) < Double.unitsPerOne := by exact_mod_cast Double.unitsPerOne_pos
          rw [WithBotTop.coe_lt_coe, ← mul_lt_mul_iff_left₀ unit, scaled, scaledOther, Int.cast_lt]
      | top =>
          have less : (value : ExtendedRational) < ⊤ :=
            lt_top_iff_ne_top.mpr (WithBotTop.coe_ne_top value)
          simp only [less, true_iff]
          omega
      | bottom =>
          simp only [not_lt_bot, false_iff]
          omega
  | top =>
      simp only [not_top_lt, false_iff]
      cases second with
      | finite => omega
      | top => omega
      | bottom => omega
  | bottom =>
      cases second with
      | @finite value _ _ _ =>
          have less : ⊥ < (value : ExtendedRational) :=
            bot_lt_iff_ne_bot.mpr (WithBotTop.coe_ne_bot value)
          simp only [less, true_iff]
          omega
      | top =>
          simp only [bot_lt_top, true_iff]
          omega
      | bottom => simp only [lt_self_iff_false]

theorem InUnits.compare_eq {left right : ExtendedRational} {leftUnits rightUnits : Int}
    (first : InUnits left leftUnits) (second : InUnits right rightUnits) :
    compare left right = compare leftUnits rightUnits := by
  rcases lt_trichotomy leftUnits rightUnits with less | rfl | greater
  · rw [compare_lt_iff_lt.mpr less]
    exact compare_lt_iff_lt.mpr ((first.lt_iff second).mpr less)
  · have notLess : ¬ left < right := fun less => lt_irrefl _ ((first.lt_iff second).mp less)
    have notGreater : ¬ right < left := fun greater => lt_irrefl _ ((second.lt_iff first).mp greater)
    rw [compare_eq_iff_eq.mpr rfl]
    exact compare_eq_iff_eq.mpr (le_antisymm (not_lt.mp notGreater) (not_lt.mp notLess))
  · rw [compare_gt_iff_gt.mpr greater]
    exact compare_gt_iff_gt.mpr ((second.lt_iff first).mpr greater)

end ExtendedRational

namespace Double

theorem exactValue?_eq_none_iff {number : Double} :
    number.exactValue? = none ↔ number.isNaN = true := by
  rw [exactValue?]
  split
  · next noNumber => simp only [noNumber]
  · next isNumber =>
    split
    · simp only [isNumber, reduceCtorEq]
    · simp only [isNumber, reduceCtorEq]

theorem exists_exactValue? {number : Double} (isNumber : number.isNaN = false) :
    ∃ value, number.exactValue? = some value ∧ ExtendedRational.InUnits value number.units := by
  rw [exactValue?, isNumber]
  by_cases infinite : number.isInfinite = true
  · rw [infinite, units, magnitude_of_isInfinite infinite]
    cases number.negative with
    | true => exact ⟨_, rfl, .bottom⟩
    | false => exact ⟨_, rfl, .top⟩
  · rw [Bool.not_eq_true] at infinite
    have finite := exponentField_ne_of_finite isNumber infinite
    have below : number.units.natAbs < infinityUnits := by
      rw [natAbs_units]
      exact magnitude_lt_infinityUnits finite
    rw [infinite]
    exact ⟨_, rfl, .finite number.rational_mul_unitsPerOne below⟩

theorem units_of_exactValue? {number : Double} {value : ℚ}
    (isValue : number.exactValue? = some (value : ExtendedRational)) :
    number.isNaN = false ∧ value * unitsPerOne = number.units := by
  have isNumber : number.isNaN = false := by
    rw [← Bool.not_eq_true, ← exactValue?_eq_none_iff, isValue]
    exact Option.some_ne_none _
  obtain ⟨exact, isExact, inUnits⟩ := exists_exactValue? isNumber
  rw [isValue, Option.some_inj] at isExact
  exact ⟨isNumber, (isExact ▸ inUnits).scaled⟩

end Double

namespace Number

theorem exists_exactValue? {number : Number} (isNumber : number.isNaN = false) :
    ∃ value, number.exactValue? = some value ∧ ExtendedRational.InUnits value number.units := by
  cases number with
  | integer value =>
      refine ⟨_, rfl, .finite ?_ (natAbs_units_integer_lt value)⟩
      rw [units, Int.cast_mul, Int.cast_natCast]
  | double number => exact Double.exists_exactValue? isNumber

theorem exactValue?_of_isNaN {number : Number} (noNumber : number.isNaN = true) :
    number.exactValue? = none := by
  cases number with
  | integer value => cases noNumber
  | double number => exact Double.exactValue?_eq_none_iff.mpr noNumber

/-- Numbers compare as their exact values do. A NaN, which has no value, compares to nothing. -/
theorem compare?_eq_exact (left right : Number) :
    left.compare? right = Option.map₂ compare left.exactValue? right.exactValue? := by
  rw [compare?_eq]
  cases leftNaN : left.isNaN with
  | true => simp [exactValue?_of_isNaN leftNaN]
  | false =>
      cases rightNaN : right.isNaN with
      | true => simp [exactValue?_of_isNaN rightNaN]
      | false =>
          obtain ⟨leftValue, isLeft, leftUnits⟩ := exists_exactValue? leftNaN
          obtain ⟨rightValue, isRight, rightUnits⟩ := exists_exactValue? rightNaN
          simp [isLeft, isRight, leftUnits.compare_eq rightUnits]

theorem equals_iff_exact {left right : Number} :
    left.equals right = true ↔
      ∃ value, left.exactValue? = some value ∧ right.exactValue? = some value := by
  rw [equals, compare?_eq_exact, beq_iff_eq, Option.map₂_eq_some_iff]
  constructor
  · intro equal
    obtain ⟨leftValue, rightValue, isLeft, isRight, same⟩ := equal
    rw [compare_eq_iff_eq] at same
    exact ⟨leftValue, isLeft, same ▸ isRight⟩
  · intro shared
    obtain ⟨value, isLeft, isRight⟩ := shared
    exact ⟨value, value, isLeft, isRight, compare_eq_iff_eq.mpr rfl⟩

end Number

end DocStore

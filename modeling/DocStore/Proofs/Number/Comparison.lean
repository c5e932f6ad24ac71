import DocStore.Number.Basic

/-!
Comparison of numbers. Whatever their types are, numbers compare as the units they stand for, so that
equality is the same from either side and numbers that equal the same are equal.
-/

namespace DocStore

namespace Double

theorem unitsPerOne_pos : 0 < unitsPerOne := by
  unfold unitsPerOne
  generalize 1074 = places
  exact Nat.two_pow_pos places

theorem exponentField_ne_of_finite {number : Double} (noNaN : number.isNaN = false)
    (finite : number.isInfinite = false) : number.exponentField ≠ 2047 := by
  intro special
  rw [isNaN, special, BEq.rfl, Bool.true_and] at noNaN
  rw [isInfinite, special, BEq.rfl, Bool.true_and] at finite
  rw [bne, finite] at noNaN
  cases noNaN

theorem whole_mul_add_remainder (number : Double) :
    number.whole * unitsPerOne + number.remainder = number.units :=
  Int.mul_comm _ _ ▸ Int.mul_tdiv_add_tmod number.units unitsPerOne

theorem natAbs_remainder_lt (number : Double) : number.remainder.natAbs < unitsPerOne := by
  rw [remainder, Int.natAbs_tmod, Int.natAbs_natCast]
  exact Nat.mod_lt _ unitsPerOne_pos

end Double

/-- Comparing whole parts first and then what is left over compares the numbers of units. -/
theorem compare_then_compare_remainder {unit left right remainder : Int}
    (small : remainder.natAbs < unit) :
    (compare left right).then (compare 0 remainder) =
      compare (left * unit) (right * unit + remainder) := by
  rcases Int.lt_trichotomy left right with less | rfl | greater
  · have step : (left + 1) * unit ≤ right * unit :=
      Int.mul_le_mul_of_nonneg_right less (by omega)
    rw [Int.add_mul, Int.one_mul] at step
    have below : left * unit < right * unit + remainder := by omega
    rw [Int.compare_eq_lt.mpr less, Int.compare_eq_lt.mpr below]
    rfl
  · rw [Int.compare_eq_eq.mpr rfl, Ordering.eq_then]
    rcases Int.lt_trichotomy 0 remainder with less | rfl | greater
    · rw [Int.compare_eq_lt.mpr less, Int.compare_eq_lt.mpr (by omega)]
    · rw [Int.add_zero, Int.compare_eq_eq.mpr rfl, Int.compare_eq_eq.mpr rfl]
    · rw [Int.compare_eq_gt.mpr greater, Int.compare_eq_gt.mpr (by omega)]
  · have step : (right + 1) * unit ≤ left * unit :=
      Int.mul_le_mul_of_nonneg_right greater (by omega)
    rw [Int.add_mul, Int.one_mul] at step
    have above : right * unit + remainder < left * unit := by omega
    rw [Int.compare_eq_gt.mpr greater, Int.compare_eq_gt.mpr above]
    rfl

namespace Double

theorem whole_sign (number : Double) :
    if number.negative then number.whole ≤ 0 else 0 ≤ number.whole := by
  rw [whole, units]
  split
  · rw [Int.neg_tdiv]
    exact Int.neg_nonpos_of_nonneg (Int.tdiv_nonneg (Int.natCast_nonneg _) (Int.natCast_nonneg _))
  · exact Int.tdiv_nonneg (Int.natCast_nonneg _) (Int.natCast_nonneg _)

theorem toInt64?_eq_some_iff {number : Double} {whole : Int64} :
    number.toInt64? = some whole ↔ number.isNaN = false ∧ whole.toInt = number.whole := by
  have lower := whole.minValue_le_toInt
  have upper := whole.toInt_le
  rw [toInt64?]
  cases number.isNaN with
  | true => simp
  | false =>
      by_cases within : Int64.minValue.toInt ≤ number.whole ∧ number.whole ≤ Int64.maxValue.toInt
      · have value : (Int64.ofInt number.whole).toInt = number.whole :=
          Int64.toInt_ofInt_of_le within.1 (Int.lt_of_le_of_lt within.2 (by decide))
        simp only [Bool.false_eq_true, if_false, if_pos within, Option.some_inj, true_and]
        rw [← Int64.toInt_inj, value]
        exact eq_comm
      · simp only [Bool.false_eq_true, if_false, if_neg within, reduceCtorEq, true_and, false_iff]
        omega

theorem toInt64?_eq_none_iff {number : Double} (isNumber : number.isNaN = false) :
    number.toInt64? = none ↔
      ¬(Int64.minValue.toInt ≤ number.whole ∧ number.whole ≤ Int64.maxValue.toInt) := by
  rw [toInt64?, isNumber, if_neg Bool.false_ne_true]
  split
  · next within => exact iff_of_false nofun (not_not_intro within)
  · next beyond => exact iff_of_true rfl beyond

/-- An integer and a number are compared as their units are, also where the whole part of the number is
no 64-bit integer. -/
theorem compareInt?_eq (number : Double) (integer : Int64) :
    number.compareInt? integer =
      if number.isNaN then none
      else some (compare (integer.toInt * unitsPerOne) number.units) := by
  have units := @compare_then_compare_remainder unitsPerOne integer.toInt number.whole number.remainder
    (by exact_mod_cast number.natAbs_remainder_lt)
  rw [whole_mul_add_remainder] at units
  have sign := number.whole_sign
  have lower := integer.minValue_le_toInt
  have upper := integer.toInt_le
  have least : Int64.minValue.toInt < 0 := by decide
  have greatest : 0 < Int64.maxValue.toInt := by decide
  rw [compareInt?, ← units]
  split
  · rfl
  · next isNumber =>
    rw [Bool.not_eq_true] at isNumber
    cases converted : number.toInt64? with
    | some whole =>
        dsimp only
        rw [(toInt64?_eq_some_iff.mp converted).2]
    | none =>
        have beyond := (toInt64?_eq_none_iff isNumber).mp converted
        dsimp only
        -- Beyond the integers, the sign says on which side of them the number is.
        split
        · next negative =>
          rw [if_pos negative] at sign
          have above : number.whole < integer.toInt := by omega
          rw [Int.compare_eq_gt.mpr above]
          rfl
        · next positive =>
          rw [if_neg positive] at sign
          have below : integer.toInt < number.whole := by omega
          rw [Int.compare_eq_lt.mpr below]
          rfl

end Double

namespace Number

def units : Number → Int
  | .integer value => value.toInt * Double.unitsPerOne
  | .double value => value.units

theorem compare?_eq (left right : Number) :
    left.compare? right =
      if left.isNaN || right.isNaN then none else some (compare left.units right.units) := by
  cases left with
  | integer left =>
      cases right with
      | integer right =>
          have scaled := @compare_then_compare_remainder Double.unitsPerOne left.toInt right.toInt 0
            (Int.natCast_pos.mpr Double.unitsPerOne_pos)
          rw [Int.add_zero, Int.compare_eq_eq.mpr rfl, Ordering.then_eq] at scaled
          exact congrArg some scaled
      | double right => exact right.compareInt?_eq left
  | double left =>
      cases right with
      | integer right =>
          rw [compare?, left.compareInt?_eq, isNaN, isNaN, Bool.or_false]
          split
          · rfl
          · exact congrArg some (Int.compare_swap _ _)
      | double right => rfl

theorem equals_iff {left right : Number} :
    left.equals right = true ↔
      left.isNaN = false ∧ right.isNaN = false ∧ left.units = right.units := by
  rw [equals, compare?_eq, beq_iff_eq]
  cases left.isNaN with
  | true => simp
  | false =>
      cases right.isNaN with
      | true => simp
      | false => simp

theorem equals_comm (left right : Number) : left.equals right = right.equals left := by
  rw [Bool.eq_iff_iff, equals_iff, equals_iff]
  constructor
  · rintro ⟨leftNumber, rightNumber, same⟩
    exact ⟨rightNumber, leftNumber, same.symm⟩
  · rintro ⟨rightNumber, leftNumber, same⟩
    exact ⟨leftNumber, rightNumber, same.symm⟩

theorem equals_trans {left middle right : Number} (first : left.equals middle = true)
    (second : middle.equals right = true) : left.equals right = true := by
  rw [equals_iff] at first second ⊢
  exact ⟨first.1, second.2.1, first.2.2.trans second.2.2⟩

theorem equals_self (number : Number) : number.equals number = !number.isNaN := by
  rw [Bool.eq_iff_iff, equals_iff, Bool.not_eq_true']
  exact ⟨And.left, fun isNumber => ⟨isNumber, isNumber, rfl⟩⟩

structure Level (left right : Number) : Prop where
  isNaN : left.isNaN = right.isNaN
  units : left.units = right.units

theorem level_of_equals {left right : Number} (equal : left.equals right = true) : Level left right := by
  rw [equals_iff] at equal
  exact ⟨equal.1.trans equal.2.1.symm, equal.2.2⟩

theorem Level.compare?_eq {left other right another : Number} (first : Level left other)
    (second : Level right another) : left.compare? right = other.compare? another := by
  rw [Number.compare?_eq, Number.compare?_eq, first.isNaN, first.units, second.isNaN, second.units]

theorem Level.sortCompare_eq {left other right another : Number} (first : Level left other)
    (second : Level right another) : left.sortCompare right = other.sortCompare another := by
  rw [sortCompare, sortCompare, first.isNaN, second.isNaN, first.compare?_eq second]

end Number

theorem Double.equals_comm (left right : Double) : left.equals right = right.equals left :=
  Number.equals_comm (.double left) (.double right)

end DocStore

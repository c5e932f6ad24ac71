import DocStore.Proofs.Number.Rounding
import DocStore.Proofs.Number.Written

/-!
Doubles as text. A numeral is read through a significand and a power of ten that are both rounded, so
that the product could be too large for a double although the number is not. It is for no number that is
written of a finite double.
-/

namespace DocStore

/-! ## Decimals -/

namespace Decimal

def IsAtMost (bound : Nat) (decimal : Decimal) : Prop :=
  decimal.coefficient * 10 ^ decimal.exponent.toNat ≤ bound * 10 ^ (-decimal.exponent).toNat

theorem IsAtMost.le_of_natural {bound coefficient : Nat} {exponent : Int}
    (atMost : IsAtMost bound ⟨coefficient, exponent⟩) (natural : 0 ≤ exponent) :
    coefficient * 10 ^ exponent.toNat ≤ bound := by
  have noPlaces : (-exponent).toNat = 0 := by omega
  rw [IsAtMost] at atMost
  dsimp only at atMost
  rwa [noPlaces, Nat.pow_zero, Nat.mul_one] at atMost

theorem IsAtMost.of_leftOut {bound significand : Nat} {decimal : Decimal}
    (atMost : decimal.IsAtMost bound) {left : Nat}
    (digits : significand * 10 ^ left ≤ decimal.coefficient) {shifted : Int}
    (exponent : shifted = decimal.exponent + left) : IsAtMost bound ⟨significand, shifted⟩ := by
  subst exponent
  rcases decimal with ⟨coefficient, exponent⟩
  rw [IsAtMost] at atMost ⊢
  dsimp only at atMost digits ⊢
  have powers : (10 : Nat) ^ (exponent + left).toNat * 10 ^ (-exponent).toNat =
      10 ^ left * 10 ^ exponent.toNat * 10 ^ (-(exponent + left)).toNat := by
    rw [← Nat.pow_add, ← Nat.pow_add, ← Nat.pow_add]
    congr 1
    omega
  have positive : 0 < (10 : Nat) ^ (-exponent).toNat := Nat.pow_pos (by decide)
  apply Nat.le_of_mul_le_mul_right _ positive
  calc significand * 10 ^ (exponent + left).toNat * 10 ^ (-exponent).toNat
      = significand * 10 ^ left * 10 ^ exponent.toNat * 10 ^ (-(exponent + left)).toNat := by
        rw [Nat.mul_assoc, powers]
        ac_rfl
    _ ≤ coefficient * 10 ^ exponent.toNat * 10 ^ (-(exponent + left)).toNat :=
        Nat.mul_le_mul_right _ (Nat.mul_le_mul_right _ digits)
    _ ≤ bound * 10 ^ (-exponent).toNat * 10 ^ (-(exponent + left)).toNat :=
        Nat.mul_le_mul_right _ atMost
    _ = bound * 10 ^ (-(exponent + left)).toNat * 10 ^ (-exponent).toNat := Nat.mul_right_comm _ _ _

namespace RoundingInterval

variable {interval : RoundingInterval}

theorem le_high_of_contains {coefficient : Nat} {exponent : Int}
    (inside : interval.contains coefficient exponent = true) :
    coefficient * (interval.quarter.timesPowerOfTen (-exponent)).denominator ≤
      interval.high * (interval.quarter.timesPowerOfTen (-exponent)).numerator := by
  unfold contains at inside
  split at inside
  · exact (of_decide_eq_true inside).2
  · exact Nat.le_of_lt (of_decide_eq_true inside).2

theorem shortest_le_high (tie : Tie) (ordered : interval.center ≤ interval.high) :
    let decimal := interval.shortest tie
    decimal.coefficient * (interval.quarter.timesPowerOfTen (-decimal.exponent)).denominator ≤
      interval.high * (interval.quarter.timesPowerOfTen (-decimal.exponent)).numerator := by
  rw [shortest]
  generalize (interval.centerOver 0).leadingExponent = leading
  generalize found_eq : List.findSome? _ _ = found
  cases found with
  | some decimal =>
      rcases List.exists_of_findSome?_eq_some found_eq with ⟨exponent, _, here⟩
      rw [Option.map_eq_some_iff] at here
      rcases here with ⟨coefficient, nearest, rfl⟩
      exact le_high_of_contains (contains_of_nearest? nearest)
  | none =>
      exact Nat.le_trans (Nat.div_mul_le_self _ _) (Nat.mul_le_mul_right _ ordered)

end RoundingInterval

theorem isAtMost_shortest {tie : Tie} {number : Double} {bound : Nat}
    (below : (4 * number.significand + 2) * 2 ^ number.shift ≤ bound * (4 * Double.unitsPerOne)) :
    (shortest tie number).IsAtMost bound := by
  rw [shortest]
  split
  · rw [IsAtMost, Nat.zero_mul]
    exact Nat.zero_le _
  · have ordered : (RoundingInterval.of number).center ≤ (RoundingInterval.of number).high :=
      Nat.le_add_right _ _
    have high := RoundingInterval.shortest_le_high tie ordered
    generalize (RoundingInterval.of number).shortest tie = decimal at high
    have positive : 0 < 4 * Double.unitsPerOne := Nat.mul_pos (by decide) Double.unitsPerOne_pos
    simp only [RoundingInterval.of, Ratio.timesPowerOfTen, Nat.pow_eq, Int.neg_neg] at high
    generalize 4 * Double.unitsPerOne = units at below high positive
    rw [IsAtMost]
    apply Nat.le_of_mul_le_mul_right _ positive
    calc decimal.coefficient * 10 ^ decimal.exponent.toNat * units
        = decimal.coefficient * (units * 10 ^ decimal.exponent.toNat) := by ac_rfl
      _ ≤ (4 * number.significand + 2) * (2 ^ number.shift * 10 ^ (-decimal.exponent).toNat) := high
      _ = (4 * number.significand + 2) * 2 ^ number.shift * 10 ^ (-decimal.exponent).toNat := by
          rw [Nat.mul_assoc]
      _ ≤ bound * units * 10 ^ (-decimal.exponent).toNat := Nat.mul_le_mul_right _ below
      _ = bound * 10 ^ (-decimal.exponent).toNat * units := Nat.mul_right_comm _ _ _

end Decimal

namespace Numeral

/-! ## Scaling -/

/-- Up to this number, two factors that are rounded up have no product that is too large. Only three
doubles are above it. -/
def scalingLimit : Nat :=
  (2 ^ 54 - 7) * Nat.pow 2 970

theorem magnitude_ofQuotient_one_le {number : Nat} (positive : 1 ≤ number)
    (small : number ≤ scalingLimit) (negative : Bool) :
    2 ^ 53 * (Double.ofQuotient negative number 1).magnitude ≤
      (2 ^ 53 + 1) * (number * Double.unitsPerOne) := by
  have limit : scalingLimit < Double.overflowLimit := by
    unfold scalingLimit Double.overflowLimit
    generalize 970 = places
    have power : 0 < Nat.pow 2 places := Nat.two_pow_pos places
    omega
  have below : number < Double.overflowLimit * 1 := by omega
  have rounded := Double.magnitude_ofQuotient_le (by decide) positive below negative
  rwa [Nat.mul_one] at rounded

theorem isInfinite_scaleUp {significand exponent : Nat} (positive : 0 < significand)
    (small : significand * 10 ^ exponent ≤ scalingLimit) (negative : Bool) :
    (scaleUp (Double.ofQuotient negative significand 1) exponent).isInfinite = false := by
  have one : 1 ≤ 10 ^ exponent := Nat.pow_pos (by decide)
  have first := magnitude_ofQuotient_one_le positive
    (Nat.le_trans (Nat.le_mul_of_pos_right significand one) small) negative
  have second := magnitude_ofQuotient_one_le one
    (Nat.le_trans (Nat.le_mul_of_pos_left _ positive) small) false
  have limit : (2 ^ 53 + 1) * (2 ^ 53 + 1) * scalingLimit < 2 ^ 106 * Double.overflowLimit := by
    unfold scalingLimit Double.overflowLimit
    generalize 970 = places
    have power : 0 < Nat.pow 2 places := Nat.two_pow_pos places
    omega
  have units := Double.unitsPerOne_pos
  rw [scaleUp, powerOfTen, Nat.pow_eq]
  apply Double.isInfinite_ofQuotient (Nat.mul_pos units units)
  generalize (Double.ofQuotient negative significand 1).magnitude = left at first ⊢
  generalize (Double.ofQuotient false (10 ^ exponent) 1).magnitude = right at second ⊢
  generalize Double.unitsPerOne = unit at first second units ⊢
  generalize (10 : Nat) ^ exponent = power at small second
  apply Nat.lt_of_mul_lt_mul_left (a := 2 ^ 106)
  calc 2 ^ 106 * (left * right)
      = 2 ^ 53 * left * (2 ^ 53 * right) := by
        rw [show 2 ^ 106 = 2 ^ 53 * 2 ^ 53 from rfl]
        ac_rfl
    _ ≤ (2 ^ 53 + 1) * (significand * unit) * ((2 ^ 53 + 1) * (power * unit)) :=
        Nat.mul_le_mul first second
    _ = (2 ^ 53 + 1) * (2 ^ 53 + 1) * (significand * power) * (unit * unit) := by
        ac_rfl
    _ ≤ (2 ^ 53 + 1) * (2 ^ 53 + 1) * scalingLimit * (unit * unit) :=
        Nat.mul_le_mul_right _ (Nat.mul_le_mul_left _ small)
    _ < 2 ^ 106 * Double.overflowLimit * (unit * unit) :=
        Nat.mul_lt_mul_of_pos_right limit (Nat.mul_pos units units)
    _ = 2 ^ 106 * (Double.overflowLimit * (unit * unit)) := Nat.mul_assoc _ _ _

theorem isSome_scaled? {significand : Nat} {exponent : Int}
    (small : Decimal.IsAtMost scalingLimit ⟨significand, exponent⟩) (negative : Bool) :
    (scaled? negative significand exponent).isSome = true := by
  rw [scaled?]
  split
  · rfl
  · next nonzero =>
    have positive := Nat.pos_of_ne_zero nonzero
    split
    · next natural =>
      have small := small.le_of_natural natural
      split
      · next large =>
        have few : largestPower + 1 ≤ exponent.toNat := by omega
        have power := Nat.pow_le_pow_right (n := 10) (by decide) few
        have more := Nat.le_trans power (Nat.le_mul_of_pos_left _ positive)
        have above : scalingLimit < 10 ^ (largestPower + 1) := by decide +kernel
        omega
      · dsimp only
        rw [isInfinite_scaleUp positive small]
        rfl
    · rfl

/-! ## Digits -/

theorem takeDigits_le (significand : Nat) (digits : List Char) :
    (takeDigits significand digits).1 * 10 ^ (takeDigits significand digits).2 ≤
      Nat.ofDigitChars 10 digits significand := by
  induction digits generalizing significand with
  | nil =>
      rw [takeDigits, Nat.pow_zero, Nat.mul_one]
      exact Nat.le_refl significand
  | cons digit rest induction =>
      have next_eq : Nat.ofDigitChars 10 (digit :: rest) significand =
          Nat.ofDigitChars 10 rest (10 * significand + natOfDigits [digit]) := by
        rw [Nat.ofDigitChars_cons, natOfDigits, Nat.ofDigitChars_cons, Nat.mul_zero, Nat.zero_add]
        rfl
      rw [takeDigits, next_eq]
      split
      · have zeros : significand * 10 ^ (rest.length + 1) = 10 ^ rest.length * (10 * significand) := by
          rw [Nat.pow_succ]
          ac_rfl
        rw [Nat.ofDigitChars_eq_ofDigitChars_zero]
        dsimp only
        rw [zeros]
        exact Nat.le_trans (Nat.mul_le_mul_left _ (Nat.le_add_right _ _)) (Nat.le_add_right _ _)
      · exact induction _

theorem takeDigits_fst_le {significand : Nat} (small : significand ≤ significandLimit)
    (digits : List Char) : (takeDigits significand digits).1 ≤ significandLimit := by
  induction digits generalizing significand with
  | nil => exact small
  | cons digit rest induction =>
      rw [takeDigits]
      split
      · exact small
      · next fits => exact induction (Nat.le_of_not_lt fits)

theorem takeDigits_snd_le (significand : Nat) (digits : List Char) :
    (takeDigits significand digits).2 ≤ digits.length := by
  induction digits generalizing significand with
  | nil => exact Nat.le_refl 0
  | cons digit rest induction =>
      rw [takeDigits, List.length_cons]
      split
      · exact Nat.le_refl _
      · exact Nat.le_succ_of_le (induction _)

/-! ## Layouts -/

theorem significandLimit_mul_le : significandLimit * 10 ^ 16 ≤ scalingLimit := by
  have large : 128 ≤ 970 := by decide
  rw [show significandLimit = 2 ^ 64 - 1 from rfl]
  unfold scalingLimit
  generalize 970 = places at large ⊢
  have power : 2 ^ 128 ≤ Nat.pow 2 places := Nat.pow_le_pow_right Nat.two_pos large
  omega

theorem isSome_toDouble?_of_short {numeral : Numeral} (plain : numeral.exponent = none)
    (short : numeral.whole.length ≤ 16) : numeral.toDouble?.isSome = true := by
  have first := takeDigits_fst_le (Nat.zero_le significandLimit) numeral.whole
  have left := takeDigits_snd_le 0 numeral.whole
  rw [toDouble?, plain]
  generalize takeDigits 0 numeral.whole = taken at first left
  have second := takeDigits_fst_le first numeral.fraction
  dsimp only
  generalize takeDigits taken.1 numeral.fraction = both at second
  apply isSome_scaled?
  rw [Decimal.IsAtMost]
  dsimp only
  generalize exponent_eq : (taken.2 : Int) - _ = exponent
  have places : exponent.toNat ≤ 16 := by omega
  calc both.1 * 10 ^ exponent.toNat
      ≤ significandLimit * 10 ^ 16 :=
        Nat.mul_le_mul second (Nat.pow_le_pow_right (by decide) places)
    _ ≤ scalingLimit := significandLimit_mul_le
    _ ≤ scalingLimit * 10 ^ (-exponent).toNat :=
        Nat.le_mul_of_pos_right _ (Nat.pow_pos (by decide))

theorem length_whole_positional (layout : Layout) (negative : Bool) (decimal : Decimal) :
    ((positional layout negative decimal).whole.length : Int) ≤
      max 1 (decimal.exponent + (digitsOfNat decimal.coefficient).length) := by
  rw [positional]
  dsimp only
  split
  · rw [List.length_append, List.length_replicate]
    omega
  · have length := length_padLeft ((-decimal.exponent).toNat + 1) (digitsOfNat decimal.coefficient)
    rw [List.length_take]
    omega

theorem fraction_positional_ne_nil {layout : Layout} (some : layout.wholeFraction ≠ [])
    (negative : Bool) (decimal : Decimal) : (positional layout negative decimal).fraction ≠ [] := by
  rw [positional]
  dsimp only
  split
  · exact some
  · have length := length_padLeft ((-decimal.exponent).toNat + 1) (digitsOfNat decimal.coefficient)
    apply List.ne_nil_of_length_pos
    rw [List.length_drop]
    omega

theorem takeDigits_of_isDigit {digit : Char} (isDigit : digit.isDigit = true) :
    takeDigits 0 [digit] = (natOfDigits [digit], 0) := by
  have small : digit.toNat ≤ 57 := (Char.isDigit_iff_toNat.mp isDigit).2
  have value : natOfDigits [digit] = digit.toNat - 48 := by
    rw [natOfDigits, Nat.ofDigitChars_cons, Nat.mul_zero, Nat.zero_add]
    rfl
  have limit : significandLimit = 2 ^ 64 - 1 := rfl
  rw [takeDigits, Nat.mul_zero, Nat.zero_add, if_neg (by rw [value, limit]; omega)]
  rfl

theorem isSome_toDouble?_scientific {decimal : Decimal}
    (small : decimal.IsAtMost scalingLimit) (negative : Bool) :
    (scientific negative decimal).toDouble?.isSome = true := by
  have value := natOfDigits_digitsOfNat decimal.coefficient
  have isDigit : ∀ c ∈ digitsOfNat decimal.coefficient, c.isDigit = true :=
    fun c member => isDigit_of_mem_digitsOfNat member
  have some := digitsOfNat_ne_nil decimal.coefficient
  rw [scientific]
  generalize digitsOfNat decimal.coefficient = digits at value isDigit some ⊢
  rcases digits with _ | ⟨digit, rest⟩
  · exact absurd rfl some
  · have first := takeDigits_of_isDigit (isDigit digit List.mem_cons_self)
    have taken := takeDigits_le (natOfDigits [digit]) rest
    have left := takeDigits_snd_le (natOfDigits [digit]) rest
    have digits : Nat.ofDigitChars 10 rest (natOfDigits [digit]) = decimal.coefficient := by
      rw [← value, natOfDigits, natOfDigits, Nat.ofDigitChars_cons, Nat.ofDigitChars_cons]
      rfl
    rw [digits] at taken
    rw [toDouble?]
    simp only [List.take_succ_cons, List.take_zero, List.drop_succ_cons, List.drop_zero, first,
      natOfDigits_digitsOfNat, List.length_cons]
    generalize takeDigits (natOfDigits [digit]) rest = both at taken left ⊢
    refine isSome_scaled? (small.of_leftOut taken ?_) negative
    split
    · next negative =>
      have := of_decide_eq_true negative
      omega
    · next positive =>
      rw [decide_eq_true_iff] at positive
      omega

/-! ## Doubles -/

theorem read?_eq_toDouble? {numeral : Numeral}
    (double : ¬(numeral.fraction = [] ∧ numeral.exponent = none)) :
    numeral.read? = numeral.toDouble?.map .double :=
  if_neg double

theorem ofDouble_isDouble (number : Double) :
    ¬((ofDouble Json.numberLayout number).fraction = [] ∧
      (ofDouble Json.numberLayout number).exponent = none) := by
  rw [ofDouble]
  split
  · exact fun none => fraction_positional_ne_nil (by decide) _ _ none.1
  · exact fun none => Option.some_ne_none _ none.2

theorem isSome_toDouble?_ofDouble {number : Double}
    (small : (Decimal.shortest .even number).IsAtMost scalingLimit) :
    (ofDouble Json.numberLayout number).toDouble?.isSome = true := by
  rw [ofDouble]
  split
  · next positional =>
    have leading := (of_decide_eq_true positional).2
    have length := length_whole_positional Json.numberLayout number.negative
      (Decimal.shortest Json.numberLayout.tie number)
    refine isSome_toDouble?_of_short ?_ (by omega)
    rw [Numeral.positional]
    dsimp only
    split
    · rfl
    · rfl
  · exact isSome_toDouble?_scientific small number.negative

end Numeral

namespace Double

theorem ofMagnitudeBits_parts (number : Double) :
    ofMagnitudeBits number.negative (number.exponentField * 2 ^ 52 + number.fractionField) = number := by
  have range := number.bits.toNat_lt
  have small : number.exponentField * 2 ^ 52 + number.fractionField < 2 ^ 63 := by
    rw [exponentField, fractionField, Nat.pow_eq]
    omega
  have same : (ofMagnitudeBits number.negative
      (number.exponentField * 2 ^ 52 + number.fractionField)).bits = number.bits := by
    apply UInt64.toNat_inj.mp
    rw [toNat_ofMagnitudeBits small, negative, exponentField, fractionField, Nat.pow_eq, Nat.pow_eq]
    split
    · next negative =>
      have := of_decide_eq_true negative
      omega
    · next positive =>
      have := of_decide_eq_false (Bool.not_eq_true _ ▸ positive)
      omega
  rcases number with ⟨bits⟩
  exact congrArg Double.mk same

/-- All finite numbers but the three largest magnitudes are small enough for scaling. -/
theorem small_or_large {number : Double} (finite : number.exponentField ≠ 2047) :
    (4 * number.significand + 2) * 2 ^ number.shift ≤ Numeral.scalingLimit * (4 * unitsPerOne) ∨
      ∃ below : Fin 3, number = ofMagnitudeBits number.negative (infinityBits - 1 - below) := by
  have parts := ofMagnitudeBits_parts number
  have exponent : number.exponentField < 2048 := Nat.mod_lt _ (by decide)
  have fraction : number.fractionField < 2 ^ 52 := Nat.mod_lt _ (by decide)
  have significand : number.significand ≤ 2 ^ 52 + number.fractionField := by
    rw [Double.significand, Nat.pow_eq]
    split
    · omega
    · omega
  have limit (places : Nat) :
      (2 ^ 54 - 7) * Nat.pow 2 places * (4 * unitsPerOne) = (2 ^ 56 - 28) * 2 ^ (places + 1074) := by
    have factor : (2 ^ 54 - 7) * 4 = 2 ^ 56 - 28 := rfl
    rw [← pow_mul_unitsPerOne, Nat.mul_mul_mul_comm, factor]
  unfold Numeral.scalingLimit
  -- With a variable for its exponent the power is not computed.
  generalize places_eq : 970 = places
  rw [limit]
  by_cases low : number.exponentField < 2046
  · have shift : number.shift ≤ places + 1074 := by
      rw [Double.shift]
      omega
    exact .inl (Nat.mul_le_mul (by omega) (Nat.pow_le_pow_right Nat.two_pos shift))
  · have last : number.exponentField = 2046 := by omega
    have shift : number.shift = places + 1074 + 1 := by
      rw [Double.shift]
      omega
    by_cases small : number.fractionField ≤ 2 ^ 52 - 4
    · rw [shift, Nat.pow_succ', ← Nat.mul_assoc]
      exact .inl (Nat.mul_le_mul_right _ (by omega))
    · refine .inr ⟨⟨2 ^ 52 - 1 - number.fractionField, by omega⟩, ?_⟩
      have bits : number.exponentField * 2 ^ 52 + number.fractionField =
          infinityBits - 1 - (2 ^ 52 - 1 - number.fractionField) := by
        rw [last, infinityBits_eq]
        omega
      rw [bits] at parts
      exact parts.symm

end Double

namespace Numeral

/-- The text of a finite double is read as a double. -/
theorem exists_read?_ofDouble {number : Double} (noNaN : number.isNaN = false)
    (finite : number.isInfinite = false) :
    ∃ other, (ofDouble Json.numberLayout number).read? = some (.double other) := by
  have isSome : (ofDouble Json.numberLayout number).toDouble?.isSome = true := by
    rcases Double.small_or_large (Double.exponentField_ne_of_finite noNaN finite) with
      small | ⟨below, large⟩
    · exact isSome_toDouble?_ofDouble (Decimal.isAtMost_shortest small)
    · have largest : ∀ (negative : Bool) (below : Fin 3),
          (ofDouble Json.numberLayout (Double.ofMagnitudeBits negative
            (Double.infinityBits - 1 - below))).toDouble?.isSome = true := by
        decide +kernel
      rw [large]
      exact largest _ below
  rcases Option.isSome_iff_exists.mp isSome with ⟨other, read⟩
  exact ⟨other, by rw [read?_eq_toDouble? (ofDouble_isDouble number), read]; rfl⟩

end Numeral

end DocStore

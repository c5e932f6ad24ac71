import DocStore.Json.Printer
import DocStore.Json.Token
import DocStore.Number.Text
import Mathlib.Data.Option.Basic

/-!
Numbers as text are numerals of JSON, and integers are read back from them.
-/

namespace DocStore

namespace Numeral

/-! ## Digits -/

theorem isDigit_of_mem_digitsOfNat {number : Nat} {c : Char} (member : c ∈ digitsOfNat number) :
    c.isDigit = true :=
  Nat.isDigit_of_mem_toDigits (by omega) (by omega) member

theorem digitsOfNat_ne_nil (number : Nat) : digitsOfNat number ≠ [] :=
  Nat.toDigits_ne_nil

theorem natOfDigits_digitsOfNat (number : Nat) : natOfDigits (digitsOfNat number) = number :=
  Nat.ofDigitChars_ten_toDigits

theorem digitsOfNat_of_head_eq_zero {number : Nat} (zero : (digitsOfNat number).head? = some '0') :
    number = 0 := by
  induction number using Nat.strongRecOn with
  | _ number induction =>
      rw [digitsOfNat, Nat.toDigits_eq_if (by omega)] at zero
      split at zero
      · next small =>
        have one : ∀ digit : Fin 10, digit.val.digitChar = '0' → digit.val = 0 := by decide
        exact one ⟨number, small⟩ (Option.some.inj zero)
      · next large =>
        rw [List.head?_append, List.head?_eq_some_head Nat.toDigits_ne_nil, Option.some_or,
          ← List.head?_eq_some_head] at zero
        have := induction (number / 10) (by omega) zero
        omega

/-! ## Numerals of JSON -/

/-- A numeral as JSON has it: there are digits in front of the point and in the exponent, and no zero
in front of others. -/
structure IsWritten (numeral : Numeral) : Prop where
  whole_ne_nil : numeral.whole ≠ []
  whole : ∀ c ∈ numeral.whole, c.isDigit = true
  leading : numeral.whole.head? = some '0' → numeral.whole.length = 1
  fraction : ∀ c ∈ numeral.fraction, c.isDigit = true
  exponent : ∀ negative digits, numeral.exponent = some (negative, digits) →
    digits ≠ [] ∧ ∀ c ∈ digits, c.isDigit = true

theorem spanDigits_append {digits rest : List Char} (digit : ∀ c ∈ digits, c.isDigit = true)
    (ends : ∀ c ∈ rest.head?, c.isDigit = false) :
    Json.spanDigits (digits ++ rest) = (digits, rest) := by
  rw [Json.spanDigits, List.takeWhile_append_of_pos digit, List.dropWhile_append_of_pos digit]
  cases rest with
  | nil => simp
  | cons c rest =>
      have other := ends c rfl
      simp [other]

def fractionChars (fraction : List Char) : List Char :=
  if fraction = [] then [] else '.' :: fraction

def exponentChars : Option (Bool × List Char) → List Char
  | none => []
  | some (negative, digits) => 'e' :: (if negative then '-' else '+') :: digits

theorem isDigit_head?_exponentChars (exponent : Option (Bool × List Char)) :
    ∀ c ∈ (exponentChars exponent).head?, c.isDigit = false := by
  cases exponent with
  | none => simp [exponentChars]
  | some exponent => simp [exponentChars]

theorem isDigit_head?_fractionChars (fraction : List Char) (exponent : Option (Bool × List Char)) :
    ∀ c ∈ (fractionChars fraction ++ exponentChars exponent).head?, c.isDigit = false := by
  rw [fractionChars]
  split
  · exact isDigit_head?_exponentChars exponent
  · simp

theorem exponent?_exponentChars {exponent : Option (Bool × List Char)}
    (written : ∀ negative digits, exponent = some (negative, digits) →
      digits ≠ [] ∧ ∀ c ∈ digits, c.isDigit = true) :
    Json.exponent? (exponentChars exponent) = some exponent := by
  rcases exponent with _ | ⟨negative, digits⟩
  · rfl
  · have here := written negative digits rfl
    cases negative with
    | true => simpa [exponentChars, Json.exponent?, here.1] using here.2
    | false => simpa [exponentChars, Json.exponent?, here.1] using here.2

theorem fraction?_fractionChars {fraction : List Char} (digit : ∀ c ∈ fraction, c.isDigit = true)
    (exponent : Option (Bool × List Char)) :
    Json.fraction? (fractionChars fraction ++ exponentChars exponent) =
      some (fraction, exponentChars exponent) := by
  rw [fractionChars]
  split
  · next empty =>
    subst empty
    rcases exponent with _ | ⟨negative, digits⟩
    · rfl
    · rfl
  · next digits =>
    rw [List.cons_append, Json.fraction?,
      spanDigits_append digit (isDigit_head?_exponentChars exponent)]
    exact if_neg digits

theorem chars_eq (numeral : Numeral) :
    numeral.chars = (if numeral.negative then ['-'] else []) ++
      (numeral.whole ++ (fractionChars numeral.fraction ++ exponentChars numeral.exponent)) := by
  rcases numeral with ⟨negative, whole, fraction, _ | ⟨sign, digits⟩⟩
  · simp only [chars, fractionChars, exponentChars, List.append_assoc]
  · simp only [chars, fractionChars, exponentChars, List.append_assoc]

def unsigned? (negative : Bool) (text : List Char) : Option Numeral := do
  let (whole, rest) := Json.spanDigits text
  guard (whole ≠ [] ∧ (whole.head? = some '0' → whole.length = 1))
  let (fraction, rest) ← Json.fraction? rest
  let exponent ← Json.exponent? rest
  return { negative, whole, fraction, exponent }

theorem numeral?_of_digit {c : Char} (digit : c.isDigit = true) (rest : List Char) :
    Json.numeral? (c :: rest) = unsigned? false (c :: rest) := by
  have noMinus : c ≠ '-' := by
    rintro rfl
    cases digit
  unfold Json.numeral?
  split
  next sign =>
  split at sign
  · next same => exact absurd (List.cons.inj same).1 noMinus
  · cases sign
    rfl

theorem unsigned?_chars {numeral : Numeral} (written : numeral.IsWritten) :
    unsigned? numeral.negative (numeral.whole ++
      (fractionChars numeral.fraction ++ exponentChars numeral.exponent)) = some numeral := by
  have allowed : (guard (numeral.whole ≠ [] ∧
      (numeral.whole.head? = some '0' → numeral.whole.length = 1)) : Option Unit) = some () :=
    if_pos ⟨written.whole_ne_nil, written.leading⟩
  rw [unsigned?, spanDigits_append written.whole (isDigit_head?_fractionChars _ _)]
  simp only [allowed, bind, Option.bind, pure]
  rw [fraction?_fractionChars written.fraction]
  dsimp only
  rw [exponent?_exponentChars written.exponent]

theorem numeral?_chars {numeral : Numeral} (written : numeral.IsWritten) :
    Json.numeral? numeral.chars = some numeral := by
  rw [chars_eq, ← unsigned?_chars written]
  cases numeral.negative with
  | true => rfl
  | false =>
      cases digits : numeral.whole with
      | nil => exact absurd digits written.whole_ne_nil
      | cons c rest => exact numeral?_of_digit (written.whole c (by rw [digits]; exact List.mem_cons_self)) _

/-! ## Integers -/

theorem isWritten_ofInt (number : Int) : (ofInt number).IsWritten where
  whole_ne_nil := digitsOfNat_ne_nil _
  whole _ member := isDigit_of_mem_digitsOfNat member
  leading zero := by
    rw [ofInt, digitsOfNat_of_head_eq_zero zero]
    rfl
  fraction _ member := nomatch member
  exponent _ _ none := nomatch none

theorem read?_ofInt_natural {value : Nat} (small : value ≤ significandLimit) :
    (ofInt value).read? = some (.natural value) := by
  have positive : decide ((value : Int) < 0) = false := decide_eq_false (by omega)
  simp only [read?, ofInt, positive, Int.natAbs_natCast, natOfDigits_digitsOfNat, small,
    and_self, Bool.false_eq_true, if_true, if_false]

theorem read?_ofInt_negative {value : Int64} (negative : value.toInt < 0) :
    (ofInt value.toInt).read? = some (.negative value) := by
  have least := value.le_toInt
  have magnitude : -((value.toInt.natAbs : Nat) : Int) = value.toInt := by omega
  have within : 0 < value.toInt.natAbs ∧ value.toInt.natAbs ≤ Nat.pow 2 63 := by
    refine ⟨by omega, ?_⟩
    have limit : Nat.pow 2 63 = 9223372036854775808 := rfl
    omega
  simp only [read?, ofInt, decide_eq_true negative, natOfDigits_digitsOfNat, within, magnitude,
    and_self, if_true, Int64.ofInt_toInt]

/-! ## Doubles -/

end Numeral

namespace Decimal

namespace RoundingInterval

variable {interval : RoundingInterval} {tie : Tie} {exponent : Int} {coefficient : Nat}

theorem not_contains_zero (low : 0 < interval.low) (quarter : 0 < interval.quarter.numerator) :
    interval.contains 0 exponent = false := by
  have scaled : 0 < interval.low * (interval.quarter.timesPowerOfTen (-exponent)).numerator := by
    apply Nat.mul_pos low
    exact Nat.mul_pos quarter (Nat.pow_pos (by omega))
  simp only [contains, Nat.zero_mul]
  split
  · rw [decide_eq_false_iff_not]
    omega
  · rw [decide_eq_false_iff_not]
    omega

theorem contains_of_nearest? (nearest : interval.nearest? tie exponent = some coefficient) :
    interval.contains coefficient exponent = true := by
  unfold nearest? at nearest
  simp only at nearest
  split at nearest
  · cases nearest
  · next below _ =>
    cases nearest
    exact below
  · next _ above =>
    cases nearest
    exact above
  · next below above =>
    split at nearest
    · cases nearest
      exact below
    · split at nearest
      · cases nearest
        exact above
      · cases tie with
        | even =>
            cases nearest
            rcases Nat.mod_two_eq_zero_or_one (interval.centerOver exponent).floor with even | odd
            · rw [even]
              exact below
            · rw [odd]
              exact above
        | up =>
            cases nearest
            exact above

theorem coefficient_pos_of_nearest? (low : 0 < interval.low)
    (quarter : 0 < interval.quarter.numerator)
    (nearest : interval.nearest? tie exponent = some coefficient) : 0 < coefficient := by
  have inside := contains_of_nearest? nearest
  apply Nat.pos_of_ne_zero
  rintro rfl
  rw [not_contains_zero low quarter] at inside
  cases inside

theorem floor_centerOver_pos (large : 0 < exponent)
    (leading : exponent ≤ (interval.centerOver 0).leadingExponent) :
    0 < (interval.centerOver exponent).floor := by
  rw [Ratio.leadingExponent] at leading
  split at leading
  · next nonzero =>
    generalize whole_eq : (interval.centerOver 0).floor = whole at leading nonzero
    have size : Nat.pow 10 exponent.toNat ≤ whole := by
      have positive : 0 < exponent.toNat := by omega
      apply Nat.le_of_not_lt
      intro small
      have short := (Nat.length_toDigits_le_iff (b := 10) (by omega) positive).mpr small
      omega
    have denominator : 0 < interval.quarter.denominator := by
      apply Nat.pos_of_ne_zero
      intro zero
      apply nonzero
      rw [← whole_eq, centerOver, Ratio.floor, Ratio.timesPowerOfTen, zero, Nat.zero_mul,
        Nat.div_zero]
    have quotient : whole = interval.center * interval.quarter.numerator /
        interval.quarter.denominator := by
      rw [← whole_eq, centerOver, Ratio.floor, Ratio.timesPowerOfTen]
      simp
    have scale : (-exponent).toNat = 0 := by omega
    rw [centerOver, Ratio.floor, Ratio.timesPowerOfTen, scale, Int.neg_neg]
    apply Nat.div_pos
    · rw [quotient, Nat.le_div_iff_mul_le denominator, Nat.mul_comm] at size
      rw [Nat.pow_eq, Nat.pow_zero, Nat.mul_one]
      exact size
    · exact Nat.mul_pos denominator (Nat.pow_pos (by omega))
  · omega

theorem exponent_shortest_le_zero (low : 0 < interval.low) (quarter : 0 < interval.quarter.numerator)
    (zero : (interval.shortest tie).coefficient = 0) : (interval.shortest tie).exponent ≤ 0 := by
  rw [shortest] at zero ⊢
  generalize leading_eq : (interval.centerOver 0).leadingExponent = leading at zero ⊢
  generalize found_eq : List.findSome? _ _ = found at zero ⊢
  cases found with
  | some decimal =>
      rcases List.exists_of_findSome?_eq_some found_eq with ⟨exponent, _, here⟩
      rw [Option.map_eq_some_iff] at here
      rcases here with ⟨coefficient, nearest, rfl⟩
      have positive := coefficient_pos_of_nearest? low quarter nearest
      rw [Option.getD_some] at zero
      exact absurd zero (Nat.ne_of_gt positive)
  | none =>
      rw [Option.getD_none] at zero ⊢
      by_cases large : 0 < leading - 16
      · have positive : 0 < (interval.centerOver (leading - 16)).floor :=
          floor_centerOver_pos large (by omega)
        exact absurd zero (Nat.ne_of_gt positive)
      · exact Int.not_lt.mp large

end RoundingInterval

theorem exponent_shortest_le_zero {tie : Tie} {number : Double}
    (zero : (shortest tie number).coefficient = 0) : (shortest tie number).exponent ≤ 0 := by
  rw [shortest] at zero ⊢
  split at zero
  · next none =>
    exact Int.le_of_eq (congrArg Decimal.exponent (if_pos none))
  · next some =>
    rw [if_neg some]
    have significand : 0 < number.significand := by
      apply Nat.pos_of_ne_zero
      intro zero
      apply some
      rw [Double.magnitude, zero, Nat.zero_mul]
    refine RoundingInterval.exponent_shortest_le_zero ?_ (Nat.pow_pos (by omega)) zero
    simp only [RoundingInterval.of]
    split
    · omega
    · omega

end Decimal

namespace Numeral

theorem isDigit_of_mem_zeros {count : Nat} {c : Char} (member : c ∈ List.replicate count '0') :
    c.isDigit = true := by
  rw [(List.mem_replicate.mp member).2]
  rfl

theorem isDigit_of_mem_padLeft {width : Nat} {digits : List Char}
    (digit : ∀ c ∈ digits, c.isDigit = true) {c : Char} (member : c ∈ padLeft width digits) :
    c.isDigit = true := by
  rcases List.mem_append.mp member with inZeros | inDigits
  · exact isDigit_of_mem_zeros inZeros
  · exact digit c inDigits

theorem length_padLeft (width : Nat) (digits : List Char) :
    (padLeft width digits).length = max width digits.length := by
  rw [padLeft, List.length_append, List.length_replicate]
  omega

theorem digits_eq_zero_of_head {number : Nat}
    (zero : (digitsOfNat number).head? = some '0') : digitsOfNat number = ['0'] := by
  rw [digitsOfNat_of_head_eq_zero zero]
  rfl

theorem length_le_of_head_padLeft {number places : Nat} (below : 0 < places)
    (zero : (padLeft (places + 1) (digitsOfNat number)).head? = some '0') :
    (digitsOfNat number).length ≤ places := by
  by_contra long
  have unpadded : padLeft (places + 1) (digitsOfNat number) = digitsOfNat number := by
    rw [padLeft, show places + 1 - (digitsOfNat number).length = 0 by omega]
    rfl
  rw [unpadded] at zero
  rw [digits_eq_zero_of_head zero] at long
  exact long below

theorem isWritten_positional {layout : Layout} {decimal : Decimal}
    (fraction : ∀ c ∈ layout.wholeFraction, c.isDigit = true)
    (noZeros : decimal.coefficient = 0 → decimal.exponent ≤ 0) (negative : Bool) :
    (positional layout negative decimal).IsWritten := by
  have digit : ∀ c ∈ digitsOfNat decimal.coefficient, c.isDigit = true :=
    fun c member => isDigit_of_mem_digitsOfNat member
  unfold positional
  simp only
  split
  · next whole =>
    refine ⟨?_, ?_, ?_, fraction, fun _ _ none => nomatch none⟩
    · exact List.append_ne_nil_of_left_ne_nil (digitsOfNat_ne_nil _) _
    · intro c member
      rcases List.mem_append.mp member with inDigits | inZeros
      · exact digit c inDigits
      · exact isDigit_of_mem_zeros inZeros
    · intro zero
      rw [List.head?_append, List.head?_eq_some_head (digitsOfNat_ne_nil _), Option.some_or,
        ← List.head?_eq_some_head] at zero
      have none := digitsOfNat_of_head_eq_zero zero
      have exponent : decimal.exponent.toNat = 0 := by
        have := noZeros none
        omega
      rw [none, exponent]
      rfl
  · next part =>
    have below : 0 < (-decimal.exponent).toNat := by omega
    generalize (-decimal.exponent).toNat = places at below
    have padded : ∀ c ∈ padLeft (places + 1) (digitsOfNat decimal.coefficient), c.isDigit = true :=
      fun c => isDigit_of_mem_padLeft digit
    have length := length_padLeft (places + 1) (digitsOfNat decimal.coefficient)
    refine ⟨?_, ?_, ?_, ?_, fun _ _ none => nomatch none⟩
    · intro empty
      have := congrArg List.length empty
      rw [List.length_take, List.length_nil] at this
      omega
    · exact fun c member => padded c (List.mem_of_mem_take member)
    · intro zero
      rw [List.head?_take, if_neg (by omega)] at zero
      -- A zero in front was padded, so that it is the only digit before the point.
      have short := length_le_of_head_padLeft below zero
      rw [List.length_take]
      omega
    · exact fun c member => padded c (List.mem_of_mem_drop member)

theorem isWritten_scientific (negative : Bool) (decimal : Decimal) :
    (scientific negative decimal).IsWritten where
  whole_ne_nil empty := by
    have := congrArg List.length empty
    have some := List.length_pos_iff.mpr (digitsOfNat_ne_nil decimal.coefficient)
    rw [scientific, List.length_take, List.length_nil] at this
    omega
  whole _ member := isDigit_of_mem_digitsOfNat (List.mem_of_mem_take member)
  leading _ := by
    have some := List.length_pos_iff.mpr (digitsOfNat_ne_nil decimal.coefficient)
    rw [scientific, List.length_take]
    omega
  fraction _ member := isDigit_of_mem_digitsOfNat (List.mem_of_mem_drop member)
  exponent _ _ same := by
    cases same
    exact ⟨digitsOfNat_ne_nil _, fun _ member => isDigit_of_mem_digitsOfNat member⟩

theorem isWritten_ofDouble (number : Double) :
    (ofDouble Json.numberLayout number).IsWritten := by
  rw [ofDouble]
  split
  · refine isWritten_positional ?_ Decimal.exponent_shortest_le_zero _
    simp [Json.numberLayout]
  · exact isWritten_scientific _ _

end Numeral

/-! ## Numbers of JSON -/

namespace JsonNumber

def numeral : JsonNumber → Numeral
  | .natural value => .ofInt value
  | .negative value => .ofInt value.toInt
  | .double value => .ofDouble Json.numberLayout value

theorem numberChars_eq (number : JsonNumber) : Json.numberChars number = number.numeral.chars := by
  cases number with
  | _ => rfl

theorem isWritten_numeral (number : JsonNumber) : number.numeral.IsWritten := by
  cases number with
  | natural value => exact Numeral.isWritten_ofInt _
  | negative value => exact Numeral.isWritten_ofInt _
  | double value => exact Numeral.isWritten_ofDouble value

end JsonNumber

/-! ## Integers in strings -/

namespace NumberText

theorem natural?_digitsOfNat (number : Nat) :
    natural? (Numeral.digitsOfNat number) = some number := by
  have digits : (Numeral.digitsOfNat number).all Char.isDigit = true :=
    List.all_eq_true.mpr fun c member => Numeral.isDigit_of_mem_digitsOfNat member
  rw [natural?, if_pos ⟨Numeral.digitsOfNat_ne_nil number, digits⟩]
  exact congrArg some (Numeral.natOfDigits_digitsOfNat number)

theorem splitSign_of_isDigit {text : List Char} (digit : ∀ c ∈ text.head?, c.isDigit = true) :
    splitSign text = (false, text) := by
  unfold splitSign
  split
  · cases digit _ rfl
  · cases digit _ rfl
  · rfl

theorem splitSign_digitsOfNat (number : Nat) :
    splitSign (Numeral.digitsOfNat number) = (false, Numeral.digitsOfNat number) :=
  splitSign_of_isDigit fun _ member =>
    Numeral.isDigit_of_mem_digitsOfNat (List.mem_of_mem_head? member)

theorem toList_toString (number : Nat) :
    (toString (number : Int)).toList = Numeral.digitsOfNat number := by
  rw [← Int.ofNat_eq_natCast, Int.toString_eq_repr, Int.repr, Nat.repr_eq_ofList_toDigits, String.toList_ofList]
  rfl

theorem toList_toString_negSucc (number : Nat) :
    (toString (Int.negSucc number)).toList = '-' :: Numeral.digitsOfNat (number + 1) := by
  rw [Int.toString_eq_repr, Int.repr, Nat.repr_eq_ofList_toDigits, String.toList_append,
    String.toList_ofList, String.toList_ofList]
  rfl

theorem integer?_toString (value : Int) : integer? (toString value) = some value := by
  cases value with
  | ofNat number =>
      have text : (toString (Int.ofNat number)).toList = Numeral.digitsOfNat number :=
        toList_toString number
      rw [integer?, text, splitSign_digitsOfNat]
      simp only [natural?_digitsOfNat, bind, Option.bind]
      rfl
  | negSucc number =>
      rw [integer?, toList_toString_negSucc]
      simp only [splitSign, natural?_digitsOfNat, bind, Option.bind]
      rfl

theorem integer?_plus (number : Nat) :
    integer? ("+" ++ toString (number : Int)) = some (number : Int) := by
  have text : ("+" ++ toString (number : Int)).toList = '+' :: Numeral.digitsOfNat number := by
    rw [String.toList_append, toList_toString]
    rfl
  rw [integer?, text]
  simp only [splitSign, natural?_digitsOfNat, bind, Option.bind]
  rfl

theorem int64?_toString (value : Int64) : int64? (toString value.toInt) = some value := by
  have within : Int64.minValue.toInt ≤ value.toInt ∧ value.toInt ≤ Int64.maxValue.toInt :=
    ⟨value.minValue_le_toInt, value.toInt_le⟩
  rw [int64?, integer?_toString]
  simp only [bind, Option.bind, within, and_self, if_true, Int64.ofInt_toInt]

end NumberText

end DocStore

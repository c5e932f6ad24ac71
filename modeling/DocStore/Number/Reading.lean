import DocStore.Number.Numeral

/-!
The numbers that written numerals stand for.
-/

namespace DocStore

/-- The double nearest to `± coefficient * 10 ^ exponent`. The two bounds keep far exponents from
building huge powers: beyond them the answer is an infinity or a zero. -/
def Decimal.toDouble (negative : Bool) (decimal : Decimal) : Double :=
  let leading := decimal.exponent + (Nat.toDigits 10 decimal.coefficient).length
  if decimal.coefficient = 0 ∨ leading < -400 then Double.zero negative
  else if 400 < leading then Double.infinity negative
  else
    let ratio := (Decimal.Ratio.mk decimal.coefficient 1).timesPowerOfTen decimal.exponent
    Double.ofQuotient negative ratio.numerator ratio.denominator

inductive JsonNumber where
  | natural (value : Nat)
  | negative (value : Int64)
  | double (value : Double)
deriving DecidableEq, Repr

namespace Numeral

def natOfDigits (digits : List Char) : Nat :=
  Nat.ofDigitChars 10 digits 0

def significandLimit : Nat :=
  Nat.pow 2 64 - 1

def takeDigits (significand : Nat) : List Char → Nat × Nat
  | [] => (significand, 0)
  | digit :: rest =>
      let next := 10 * significand + natOfDigits [digit]
      if significandLimit < next then (significand, rest.length + 1)
      else takeDigits next rest

def powerOfTen (exponent : Nat) : Double :=
  Double.ofQuotient false (Nat.pow 10 exponent) 1

def scaleUp (number : Double) (exponent : Nat) : Double :=
  Double.ofQuotient number.negative (number.magnitude * (powerOfTen exponent).magnitude)
    (Double.unitsPerOne * Double.unitsPerOne)

def scaleDown (number : Double) (exponent : Nat) : Double :=
  Double.ofQuotient number.negative number.magnitude (powerOfTen exponent).magnitude

def largestPower : Nat := 308

def scaleDownSteps (number : Double) : Nat → Double
  | 0 => number
  | steps + 1 =>
      if number.magnitude = 0 then number
      else scaleDownSteps (scaleDown number largestPower) steps

def scaled? (negative : Bool) (significand : Nat) (exponent : Int) : Option Double :=
  let number := Double.ofQuotient negative significand 1
  if significand = 0 then some number
  else if 0 ≤ exponent then
    if (largestPower : Int) < exponent then none
    else
      let product := scaleUp number exponent.toNat
      if product.isInfinite then none else some product
  else
    let places := (-exponent).toNat
    let steps := (places - 1) / largestPower
    some (scaleDown (scaleDownSteps number steps) (places - steps * largestPower))

/-- Reads a numeral as a double; none if it is too large for one. Digits beyond the limit of the
significand count as zeros. -/
def toDouble? (numeral : Numeral) : Option Double :=
  let (significand, wholeLeft) := takeDigits 0 numeral.whole
  let (significand, fractionLeft) := takeDigits significand numeral.fraction
  let places : Int := wholeLeft - ((numeral.fraction.length - fractionLeft : Nat) : Int)
  let exponent := match numeral.exponent with
    | none => places
    | some (negative, digits) =>
        if negative then places - natOfDigits digits else places + natOfDigits digits
  scaled? numeral.negative significand exponent

/-- Reads a numeral; none if it is too large for a double. Integers are kept where 64 bits hold
them; a negative zero is a double. -/
def read? (numeral : Numeral) : Option JsonNumber :=
  if numeral.fraction = [] ∧ numeral.exponent = none then
    let value := natOfDigits numeral.whole
    if numeral.negative then
      if 0 < value ∧ value ≤ Nat.pow 2 63 then some (.negative (Int64.ofInt (-(value : Int))))
      else numeral.toDouble?.map .double
    else if value ≤ significandLimit then some (.natural value)
    else numeral.toDouble?.map .double
  else numeral.toDouble?.map .double

end Numeral

end DocStore

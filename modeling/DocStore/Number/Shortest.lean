import DocStore.Number.Double

/-!
The decimal with the fewest digits that rounds to a given double, nearest to it among those.
All comparisons with the rounding interval are between natural numbers.
-/

namespace DocStore

structure Decimal where
  coefficient : Nat
  exponent : Int
deriving DecidableEq, Repr

namespace Decimal

inductive Tie where
  | even
  | up
deriving DecidableEq, Repr

structure Ratio where
  numerator : Nat
  denominator : Nat
deriving DecidableEq, Repr

namespace Ratio

def timesPowerOfTen (ratio : Ratio) (exponent : Int) : Ratio where
  numerator := ratio.numerator * Nat.pow 10 exponent.toNat
  denominator := ratio.denominator * Nat.pow 10 (-exponent).toNat

def floor (ratio : Ratio) : Nat :=
  ratio.numerator / ratio.denominator

def ceiling (ratio : Ratio) : Nat :=
  (ratio.numerator + ratio.denominator - 1) / ratio.denominator

def inverse (ratio : Ratio) : Ratio :=
  ⟨ratio.denominator, ratio.numerator⟩

/-- The exponent of the leading digit: `e` with `10 ^ e ≤ ratio < 10 ^ (e + 1)`. -/
def leadingExponent (ratio : Ratio) : Int :=
  if ratio.floor ≠ 0 then (Nat.toDigits 10 ratio.floor).length - 1
  else -((Nat.toDigits 10 (ratio.inverse.ceiling - 1)).length : Int)

end Ratio

structure RoundingInterval where
  low : Nat
  center : Nat
  high : Nat
  closed : Bool
  quarter : Ratio

/-- Below a power of two the doubles lie twice as close as above it. Halfway cases go to the
double with the even significand. -/
def RoundingInterval.of (number : Double) : RoundingInterval :=
  let significand := number.significand
  let atPowerOfTwo := number.fractionField = 0 ∧ 1 < number.exponentField
  { low := 4 * significand - (if atPowerOfTwo then 1 else 2)
    center := 4 * significand
    high := 4 * significand + 2
    closed := significand % 2 == 0
    quarter := ⟨Nat.pow 2 number.shift, 4 * Double.unitsPerOne⟩ }

namespace RoundingInterval

def contains (interval : RoundingInterval) (coefficient : Nat) (exponent : Int) : Bool :=
  let quarter := interval.quarter.timesPowerOfTen (-exponent)
  let point := coefficient * quarter.denominator
  let low := interval.low * quarter.numerator
  let high := interval.high * quarter.numerator
  if interval.closed then low ≤ point ∧ point ≤ high else low < point ∧ point < high

def centerOver (interval : RoundingInterval) (exponent : Int) : Ratio :=
  let quarter := interval.quarter.timesPowerOfTen (-exponent)
  ⟨interval.center * quarter.numerator, quarter.denominator⟩

/-- The multiple of `10 ^ exponent` nearest to the double, if it rounds to it. Only the two
neighbours of the double come into question. -/
def nearest? (interval : RoundingInterval) (tie : Tie) (exponent : Int) : Option Nat :=
  let center := interval.centerOver exponent
  let below := center.floor
  let above := below + 1
  match interval.contains below exponent, interval.contains above exponent with
  | false, false => none
  | true, false => some below
  | false, true => some above
  | true, true =>
      let twice := 2 * (center.numerator % center.denominator)
      if twice < center.denominator then some below
      else if center.denominator < twice then some above
      else match tie with
        | .even => some (below + below % 2)
        | .up => some above

/-- Grids of ever finer powers of ten, from the one above the leading digit to that of the
seventeenth digit, where every double has a point. -/
def shortest (interval : RoundingInterval) (tie : Tie) : Decimal :=
  let leading := (interval.centerOver 0).leadingExponent
  let grids := (List.range 18).map fun step : Nat => leading + 1 - (step : Int)
  let found := grids.findSome? fun exponent =>
    (interval.nearest? tie exponent).map fun coefficient => ⟨coefficient, exponent⟩
  found.getD ⟨(interval.centerOver (leading - 16)).floor, leading - 16⟩

end RoundingInterval

def shortest (tie : Tie) (number : Double) : Decimal :=
  if number.magnitude = 0 then ⟨0, 0⟩ else (RoundingInterval.of number).shortest tie

end Decimal

end DocStore

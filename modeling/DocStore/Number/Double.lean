/-!
Binary64 numbers, given by their bits and compared exactly.
Every finite number is a whole multiple of `2 ^ -1074`, so an exact comparison is one of integers.
-/

namespace DocStore

structure Double where
  bits : UInt64
deriving DecidableEq, Repr, Inhabited

namespace Double

/-! ## The parts of a number -/

def negative (number : Double) : Bool :=
  Nat.pow 2 63 ≤ number.bits.toNat

def exponentField (number : Double) : Nat :=
  number.bits.toNat / Nat.pow 2 52 % 2048

def fractionField (number : Double) : Nat :=
  number.bits.toNat % Nat.pow 2 52

def isNaN (number : Double) : Bool :=
  number.exponentField == 2047 && number.fractionField != 0

def isInfinite (number : Double) : Bool :=
  number.exponentField == 2047 && number.fractionField == 0

def significand (number : Double) : Nat :=
  if number.exponentField = 0 then number.fractionField else Nat.pow 2 52 + number.fractionField

/-- The number is `± significand * 2 ^ shift` units of `2 ^ -1074`; the subnormal numbers share
the shift of the smallest normal ones. -/
def shift (number : Double) : Nat :=
  number.exponentField - 1

def magnitude (number : Double) : Nat :=
  number.significand * Nat.pow 2 number.shift

/-- The number in units of `2 ^ -1074`. An infinity stands at `± 2 ^ 1024`, beyond every finite
number. -/
def units (number : Double) : Int :=
  if number.negative then -(number.magnitude : Int) else number.magnitude

def unitsPerOne : Nat :=
  Nat.pow 2 1074

/-! ## Comparison -/

def compare? (left right : Double) : Option Ordering :=
  if left.isNaN || right.isNaN then none else some (compare left.units right.units)

def equals (left right : Double) : Bool :=
  left.compare? right == some .eq

def whole (number : Double) : Int :=
  number.units.tdiv unitsPerOne

def remainder (number : Double) : Int :=
  number.units.tmod unitsPerOne

def toInt64? (number : Double) : Option Int64 :=
  if number.isNaN then none
  else if Int64.minValue.toInt ≤ number.whole ∧ number.whole ≤ Int64.maxValue.toInt then
    some (Int64.ofInt number.whole)
  else none

/-- The order of an integer and a number, without rounding either; none for a NaN.
A number whose whole part is no 64-bit integer lies beyond all of them. -/
def compareInt? (number : Double) (integer : Int64) : Option Ordering :=
  if number.isNaN then none
  else match number.toInt64? with
    | none => some (if number.negative then .gt else .lt)
    | some whole =>
        some ((compare integer.toInt whole.toInt).then (compare 0 number.remainder))

/-! ## Rounding -/

def roundHalfEven (numerator denominator : Nat) : Nat :=
  let floor := numerator / denominator
  let twice := 2 * (numerator % denominator)
  if twice < denominator then floor
  else if denominator < twice then floor + 1
  else floor + floor % 2

/-- The bits of an infinity. They are one above those of the largest finite number. -/
def infinityBits : Nat :=
  2047 * Nat.pow 2 52

def ofMagnitudeBits (negative : Bool) (bits : Nat) : Double :=
  ⟨UInt64.ofNat (if negative then Nat.pow 2 63 + bits else bits)⟩

def infinity (negative : Bool) : Double :=
  ofMagnitudeBits negative infinityBits

def nan : Double :=
  ofMagnitudeBits false (infinityBits + Nat.pow 2 51)

def zero (negative : Bool) : Double :=
  ofMagnitudeBits negative 0

/-- The number nearest to a quotient of naturals. The shift is the least that leaves at most 53
bits; a carry into a 54th bit and an overflow to infinity come out of the addition. -/
def ofQuotient (negative : Bool) (numerator denominator : Nat) : Double :=
  let scaled := numerator * unitsPerOne
  let shift := (scaled / denominator).log2 + 1 - 53
  let bits := shift * Nat.pow 2 52 + roundHalfEven scaled (denominator * Nat.pow 2 shift)
  ofMagnitudeBits negative (min bits infinityBits)

end Double

end DocStore

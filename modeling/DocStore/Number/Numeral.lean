import DocStore.Number.Shortest

/-!
Numbers as they are written, and the layouts in which doubles are written.
-/

namespace DocStore

/-- A written number: its sign, the digits before and after the point, and a power of ten. -/
structure Numeral where
  negative : Bool := false
  whole : List Char
  fraction : List Char := []
  exponent : Option (Bool × List Char) := none
deriving DecidableEq, Repr

namespace Numeral

def chars (numeral : Numeral) : List Char :=
  (if numeral.negative then ['-'] else []) ++ numeral.whole ++
    (if numeral.fraction = [] then [] else '.' :: numeral.fraction) ++
    match numeral.exponent with
    | none => []
    | some (negative, digits) => 'e' :: (if negative then '-' else '+') :: digits

def text (numeral : Numeral) : String :=
  String.ofList numeral.chars

def digitsOfNat (number : Nat) : List Char :=
  Nat.toDigits 10 number

def ofInt (number : Int) : Numeral where
  negative := number < 0
  whole := digitsOfNat number.natAbs

/-- A finite double as a decimal layout writes it. -/
structure Layout where
  tie : Decimal.Tie
  isPositional : Int → Bool
  wholeFraction : List Char

def padLeft (width : Nat) (digits : List Char) : List Char :=
  List.replicate (width - digits.length) '0' ++ digits

def positional (layout : Layout) (negative : Bool) (decimal : Decimal) : Numeral :=
  let digits := digitsOfNat decimal.coefficient
  if 0 ≤ decimal.exponent then
    { negative
      whole := digits ++ List.replicate decimal.exponent.toNat '0'
      fraction := layout.wholeFraction }
  else
    let places := (-decimal.exponent).toNat
    let padded := padLeft (places + 1) digits
    { negative
      whole := padded.take (padded.length - places)
      fraction := padded.drop (padded.length - places) }

def scientific (negative : Bool) (decimal : Decimal) : Numeral :=
  let digits := digitsOfNat decimal.coefficient
  let exponent := decimal.exponent + digits.length - 1
  { negative
    whole := digits.take 1
    fraction := digits.drop 1
    exponent := some (exponent < 0, digitsOfNat exponent.natAbs) }

def ofDouble (layout : Layout) (number : Double) : Numeral :=
  let decimal := Decimal.shortest layout.tie number
  let leading := decimal.exponent + (digitsOfNat decimal.coefficient).length - 1
  if layout.isPositional leading then positional layout number.negative decimal
  else scientific number.negative decimal

end Numeral

end DocStore

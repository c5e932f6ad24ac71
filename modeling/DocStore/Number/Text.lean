import DocStore.Number.Reading

/-!
Numbers read from text of their own: integers and doubles with an optional sign.
-/

namespace DocStore.NumberText

def splitSign : List Char → Bool × List Char
  | '-' :: rest => (true, rest)
  | '+' :: rest => (false, rest)
  | rest => (false, rest)

def natural? (digits : List Char) : Option Nat :=
  if digits ≠ [] ∧ digits.all Char.isDigit then some (Numeral.natOfDigits digits) else none

def integer? (text : String) : Option Int := do
  let (negative, digits) := splitSign text.toList
  let magnitude ← natural? digits
  return if negative then -(magnitude : Int) else magnitude

def int32? (text : String) : Option Int32 := do
  let value ← integer? text
  if Int32.minValue.toInt ≤ value ∧ value ≤ Int32.maxValue.toInt then some (Int32.ofInt value)
  else none

def int64? (text : String) : Option Int64 := do
  let value ← integer? text
  if Int64.minValue.toInt ≤ value ∧ value ≤ Int64.maxValue.toInt then some (Int64.ofInt value)
  else none

def exponent? : List Char → Option Int
  | [] => some 0
  | mark :: rest => do
      guard (mark = 'e' ∨ mark = 'E')
      let (negative, digits) := splitSign rest
      let magnitude ← natural? digits
      return if negative then -(magnitude : Int) else magnitude

/-- A decimal: digits with a point anywhere among them, and perhaps a power of ten. -/
def decimal? (text : List Char) : Option Decimal := do
  let whole := text.takeWhile Char.isDigit
  let rest := text.dropWhile Char.isDigit
  let (fraction, rest) : List Char × List Char :=
    match rest with
    | '.' :: rest => (rest.takeWhile Char.isDigit, rest.dropWhile Char.isDigit)
    | rest => ([], rest)
  let coefficient ← natural? (whole ++ fraction)
  let exponent ← exponent? rest
  return ⟨coefficient, exponent - (fraction.length : Int)⟩

def double? (text : String) : Option Double :=
  let (negative, rest) := splitSign text.toList
  let name := String.ofList (rest.map Char.toLower)
  if name = "infinity" ∨ name = "inf" then some (Double.infinity negative)
  else if name = "nan" then some Double.nan
  else (decimal? rest).map (Decimal.toDouble negative)

end DocStore.NumberText

import DocStore.Number.Numeral

/-!
128-bit decimal numbers, whose coefficient is a binary integer: their bits and their text.
-/

namespace DocStore.Decimal128

inductive Content where
  | nan (negative signalling : Bool)
  | infinite (negative : Bool)
  | finite (negative : Bool) (decimal : Decimal)
deriving DecidableEq, Repr

/-! ## Bits -/

def precision : Nat := 34

/-- The largest coefficient; a larger one counts as zero. -/
def coefficientLimit : Nat := Nat.pow 10 precision - 1

def leastExponent : Int := -6176

def greatestExponent : Int := 6111

def ofBits (bits : Nat) : Content :=
  let negative := Nat.pow 2 127 ≤ bits
  let combination := bits / Nat.pow 2 122 % 32
  if combination = 31 then .nan negative (bits / Nat.pow 2 121 % 2 = 1)
  else if combination = 30 then .infinite negative
  else if 24 ≤ combination then
    -- The exponent lies two bits further down, and the coefficient is always too large.
    .finite negative ⟨0, (bits / Nat.pow 2 111 % 16384 : Nat) + leastExponent⟩
  else
    let coefficient := bits % Nat.pow 2 113
    .finite negative
      ⟨if coefficientLimit < coefficient then 0 else coefficient,
        (bits / Nat.pow 2 113 % 16384 : Nat) + leastExponent⟩

def signBits (negative : Bool) : Nat :=
  if negative then Nat.pow 2 127 else 0

def Content.toBits : Content → Nat
  | .nan negative signalling =>
      signBits negative + 31 * Nat.pow 2 122 + if signalling then Nat.pow 2 121 else 0
  | .infinite negative => signBits negative + 30 * Nat.pow 2 122
  | .finite negative decimal =>
      signBits negative + (decimal.exponent - leastExponent).toNat * Nat.pow 2 113 +
        decimal.coefficient

def bitsOfBytes : List UInt8 → Nat
  | [] => 0
  | byte :: bytes => byte.toNat + 256 * bitsOfBytes bytes

def ofBytes (bytes : Vector UInt8 16) : Content :=
  ofBits (bitsOfBytes bytes.toList)

def Content.toBytes (content : Content) : Vector UInt8 16 :=
  Vector.ofFn fun place => UInt8.ofNat (content.toBits / Nat.pow 256 place)

/-! ## Text -/

/-- All digits are kept. An exponent is written for whole numbers that end in implied zeros and
for numbers below a millionth. -/
def finiteText (decimal : Decimal) : String :=
  let digits := Numeral.digitsOfNat decimal.coefficient
  let leading := decimal.exponent + digits.length - 1
  if decimal.exponent ≤ 0 ∧ -6 ≤ leading then
    let places := (-decimal.exponent).toNat
    let padded := Numeral.padLeft (places + 1) digits
    let (whole, fraction) := padded.splitAt (padded.length - places)
    String.ofList (whole ++ if fraction = [] then [] else '.' :: fraction)
  else
    String.ofList (digits.take 1 ++ if digits.length = 1 then [] else '.' :: digits.drop 1) ++
      "E" ++ (if 0 < leading then "+" else "") ++ toString leading

/-- The text does not tell one NaN from another. -/
def Content.text : Content → String
  | .nan _ _ => "NaN"
  | .infinite negative => if negative then "-Infinity" else "Infinity"
  | .finite negative decimal => (if negative then "-" else "") ++ finiteText decimal

end DocStore.Decimal128

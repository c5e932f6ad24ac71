import DocStore.Number.Decimal128
import DocStore.Number.Text

/-!
128-bit decimal numbers read from text. Text is only read if the number can be kept exactly, with
all its digits as far as the precision goes.
-/

namespace DocStore.Decimal128

structure Draft where
  places : List Char
  exponent : Int
deriving DecidableEq, Repr

namespace Draft

variable (draft : Draft)

def isZero : Bool :=
  draft.places == ['0']

def drop? (count : Nat) : Option Draft :=
  let kept := draft.places.length - count
  if count ≤ draft.places.length ∧ (draft.places.drop kept).all (· == '0') then
    some ⟨draft.places.take kept, draft.exponent + count⟩
  else none

def shorten? : Option Draft :=
  draft.drop? (draft.places.length - precision)

def raise? : Option Draft :=
  if leastExponent ≤ draft.exponent then some draft
  else if draft.isZero then some { draft with exponent := leastExponent }
  else draft.drop? (leastExponent - draft.exponent).toNat

def lower? : Option Draft :=
  let count := (draft.exponent - greatestExponent).toNat
  if draft.exponent ≤ greatestExponent then some draft
  else if draft.isZero then some { draft with exponent := greatestExponent }
  else if precision < draft.places.length + count then none
  else some ⟨draft.places ++ List.replicate count '0', greatestExponent⟩

end Draft

def coefficient? : List Char → Option Nat
  | '+' :: digits => NumberText.natural? digits
  | digits => NumberText.natural? digits

def splitAtFirst (mark : Char) (text : List Char) : List Char × Option (List Char) :=
  match text.dropWhile (· != mark) with
  | [] => (text, none)
  | _ :: rest => (text.takeWhile (· != mark), some rest)

/-- The places on both sides of the point, without zeros in front; no places at all stand for a
zero. -/
def placesOf (whole fraction : List Char) : List Char :=
  match (whole ++ fraction).dropWhile (· == '0') with
  | [] => ['0']
  | places => places

/-- The exponents that are read, before they are brought between the least and the greatest one. -/
def isReadable (exponent : Int) : Bool :=
  -(Nat.pow 2 127 : Int) ≤ exponent ∧ exponent < (Nat.pow 2 127 : Int)

def exponent? (places : Nat) (text : Option (List Char)) : Option Int := do
  let exponent ← match text with
    | some text => NumberText.integer? (String.ofList text)
    | none => some 0
  let shifted := exponent - (places : Int)
  if isReadable exponent ∧ isReadable shifted then some shifted else none

def decimal? (text : List Char) : Option Decimal := do
  let (digits, exponent) := splitAtFirst 'e' text
  let (whole, fraction) := splitAtFirst '.' digits
  let fraction := fraction.getD []
  let draft : Draft := ⟨placesOf whole fraction, ← exponent? fraction.length exponent⟩
  let draft ← (← (← draft.shorten?).raise?).lower?
  return ⟨← coefficient? draft.places, draft.exponent⟩

def ofText? (text : String) : Option Content :=
  let (negative, rest) := NumberText.splitSign text.toList
  let rest := rest.map Char.toLower
  let name := String.ofList rest
  if name = "nan" then some (.nan negative false)
  else if name = "snan" then some (.nan negative true)
  else if name = "infinity" ∨ name = "inf" then some (.infinite negative)
  else (decimal? rest).map (.finite negative)

end DocStore.Decimal128

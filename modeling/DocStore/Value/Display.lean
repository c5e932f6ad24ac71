import DocStore.Value.Basic
import DocStore.Calendar
import DocStore.Number.Decimal128
import DocStore.Text.Base64
import DocStore.Text.Hex

/-!
Values as messages show them. Keys and strings stand as they are, without escapes.
-/

namespace DocStore

/-- Doubles in messages are written without an exponent, and whole ones without a point. -/
def displayLayout : Numeral.Layout where
  tie := .up
  isPositional := fun _ => true
  wholeFraction := []

def Double.display (number : Double) : String :=
  if number.isNaN then "NaN"
  else if number.isInfinite then if number.negative then "-inf" else "inf"
  else (Numeral.ofDouble displayLayout number).text

namespace Value

def subtypeText (subtype : UInt8) : String :=
  "0x" ++ String.ofList (Nat.toDigits 16 subtype.toNat)

mutual

def display : Value → String
  | .null => "null"
  | .bool value => if value then "true" else "false"
  | .int32 value => toString value.toInt
  | .int64 value => toString value.toInt
  | .double value => value.display
  | .string text => "\"" ++ text ++ "\""
  | .array items => "[" ++ ", ".intercalate (displayItems items) ++ "]"
  | .document fields =>
      match displayEntries fields with
      | [] => "\x7b\x7d"
      | entries => "\x7b " ++ ", ".intercalate entries ++ " \x7d"
  | .dateTime millis => "DateTime(\"" ++ Calendar.display millis ++ "\")"
  | .objectId bytes => "ObjectId(\"" ++ String.ofList (Hex.encode bytes.toList) ++ "\")"
  | .binary subtype bytes =>
      "Binary(" ++ subtypeText subtype ++ ", " ++ String.ofList (Base64.encode bytes) ++ ")"
  | .timestamp time increment =>
      "Timestamp(" ++ toString time.toNat ++ ", " ++ toString increment.toNat ++ ")"
  | .regex pattern options => "/" ++ pattern ++ "/" ++ options
  | .symbol text => "Symbol(\"" ++ text ++ "\")"
  | .code source => source
  | .scopedCode source _ => source
  | .decimal128 bytes => (Decimal128.ofBytes bytes).text
  | .pointer list id =>
      "DBPointer(" ++ list ++ ", " ++ String.ofList (Hex.encode id.toList) ++ ")"
  | .undefined => "undefined"
  | .minKey => "MinKey"
  | .maxKey => "MaxKey"
termination_by structural value => value

def displayItems : List Value → List String
  | [] => []
  | item :: items => display item :: displayItems items
termination_by structural items => items

def displayEntries : List (String × Value) → List String
  | [] => []
  | (key, value) :: fields => ("\"" ++ key ++ "\": " ++ display value) :: displayEntries fields
termination_by structural fields => fields

end

end Value

def Document.display (document : Document) : String :=
  (Value.document document).display

end DocStore

import DocStore.Json.Basic
import DocStore.Number.Decimal128
import DocStore.Text.Base64
import DocStore.Text.Hex
import DocStore.Value.Basic

/-!
Values as JSON. Types that JSON lacks become objects with one tagging key, apart from plain binary
data, which becomes an array of numbers, and doubles that are no numbers, which become null.
-/

namespace DocStore.Value

def tagged (tag : String) (content : Json) : Json :=
  .object [(tag, content)]

def byteNumbers (bytes : List UInt8) : Json :=
  .array (bytes.map fun byte => Json.ofNat byte.toNat)

def encodeDouble (value : Double) : Json :=
  if value.isNaN || value.isInfinite then .null else .number (.double value)

def encodeObjectId (bytes : Vector UInt8 12) : Json :=
  tagged "$oid" (.string (String.ofList (Hex.encode bytes.toList)))

def encodeBinary (subtype : UInt8) (bytes : List UInt8) : Json :=
  if subtype = 0 then byteNumbers bytes
  else
    tagged "$binary" (.object
      [("base64", .string (String.ofList (Base64.encode bytes))),
        ("subType", .string (String.ofList (Hex.encodeByte subtype)))])

mutual

def encode : Value → Json
  | .null => .null
  | .bool value => .bool value
  | .int32 value => Json.ofInt value.toInt
  | .int64 value => Json.ofInt value.toInt
  | .double value => encodeDouble value
  | .string text => .string text
  | .array items => .array (encodeItems items)
  | .document fields => .object (encodeFields fields)
  | .dateTime millis => tagged "$date" (tagged "$numberLong" (.string (toString millis.toInt)))
  | .objectId bytes => encodeObjectId bytes
  | .binary subtype bytes => encodeBinary subtype bytes
  | .timestamp time increment =>
      tagged "$timestamp" (.object
        [("t", Json.ofNat time.toNat), ("i", Json.ofNat increment.toNat)])
  | .regex pattern options =>
      tagged "$regularExpression" (.object
        [("pattern", .string pattern), ("options", .string options)])
  | .symbol text => tagged "$symbol" (.string text)
  | .code source => tagged "$code" (.string source)
  | .scopedCode source scope =>
      .object [("$code", .string source), ("$scope", .object (encodeFields scope))]
  | .decimal128 bytes => tagged "$numberDecimal" (.string (Decimal128.ofBytes bytes).text)
  | .pointer list id =>
      tagged "$dbPointer" (.object [("$ref", .string list), ("$id", encodeObjectId id)])
  | .undefined => tagged "$undefined" (.bool true)
  | .minKey => tagged "$minKey" (Json.ofNat 1)
  | .maxKey => tagged "$maxKey" (Json.ofNat 1)
termination_by structural value => value

def encodeItems : List Value → List Json
  | [] => []
  | item :: items => encode item :: encodeItems items
termination_by structural items => items

def encodeFields : List (String × Value) → List (String × Json)
  | [] => []
  | (key, value) :: fields => (key, encode value) :: encodeFields fields
termination_by structural fields => fields

end

end DocStore.Value

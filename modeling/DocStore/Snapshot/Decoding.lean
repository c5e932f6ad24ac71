import DocStore.Json.Record
import DocStore.Text.Uuid
import DocStore.Value.Tagged

/-!
Values read from JSON. The first tagging key of an object decides what the whole object is.
-/

namespace DocStore.Value

/-- A number of JSON text. Non-negative integers take the narrowest type. -/
def ofJsonNumber? : JsonNumber → Option Value
  | .natural value =>
      if value < Nat.pow 2 31 then some (.int32 (Int32.ofNat value))
      else if value < Nat.pow 2 63 then some (.int64 (Int64.ofNat value))
      else none
  | .negative value => some (.int64 value)
  | .double value => some (.double value)

/-! ## Tagged values -/

def dateTime? : Json → Option Value
  | .string text => (Calendar.ofRfc3339? text).map .dateTime
  | .number (.natural value) =>
      if value < Nat.pow 2 63 then some (.dateTime (Int64.ofNat value)) else none
  | .number (.negative value) => some (.dateTime value)
  | content => do
      let record ← content.record? ["$numberLong"] .refused
      let millis ← (← record "$numberLong").text?
      return .dateTime (← NumberText.int64? millis)

def timestamp? (content : Json) : Option Value := do
  let record ← content.record? ["t", "i"] .refused
  let time ← (← record "t").natWithin? (Nat.pow 2 32 - 1)
  let increment ← (← record "i").natWithin? (Nat.pow 2 32 - 1)
  return .timestamp (UInt32.ofNat time) (UInt32.ofNat increment)

def regex? (content : Json) : Option Value := do
  let record ← content.record? ["pattern", "options"] .refused
  regexOfText? (← (← record "pattern").text?) (← (← record "options").text?)

def binary? (content : Json) : Option Value := do
  let record ← content.record? ["base64", "subType"] .refused
  binaryOfText? (← (← record "base64").text?) (← (← record "subType").text?)

def uuidSubtype : UInt8 := 4

def uuid? (content : Json) : Option Value := do
  return .binary uuidSubtype (← Uuid.decode? (← content.text?).toList)

def pointer? (content : Json) : Option Value := do
  let record ← content.record? ["$ref", "$id"] .refused
  let list ← (← record "$ref").text?
  let id ← (← record "$id").record? ["$oid"] .refused
  return .pointer list (← objectIdOfText? (← (← id "$oid").text?))

def decimal128? : Json → Option Value
  | .array items => do
      let bytes ← items.mapM fun item => (item.natWithin? 255).map UInt8.ofNat
      return .decimal128 (← vector? 16 bytes)
  | .string text => do return .decimal128 (← vector? 16 text.toUTF8.toList)
  | .bytes bytes _ => do return .decimal128 (← vector? 16 bytes)
  | _ => none

def tag? (key : String) : Option (Json → Option Value) :=
  match textTag? key with
  | some read => some fun content => content.text?.bind read
  | none =>
      match key with
      | "$numberDecimalBytes" => some decimal128?
      | "$binary" => some binary?
      | "$uuid" => some uuid?
      | "$timestamp" => some timestamp?
      | "$regularExpression" => some regex?
      | "$dbPointer" => some pointer?
      | "$date" => some dateTime?
      | "$undefined" => some fun
          | .bool true => some .undefined
          | _ => none
      | "$minKey" => some fun content =>
          if content.natWithin? 255 = some 1 then some .minKey else none
      | "$maxKey" => some fun content =>
          if content.natWithin? 255 = some 1 then some .maxKey else none
      | _ => none

/-! ## All values -/

mutual

def decode? : Json → Option Value
  | .null => some .null
  | .bool value => some (.bool value)
  | .number value => ofJsonNumber? value
  | .string text => some (.string text)
  | .array items => (decodeItems? items).map .array
  | .object members => decodeMembers? [] members
  | .bytes _ _ | .unreadable _ => none
termination_by structural value => value

def decodeItems? : List Json → Option (List Value)
  | [] => some []
  | item :: items =>
      match decode? item, decodeItems? items with
      | some item, some items => some (item :: items)
      | _, _ => none
termination_by structural items => items

/-- Reads the remaining members of an object. A tag drops the plain fields before it and must be
the last member, except that code and scope may follow each other. -/
def decodeMembers? (before : Document) : List (String × Json) → Option Value
  | [] => some (.document before)
  | (key, content) :: rest =>
      if key = "$code" then
        match content.text?, rest with
        | some source, [] => some (.code source)
        | some source, [(second, scope)] =>
            match second == "$scope", decode? scope with
            | true, some (.document scope) => some (.scopedCode source scope)
            | _, _ => none
        | _, _ => none
      else if key = "$scope" then
        match decode? content, rest with
        | some (.document scope), [(second, source)] =>
            if second = "$code" then source.text?.map (.scopedCode · scope) else none
        | _, _ => none
      else
        match tag? key with
        | some read => if rest.isEmpty then read content else none
        | none =>
            match decode? content with
            | some value => decodeMembers? (before.insert key value) rest
            | none => none
termination_by structural members => members

end

end DocStore.Value

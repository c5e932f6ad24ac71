import DocStore.Calendar
import DocStore.Number.DecimalReading
import DocStore.Text.Base64
import DocStore.Text.Hex
import DocStore.Value.Basic

/-!
Values under tags. A document with a tag for its only key stands for a value of the type that the
tag names, if what is under the tag fits that type.
-/

namespace DocStore.Value

/-! ## Values from text -/

def vector? {α : Type} (count : Nat) (bytes : List α) : Option (Vector α count) :=
  if size_eq : bytes.toArray.size = count then some ⟨bytes.toArray, size_eq⟩ else none

def objectIdOfText? (text : String) : Option (Vector UInt8 12) := do
  vector? 12 (← Hex.decode? text.toList)

def binaryOfText? (base64 subtype : String) : Option Value := do
  let bytes ← Base64.decode? base64.toList
  match ← Hex.decode? subtype.toList with
  | [subtype] => some (.binary subtype bytes)
  | _ => none

def sortedOptions (options : String) : String :=
  String.ofList (options.toList.mergeSort fun left right => left ≤ right)

/-- A regular expression, without null characters; its options are put in order. -/
def regexOfText? (pattern options : String) : Option Value := do
  guard (!pattern.toList.contains '\x00' ∧ !options.toList.contains '\x00')
  return .regex pattern (sortedOptions options)

def textTag? (tag : String) : Option (String → Option Value) :=
  match tag with
  | "$oid" => some fun text => (objectIdOfText? text).map .objectId
  | "$symbol" => some fun text => some (.symbol text)
  | "$numberInt" => some fun text => (NumberText.int32? text).map .int32
  | "$numberLong" => some fun text => (NumberText.int64? text).map .int64
  | "$numberDouble" => some fun text => (NumberText.double? text).map .double
  | "$numberDecimal" => some fun text =>
      (Decimal128.ofText? text).map fun content => .decimal128 content.toBytes
  | _ => none

/-! ## Values from documents -/

def text? : Value → Option String
  | .string text => some text
  | _ => none

def plainBytes? : Value → Option (List UInt8)
  | .binary subtype bytes => if subtype = 0 then some bytes else none
  | _ => none

def isOne : Value → Bool
  | .int32 value => value == 1
  | .int64 value => value == 1
  | _ => false

def dateTimeOf? : Value → Option Value
  | .int64 millis => some (.dateTime millis)
  | .string text => (Calendar.ofRfc3339? text).map .dateTime
  | _ => none

/-- The data as text or as bytes, each with a subtype of the same kind. -/
def binaryOf? (content : Value) : Option Value := do
  let fields ← content.document?
  match fields.get? "base64" with
  | some (.string base64) =>
      binaryOfText? base64 (← (← fields.get? "subType").text?)
  | _ =>
      let bytes ← (← fields.get? "bytes").plainBytes?
      match fields.get? "subType" with
      | some (.int32 subtype) =>
          if 0 ≤ subtype ∧ subtype < 256 then
            some (.binary (UInt8.ofNat subtype.toNatClampNeg) bytes)
          else none
      | _ => none

/-- Time and increment in integers of one type. Those of 32 bits count as unsigned. -/
def timestampOf? (content : Value) : Option Value := do
  let fields ← content.document?
  match fields.get? "t", fields.get? "i" with
  | some (.int32 time), some (.int32 increment) =>
      some (.timestamp time.toUInt32 increment.toUInt32)
  | some (.int64 time), some (.int64 increment) =>
      let limit := Nat.pow 2 32
      if 0 ≤ time ∧ time.toInt < limit ∧ 0 ≤ increment ∧ increment.toInt < limit then
        some (.timestamp time.toUInt64.toUInt32 increment.toUInt64.toUInt32)
      else none
  | _, _ => none

def regexOf? (content : Value) : Option Value := do
  let fields ← content.document?
  regexOfText? (← (← fields.get? "pattern").text?) (← (← fields.get? "options").text?)

def pointerOf? (content : Value) : Option Value := do
  let fields ← content.document?
  match fields.get? "$ref", fields.get? "$id" with
  | some (.string list), some (.objectId id) => some (.pointer list id)
  | _, _ => none

def ofTag? (tag : String) (content : Value) : Option Value :=
  match textTag? tag with
  | some read => content.text?.bind read
  | none =>
      match tag with
      | "$numberDecimalBytes" => do
          return .decimal128 (← vector? 16 (← content.plainBytes?))
      | "$binary" => content.binaryOf?
      | "$code" => content.text?.map .code
      | "$timestamp" => content.timestampOf?
      | "$regularExpression" => content.regexOf?
      | "$dbPointer" => content.pointerOf?
      | "$date" => content.dateTimeOf?
      | "$minKey" => if content.isOne then some .minKey else none
      | "$maxKey" => if content.isOne then some .maxKey else none
      | "$undefined" => match content with
          | .bool true => some .undefined
          | _ => none
      | _ => none

def scopedCodeOf? (source scope : Value) : Option Value :=
  match source, scope with
  | .string source, .document scope => some (.scopedCode source scope)
  | _, _ => none

def ofTagged? : Document → Option Value
  | [(tag, content)] => ofTag? tag content
  | [("$code", source), ("$scope", scope)] => scopedCodeOf? source scope
  | [("$scope", scope), ("$code", source)] => scopedCodeOf? source scope
  | _ => none

def ofFields (fields : Document) : Value :=
  (ofTagged? fields).getD (.document fields)

/-! ## All values -/

def canonicalDecimal (bytes : Vector UInt8 16) : Vector UInt8 16 :=
  match Decimal128.ofBytes bytes with
  | .nan _ _ => (Decimal128.Content.nan false false).toBytes
  | content => content.toBytes

mutual

/-- Replaces the documents that stand for a value, from the inside outwards. The other values are
brought into their usual form. -/
def untagged : Value → Value
  | .array items => .array (untaggedItems items)
  | .document fields => ofFields (untaggedFields fields)
  | .scopedCode source scope =>
      ofFields [("$code", .string source), ("$scope", ofFields (untaggedFields scope))]
  | .regex pattern options => .regex pattern (sortedOptions options)
  | .decimal128 bytes => .decimal128 (canonicalDecimal bytes)
  | leaf => leaf
termination_by structural value => value

def untaggedItems : List Value → List Value
  | [] => []
  | item :: items => untagged item :: untaggedItems items
termination_by structural items => items

def untaggedFields : List (String × Value) → List (String × Value)
  | [] => []
  | (key, value) :: fields => (key, untagged value) :: untaggedFields fields
termination_by structural fields => fields

end

end DocStore.Value

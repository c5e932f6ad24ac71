import DocStore.Fields
import DocStore.Number.Basic

/-!
Values and documents.
-/

namespace DocStore

inductive Value where
  | null
  | bool (value : Bool)
  | int32 (value : Int32)
  | int64 (value : Int64)
  | double (value : Double)
  | string (text : String)
  | array (items : List Value)
  | document (fields : List (String × Value))
  /-- Milliseconds since the start of 1970 in UTC. -/
  | dateTime (millis : Int64)
  | objectId (bytes : Vector UInt8 12)
  | binary (subtype : UInt8) (bytes : List UInt8)
  | timestamp (time increment : UInt32)
  | regex (pattern options : String)
  | symbol (text : String)
  | code (source : String)
  | scopedCode (source : String) (scope : List (String × Value))
  /-- The sixteen bytes of a decimal number, least significant first. -/
  | decimal128 (bytes : Vector UInt8 16)
  | pointer (list : String) (id : Vector UInt8 12)
  | undefined
  | minKey
  | maxKey
deriving Inhabited

abbrev Document := Fields Value

namespace Document

variable (document : Document)

/-! ## Identity -/

def idKey : String := "id"

def id? : Option Value :=
  match document.get? idKey with
  | none | some .null => none
  | some id => some id

/-- The document with an identifier. A new one is put in front. -/
def withId (fresh : String) : Document :=
  match document.id? with
  | some _ => document
  | none => (idKey, .string fresh) :: document.erase idKey

def foreignKey (list : String) : String :=
  list ++ "_" ++ idKey

end Document

namespace Value

def document? : Value → Option Document
  | .document fields => some fields
  | _ => none

def number? : Value → Option Number
  | .int32 value => some (.integer value.toInt64)
  | .int64 value => some (.integer value)
  | .double value => some (.double value)
  | _ => none

def typeName : Value → String
  | .null => "Null"
  | .bool _ => "Boolean"
  | .int32 _ => "Int32"
  | .int64 _ => "Int64"
  | .double _ => "Double"
  | .string _ => "String"
  | .array _ => "Array"
  | .document _ => "EmbeddedDocument"
  | .dateTime _ => "DateTime"
  | .objectId _ => "ObjectId"
  | .binary _ _ => "Binary"
  | .timestamp _ _ => "Timestamp"
  | .regex _ _ => "RegularExpression"
  | .symbol _ => "Symbol"
  | .code _ => "JavaScriptCode"
  | .scopedCode _ _ => "JavaScriptCodeWithScope"
  | .decimal128 _ => "Decimal128"
  | .pointer _ _ => "DbPointer"
  | .undefined => "Undefined"
  | .minKey => "MinKey"
  | .maxKey => "MaxKey"

end Value

end DocStore

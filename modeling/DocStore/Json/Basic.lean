import DocStore.Number.Reading

/-!
JSON values. The members of an object stand in order and may repeat a key.
-/

namespace DocStore

inductive Json where
  | null
  | bool (value : Bool)
  | number (value : JsonNumber)
  | string (text : String)
  /-- The bytes of a string that is no text. It holds half of a surrogate pair, or control
  characters that stand bare, without an escape. -/
  | bytes (bytes : List UInt8) (bare : Bool)
  | array (items : List Json)
  | object (members : List (String × Json))
  /-- What stands for no value, such as a number too large for a double, and whether there are bare
  control characters in it. -/
  | unreadable (bare : Bool)
deriving Inhabited

namespace Json

/-! ## Values that are not read -/

mutual

/-- Whether a value is well formed, so that it may stand where nothing is read. -/
def isSkippable : Json → Bool
  | .bytes _ bare => !bare
  | .array items => areItemsSkippable items
  | .object members => areMembersSkippable members
  | .unreadable bare => !bare
  | _ => true
termination_by structural json => json

def areItemsSkippable : List Json → Bool
  | [] => true
  | item :: items => isSkippable item && areItemsSkippable items
termination_by structural items => items

def areMembersSkippable : List (String × Json) → Bool
  | [] => true
  | (_, value) :: members => isSkippable value && areMembersSkippable members
termination_by structural members => members

end

/-! ## Simple values -/

def text? : Json → Option String
  | .string text => some text
  | _ => none

def ofNat (number : Nat) : Json :=
  .number (.natural number)

def ofInt (number : Int) : Json :=
  .number (if 0 ≤ number then .natural number.toNat else .negative (Int64.ofInt number))

def natWithin? (limit : Nat) : Json → Option Nat
  | .number (.natural value) => if value ≤ limit then some value else none
  | _ => none

end Json

end DocStore

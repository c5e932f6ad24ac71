import DocStore.Fields
import DocStore.Json.Basic

/-!
JSON values in which no object repeats a key.
-/

namespace DocStore.Json

mutual

/-- Keeps of each key in an object the last member. A value with an unreadable part has no such
form. -/
def distinct? : Json → Option Json
  | .array items => (distinctItems? items).map .array
  | .object members => (distinctMembers? [] members).map .object
  | .bytes _ _ | .unreadable _ => none
  | scalar => some scalar
termination_by structural json => json

def distinctItems? : List Json → Option (List Json)
  | [] => some []
  | item :: items =>
      match distinct? item, distinctItems? items with
      | some item, some items => some (item :: items)
      | _, _ => none
termination_by structural items => items

def distinctMembers? (before : Fields Json) : List (String × Json) → Option (Fields Json)
  | [] => some before
  | (key, value) :: members =>
      match distinct? value with
      | some value => distinctMembers? (before.insert key value) members
      | none => none
termination_by structural members => members

end

end DocStore.Json

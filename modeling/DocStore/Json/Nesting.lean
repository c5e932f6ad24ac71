import DocStore.Json.Parser

/-!
The limit on how deeply the containers of JSON text nest. A container below the limit is unreadable,
which only matters where it is read.
-/

namespace DocStore.Json

/-- How many containers may lie within each other. -/
def nestingLimit : Nat := 127

mutual

def within (levels : Nat) : Json → Json
  | .array items =>
      match levels with
      | 0 => .unreadable !areItemsSkippable items
      | levels + 1 => .array (itemsWithin levels items)
  | .object members =>
      match levels with
      | 0 => .unreadable !areMembersSkippable members
      | levels + 1 => .object (membersWithin levels members)
  | scalar => scalar
termination_by structural json => json

def itemsWithin (levels : Nat) : List Json → List Json
  | [] => []
  | item :: items => within levels item :: itemsWithin levels items
termination_by structural items => items

def membersWithin (levels : Nat) : List (String × Json) → List (String × Json)
  | [] => []
  | (key, value) :: members => (key, within levels value) :: membersWithin levels members
termination_by structural members => members

end

def read? (text : String) : Option Json :=
  (parse? text).map (within nestingLimit)

end DocStore.Json

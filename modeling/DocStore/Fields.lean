/-!
Fields: what belongs to each of several keys, in order. Where a key is repeated, its first field
counts.
-/

namespace DocStore

abbrev Fields (α : Type) := List (String × α)

namespace Fields

variable {α : Type} (fields : Fields α) (key : String)

def keys : List String :=
  fields.map Prod.fst

def get? : Option α :=
  (fields.find? (·.1 == key)).map Prod.snd

def contains : Bool :=
  fields.any (·.1 == key)

/-- Sets a field. A key that is present keeps its position; a new one comes last. -/
def insert : (fields : Fields α) → (key : String) → (value : α) → Fields α
  | [], key, value => [(key, value)]
  | (existing, old) :: rest, key, value =>
      if existing = key then (key, value) :: rest else (existing, old) :: insert rest key value

def erase : Fields α :=
  fields.filter (·.1 != key)

def insertAll (entries : List (String × α)) : Fields α :=
  entries.foldl (fun fields (key, value) => insert fields key value) fields

def ofList (entries : List (String × α)) : Fields α :=
  insertAll [] entries

end Fields

end DocStore

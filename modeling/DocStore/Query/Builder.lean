import DocStore.Query.Basic

/-!
Queries and includes that are built call by call.
-/

namespace DocStore

namespace Include

variable (spec : Include)

def joinOn (localField foreignField : String) : Include :=
  { spec with on := spec.on ++ [(localField, foreignField)] }

def require : Include :=
  { spec with required := true }

def including (list : String) (inner : Include) : Include :=
  { spec with includes := Fields.insert spec.includes list inner }

end Include

namespace Query

variable (query : Query)

def filteredBy (filter : Predicate) : Query :=
  { query with filter }

/-- Attaches a list to every row. A list that is attached already keeps its place. -/
def including (list : String) (spec : Include) : Query :=
  { query with includes := query.includes.insert list spec }

def limitedTo (limit : Nat) : Query :=
  { query with limit := some limit }

def startingAt (offset : Nat) : Query :=
  { query with offset := some offset }

def orderedBy (field : String) (direction : Direction) : Query :=
  { query with order := some { field, direction } }

end Query

end DocStore

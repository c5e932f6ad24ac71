import DocStore.Predicate.Parser

/-!
Includes: the related lists that a query attaches to each of its rows, by list, in order.
-/

namespace DocStore

/-- How the rows of one related list are found and attached. -/
structure Include where
  on : List (String × String) := []
  required : Bool := false
  includes : List (String × Include) := []

abbrev Includes := Fields Include

namespace Includes

def hasRequired (includes : Includes) : Bool :=
  includes.any fun (_, spec) => spec.required

end Includes

/-! ## Reading -/

namespace Include

def pairOfField : String × Value → Except QueryError (String × String)
  | (localField, .string foreignField) => .ok (localField, foreignField)
  | (localField, _) => .error (.foreignFieldNotString localField)

mutual

def setOption (spec : Include) (key : String) : Value → Except QueryError Include
  | .document fields =>
      if key = "on" then
        match fields.mapM pairOfField with
        | .ok pairs => .ok { spec with on := spec.on ++ pairs }
        | .error cause => .error cause
      else if key = "include" then
        match readIncludes [] fields with
        | .ok includes => .ok { spec with includes }
        | .error cause => .error cause
      else .error (.unexpectedIncludeOption key)
  | .bool required =>
      if key = "required" then .ok { spec with required }
      else .error (.unexpectedIncludeOption key)
  | _ => .error (.unexpectedIncludeOption key)
termination_by structural value => value

def readOptions (spec : Include) : List (String × Value) → Except QueryError Include
  | [] => .ok spec
  | (key, value) :: fields =>
      match setOption spec key value with
      | .ok spec => readOptions spec fields
      | .error cause => .error cause
termination_by structural fields => fields

def readInclude (list : String) : Value → Except QueryError Include
  | .document fields => readOptions {} fields
  | _ => .error (.includeNotDocument list)
termination_by structural value => value

def readIncludes (includes : Includes) : List (String × Value) → Except QueryError Includes
  | [] => .ok includes
  | (list, value) :: fields =>
      match readInclude list value with
      | .ok spec => readIncludes (includes.insert list spec) fields
      | .error cause => .error cause
termination_by structural fields => fields

end

def ofDocument (document : Document) : Except QueryError Include :=
  readOptions {} document

end Include

def Includes.ofDocument (document : Document) : Except QueryError Includes :=
  Include.readIncludes [] document

end DocStore

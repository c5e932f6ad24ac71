import DocStore.Query.Includes
import DocStore.Store.Collections

/-!
Joins: which rows of an included list belong to a row, and how they are attached to it.

The key of a join is chosen row by row. Pairs of fields that the include names come first; then a
reference that the row holds to the included list; and otherwise the included rows are taken to
refer to the row.
-/

namespace DocStore

inductive JoinRule where
  | explicit
  | belongsTo
  | hasMany
deriving DecidableEq, Repr

def JoinRule.of (included : String) (spec : Include) (row : Document) : JoinRule :=
  if spec.on ≠ [] then .explicit
  else match row.get? (Document.foreignKey included) with
    | none | some .null => .hasMany
    | some _ => .belongsTo

/-- The value of a field for a join; a missing one counts as null. -/
def Document.joinValue (row : Document) (field : String) : Value :=
  (row.get? field).getD .null

def joinPredicate (list included : String) (spec : Include) (row : Document) : Predicate :=
  match JoinRule.of included spec row with
  | .explicit =>
      { conditions := spec.on.map fun (localField, foreignField) =>
          (foreignField, .equal (row.joinValue localField)) }
  | .belongsTo =>
      Predicate.fieldEquals Document.idKey (row.joinValue (Document.foreignKey included))
  | .hasMany => Predicate.fieldEquals (Document.foreignKey list) (row.id?.getD .null)

def Document.hasRelated (included : String) (row : Document) : Bool :=
  match row.get? included with
  | some (.array items) => !items.isEmpty
  | _ => false

def Document.attachRelated (included : String) (related : List Document) (row : Document) :
    Document :=
  row.insert included (.array (related.map Value.document))

def Include.keep (spec : Include) (included : String) (rows : List Document) : List Document :=
  if spec.required then rows.filter (Document.hasRelated included) else rows

namespace Collections

mutual

/-- The rows of an included list that belong to a row, with their own includes attached. -/
def related (collections : Collections) (list included : String) (row : Document) :
    Include → Except StoreError (List Document)
  | ⟨on, required, includes⟩ => do
      let rows ← collections.documents included
      let predicate := joinPredicate list included ⟨on, required, includes⟩ row
      attach collections included includes (predicate.select rows)
termination_by structural spec => spec

def attach (collections : Collections) (list : String) :
    List (String × Include) → List Document → Except StoreError (List Document)
  | [], rows => .ok rows
  | (included, spec) :: includes, rows => do
      let found ← rows.mapM fun row => related collections list included row spec
      let joined := List.zipWith (Document.attachRelated included) found rows
      attach collections list includes (spec.keep included joined)
termination_by structural includes => includes

end

end Collections

end DocStore

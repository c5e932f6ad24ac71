import DocStore.Value.Order

/-!
The stable sort of documents by one field.
-/

namespace DocStore

inductive Direction where
  | ascending
  | descending
deriving DecidableEq, Repr

structure OrderBy where
  field : String
  direction : Direction := .ascending
deriving DecidableEq, Repr

namespace OrderBy

def key (order : OrderBy) (document : Document) : Value :=
  (document.get? order.field).getD .null

def compare (order : OrderBy) (left right : Document) : Ordering :=
  match order.direction with
  | .ascending => (order.key left).sortCompare (order.key right)
  | .descending => (order.key right).sortCompare (order.key left)

/-- Sorts documents. Those that compare equal keep their order in both directions. -/
def sort (order : OrderBy) (documents : List Document) : List Document :=
  documents.mergeSort fun left right => order.compare left right != .gt

end OrderBy

end DocStore

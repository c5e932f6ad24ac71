import DocStore.Predicate.Parser

/-!
Updates: fields to set in the documents that a predicate selects.
-/

namespace DocStore

structure Update where
  filter : Predicate := {}
  data : Document := []

namespace Update

/-- Refuses to change identifiers. -/
def validate (update : Update) : Except StoreError Unit :=
  if update.data.contains Document.idKey then .error (.invalidDocument .idNotUpdatable) else .ok ()

def apply (update : Update) (document : Document) : Document :=
  document.insertAll update.data

def setPart (update : Update) (key : String) (value : Value) : Except QueryError Update :=
  match key, value with
  | "where", .document filter => do return { update with filter := ← Predicate.ofDocument filter }
  | "data", .document data => .ok { update with data }
  | _, _ => .error (.unexpectedUpdateKey key)

def ofParts (document : Document) : Except QueryError Update :=
  document.foldlM (fun update (key, value) => update.setPart key value) {}

def ofDocument (document : Document) : Except StoreError Update := do
  let update ← (ofParts document).mapError StoreError.invalidQuery
  update.validate
  return update

end Update

end DocStore

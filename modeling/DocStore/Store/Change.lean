import DocStore.Predicate.Patterns
import DocStore.Query.Update
import DocStore.Store.Collections
import DocStore.Store.IdSupply

/-!
Changes to one list. Each is decided from the collections alone, before anything is done, and can
be undone if it cannot be saved.
-/

namespace DocStore

/-- What an operation on a list does if nothing stands in its way. -/
structure Change (α : Type) where
  answer : α
  documents : Option (List Document) := none

namespace Document

def hasId (id : Value) (document : Document) : Bool :=
  match document.id? with
  | some other => other.equals id
  | none => false

end Document

namespace Collections

/-- Refuses documents of which one has the identifier of another, or of a document that is
present. -/
def checkIds (list : String) : (present incoming : List Document) → Except StoreError Unit
  | _, [] => .ok ()
  | present, document :: documents =>
      match document.id? with
      | none => checkIds list (document :: present) documents
      | some id =>
          if present.any (Document.hasId id) then .error (.documentAlreadyExists id list)
          else checkIds list (document :: present) documents

variable (collections : Collections)

def addList (ids : IdSupply) (list : String) (documents : List Document) :
    Except StoreError (Change Unit) :=
  if knows collections list then .ok { answer := () }
  else do
    let identified := ids.identify documents
    checkIds list [] identified
    return { answer := (), documents := some identified }

def append (list : String) (documents : List Document) : Except StoreError (Change Unit) := do
  let present := collections.documentsOrEmpty list
  checkIds list present documents
  return { answer := (), documents := some (present ++ documents) }

def updateOne (list : String) (update : Update) :
    Except StoreError (Change (Option Document)) := do
  update.validate
  update.filter.checkPatterns
  let documents ← collections.documents list
  match documents.find? update.filter.accepts with
  | none => return { answer := none }
  | some document =>
      let position := documents.findIdx update.filter.accepts
      let updated := documents.modify position update.apply
      return { answer := some (update.apply document), documents := some updated }

def updateMany (list : String) (update : Update) : Except StoreError (Change Nat) := do
  update.validate
  update.filter.checkPatterns
  let documents ← collections.documents list
  let count := documents.countP update.filter.accepts
  let updated := documents.map fun document =>
    if update.filter.accepts document then update.apply document else document
  return { answer := count, documents := if count = 0 then none else some updated }

def delete (list : String) (filter : Predicate) : Except StoreError (Change Nat) := do
  filter.checkPatterns
  let documents ← collections.documents list
  let count := documents.countP filter.accepts
  let kept := documents.filter fun document => !filter.accepts document
  return { answer := count, documents := if count = 0 then none else some kept }

end Collections

/-! ## Undoing -/

structure Undo where
  list : String
  previous : Option (List Document)

def Collections.remember (collections : Collections) (list : String) : Undo where
  list
  previous := collections[list]?

def Undo.revert (undo : Undo) (collections : Collections) : Collections :=
  match undo.previous with
  | some documents => collections.insert undo.list documents
  | none => collections.erase undo.list

end DocStore

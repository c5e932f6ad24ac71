import DocStore.Session
import DocStore.Snapshot.File
import DocStore.Store.Cascade
import DocStore.Store.Change
import DocStore.Store.Creation
import DocStore.Store.Search

/-!
Stores: collections in memory, and perhaps a snapshot of them. A change is made in memory and then
saved. One that cannot be saved is undone, so that the memory never runs ahead of the snapshot.
-/

namespace DocStore

structure Store where
  collections : Collections := ∅
  file : Option String := none

namespace Store

variable {σ : Type} [Medium σ]

def load (medium : σ) : (file : Option String) → Except StoreError Store
  | none => .ok {}
  | some path => do return { collections := ← Snapshot.load medium path, file := some path }

/-! ## Memory -/

def answer {α : Type} (query : Collections → Except StoreError α) : Session Store σ α :=
  fun (store, medium) => (query store.collections, store, medium)

def amend (change : Collections → Collections) : Session Store σ Unit :=
  modify fun (store, medium) => ({ store with collections := change store.collections }, medium)

/-! ## Saving -/

def persist : Session Store σ Unit := fun (store, medium) =>
  match store.file with
  | none => (.ok (), store, medium)
  | some path =>
      match Snapshot.save medium path store.collections with
      | (outcome, medium) => (outcome, store, medium)

def commit (undo : Option Undo) : Session Store σ Unit :=
  tryCatch persist fun cause => do
    match undo with
    | some undo => amend undo.revert
    | none => pure ()
    throw cause

/-- Decides on a change of a list, makes it and saves it, if there is anything to do. How the list
was is only remembered if there is a snapshot. -/
def changeList {α : Type} (list : String)
    (decision : Collections → Except StoreError (Change α)) : Session Store σ α := do
  let (store, _) ← get
  let undo := store.file.map fun _ => store.collections.remember list
  let change ← answer decision
  match change.documents with
  | some documents => do
      amend fun collections => collections.insert list documents
      commit undo
  | none => pure ()
  return change.answer

/-! ## Lists -/

/-- Adds the lists that are missing. The collections are saved in any case. -/
def prepare (lists : List String) : Session Store σ Unit := do
  let added ← answer fun collections => .ok (collections.missing lists)
  amend fun collections => collections.withLists added
  tryCatch persist fun cause => do
    amend fun collections => collections.withoutLists added
    throw cause

def createList (ids : IdSupply) (list : String) (documents : List Document) :
    Session Store σ Unit :=
  changeList list fun collections => collections.addList ids list documents

def removeList (list : String) : Session Store σ Unit := do
  let removed ← answer fun collections => collections.documents list
  amend fun collections => collections.erase list
  let (store, _) ← get
  commit (store.file.map fun _ => { list, previous := some removed })

def listNames : Session Store σ (List String) :=
  answer fun collections => .ok collections.names

/-! ## Documents -/

/-- Creates documents in a list, and then the children of each in theirs. What is known when the
documents are stored decides which fields hold children. The answer is the documents without these
fields, which follow at the end with the children as they were created. A fault keeps what was
stored before it. -/
def createIn (ids : IdSupply) (list : String) (documents : List Document) :
    Session Store σ (List Document) := do
  let known ← answer fun collections => .ok collections.knows
  let identified := ids.identify documents
  MonadExcept.ofExcept (identified.forM (Document.checkNested known))
  changeList list fun collections =>
    collections.append list (identified.map (Document.withoutNested known))
  identified.zipIdx.attach.mapM fun ⟨(document, index), _⟩ => do
    let stored := document.withoutNested known
    let fields ← (document.nestedFields known).zipIdx.attach.mapM
      fun ⟨((field, items), place), _⟩ => do
        let created ← createIn ((ids.branch index).branch place) field
          (Document.childrenOf list stored items)
        return (field, Value.array (created.map Value.document))
    return stored.insertAll fields
termination_by Document.maxNodes documents
decreasing_by
  exact Document.maxNodes_children_lt ‹(document, index) ∈ _› ‹((field, items), place) ∈ _›

def create (ids : IdSupply) (list : String) (requested : NewDocuments) (reply : Reply) :
    Session Store σ Created := do
  return .of requested reply (← createIn ids list requested.toList)

def find (list : String) (query : Query) : Session Store σ (List Document) :=
  answer fun collections => collections.find list query

def findOne (list : String) (query : Query) : Session Store σ (Option Document) :=
  answer fun collections => collections.findOne list query

def updateOne (list : String) (update : Update) : Session Store σ (Option Document) :=
  changeList list fun collections => collections.updateOne list update

def updateMany (list : String) (update : Update) : Session Store σ Nat :=
  changeList list fun collections => collections.updateMany list update

def delete (list : String) (filter : Predicate) : Session Store σ Nat :=
  changeList list fun collections => collections.delete list filter

def close : Session Store σ Bool := do
  persist
  return true

end Store

end DocStore

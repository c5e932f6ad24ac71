import DocStore.Store.Basic

/-!
Backends: what a dispatcher asks of whatever keeps lists. A store is a backend.
-/

namespace DocStore

inductive Action where
  | create
  | find
  | findOne
  | update
  | delete
deriving DecidableEq, Repr

namespace Action

def all : List Action :=
  [.create, .find, .findOne, .update, .delete]

def name : Action → String
  | .create => "create"
  | .find => "find"
  | .findOne => "findOne"
  | .update => "update"
  | .delete => "delete"

end Action

class Backend (β : Type) (σ : Type) where
  supports : β → Action → Bool := fun _ _ => true
  prepare (lists : List String) : Session β σ Unit
  createList (ids : IdSupply) (list : String) (documents : List Document) : Session β σ Unit
  removeList (list : String) : Session β σ Unit
  listNames : Session β σ (List String)
  create (ids : IdSupply) (list : String) (requested : NewDocuments) (reply : Reply) :
    Session β σ Created
  find (list : String) (query : Query) : Session β σ (List Document)
  /-- The first document that answers a query, whatever its limit. -/
  findOne (list : String) (query : Query) : Session β σ (Option Document) := do
    return (← find list { query with limit := some 1 }).head?
  updateOne (list : String) (update : Update) : Session β σ (Option Document)
  updateMany (list : String) (update : Update) : Session β σ Nat
  delete (list : String) (filter : Predicate) : Session β σ Nat
  close : Session β σ Bool := pure true

instance {σ : Type} [Medium σ] : Backend Store σ where
  prepare := Store.prepare
  createList := Store.createList
  removeList := Store.removeList
  listNames := Store.listNames
  create := Store.create
  find := Store.find
  findOne := Store.findOne
  updateOne := Store.updateOne
  updateMany := Store.updateMany
  delete := Store.delete
  close := Store.close

end DocStore

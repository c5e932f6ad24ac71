import DocStore.Dispatch.Config
import DocStore.Dispatch.Registry

/-!
Dispatchers: several backends behind one interface. Each action goes to the backend that owns its
list. The backends share one medium.
-/

namespace DocStore

structure Dispatcher (β : Type) where
  backends : Std.ExtTreeMap String β
  routes : Std.ExtTreeMap String String
  /-- The only backend, if there is exactly one; it owns every list. -/
  sole : Option String

namespace Dispatcher

variable {β σ α : Type} [Backend β σ]

/-! ## Backends -/

def names (dispatcher : Dispatcher β) : List String :=
  dispatcher.backends.keys

def owner (dispatcher : Dispatcher β) (list : String) : Except ConfigurationError String :=
  match dispatcher.sole with
  | some name => .ok name
  | none =>
      match dispatcher.routes[list]? with
      | some name => .ok name
      | none => .error (.unroutedList list)

def backendFor (dispatcher : Dispatcher β) (list : String) : Except StoreError (String × β) := do
  let name ← (dispatcher.owner list).mapError StoreError.configuration
  match dispatcher.backends[name]? with
  | some backend => return (name, backend)
  | none => throw (.configuration (.missingBackend name))

def onBackend (name : String) (backend : β) (work : Session β σ α) :
    Session (Dispatcher β) σ α := fun (dispatcher, medium) =>
  let (outcome, backend, medium) := work (backend, medium)
  (outcome, { dispatcher with backends := dispatcher.backends.insert name backend }, medium)

/-- Works on all backends in the order of their names, until a fault. -/
def onEach (work : (name : String) → Session β σ α) : Session (Dispatcher β) σ (List α) := do
  let (dispatcher, _) ← get
  dispatcher.backends.toList.mapM fun (name, backend) => onBackend name backend (work name)

def onOwner (list : String) (work : Session β σ α) : Session (Dispatcher β) σ α := do
  let (dispatcher, _) ← get
  let (name, backend) ← MonadExcept.ofExcept (dispatcher.backendFor list)
  onBackend name backend work

/-! ## Connecting -/

/-- Builds the backends of a configuration, once the type of each is known. -/
def build (registry : Registry β σ) (config : Config) (medium : σ) :
    Except StoreError (Std.ExtTreeMap String β) := do
  let factories ← config.backends.toList.mapM fun (name, backend) =>
    match registry[backend.typeName]? with
    | some factory => .ok (name, factory backend.settings)
    | none => .error (.configuration (.unknownType name backend.typeName registry.typeNames))
  factories.foldlM
    (fun backends (name, factory) => do
      return backends.insert name (← (factory medium).mapError (.startup name)))
    (∅ : Std.ExtTreeMap String β)

def connect (registry : Registry β σ) (config : Config) (medium : σ) :
    Except StoreError (Dispatcher β) × σ :=
  let built := do
    config.validate.mapError StoreError.configuration
    let backends ← build registry config medium
    let routes := config.lists.filterMap fun _ owner => owner
    return { backends, routes, sole := config.sole? : Dispatcher β }
  match built with
  | .error cause => (.error cause, medium)
  | .ok dispatcher =>
      let preparation := onEach fun name =>
        ExceptT.adapt (StoreError.startup name) (Backend.prepare (config.listsFor name))
      match preparation (dispatcher, medium) with
      | (.ok _, dispatcher, medium) => (.ok dispatcher, medium)
      | (.error cause, _, medium) => (.error cause, medium)

/-! ## Actions -/

def route (list : String) (action : Action) (work : Session β σ α) :
    Session (Dispatcher β) σ α :=
  onOwner list do
    let (backend, _) ← get
    if Backend.supports σ backend action then work
    else throw (.configuration (.missingAction list action.name))

def create (ids : IdSupply) (list : String) (requested : NewDocuments)
    (reply : Reply := .documents) : Session (Dispatcher β) σ Created :=
  route list .create (Backend.create ids list requested reply)

def find (list : String) (query : Query) : Session (Dispatcher β) σ (List Document) :=
  route list .find (Backend.find list query)

def findOne (list : String) (query : Query) : Session (Dispatcher β) σ (Option Document) :=
  route list .findOne (Backend.findOne list query)

def update (list : String) (update : Update) : Session (Dispatcher β) σ Nat :=
  route list .update (Backend.updateMany list update)

def updateOne (list : String) (update : Update) : Session (Dispatcher β) σ (Option Document) :=
  route list .update (Backend.updateOne list update)

def delete (list : String) (filter : Predicate) : Session (Dispatcher β) σ Nat :=
  route list .delete (Backend.delete list filter)

def close : Session (Dispatcher β) σ Bool := do
  return (← onEach fun _ => Backend.close).all id

end Dispatcher

end DocStore

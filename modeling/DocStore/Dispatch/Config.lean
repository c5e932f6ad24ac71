import Std.Data.ExtTreeMap
import DocStore.Error
import DocStore.Json.Distinct
import DocStore.Json.Nesting
import DocStore.Json.Record
import DocStore.Medium.Basic

/-!
Configurations: which backends there are, and which of them owns each list.

If there is only one backend, it owns every list. Otherwise each configured list names its owner.
-/

namespace DocStore

structure BackendConfig where
  typeName : String
  settings : Json := .null

structure Config where
  backends : Std.ExtTreeMap String BackendConfig := ∅
  lists : Std.ExtTreeMap String (Option String) := ∅

namespace Config

variable (config : Config)

def withBackend (name typeName : String) (settings : Json) : Config :=
  { config with backends := config.backends.insert name { typeName, settings } }

def withList (list : String) (backend : Option String) : Config :=
  { config with lists := config.lists.insert list backend }

/-! ## Ownership -/

def sole? : Option String :=
  match config.backends.keys with
  | [name] => some name
  | _ => none

def listsFor (backend : String) : List String :=
  if config.sole? = some backend then config.lists.keys
  else config.lists.toList.filterMap fun (list, owner) =>
    if owner = some backend then some list else none

/-- Refuses a list whose owner is unknown or open. -/
def checkList (list : String) : Option String → Except ConfigurationError Unit
  | some owner =>
      if config.backends.contains owner then .ok () else .error (.unknownBackend list owner)
  | none => if 1 < config.backends.size then .error (.unassignedList list) else .ok ()

def validate : Except ConfigurationError Unit := do
  if config.backends.isEmpty then throw .noBackends
  config.lists.toList.forM fun (list, owner) => config.checkList list owner

end Config

/-! ## Reading -/

def BackendConfig.ofJson? (json : Json) : Option BackendConfig := do
  let record ← json.record? ["type", "config"] .ignored
  let typeName ← (← record "type").text?
  let settings ← ((record "config").getD .null).distinct?
  return { typeName, settings }

namespace Config

def ownerOf? (json : Json) : Option (Option String) := do
  (← json.record? ["db"] .ignored).textOrNull? "db"

def ofJson? (json : Json) : Option Config := do
  let record ← json.record? ["dbs", "lists"] .ignored
  let backends ← Json.map? BackendConfig.ofJson? (record "dbs")
  let lists ← Json.map? ownerOf? (record "lists")
  return { backends, lists }

def parse (text : String) : Except StoreError Config :=
  match (Json.read? text).bind ofJson? with
  | some config => .ok config
  | none => .error .serialization

def load {σ : Type} [Medium σ] (medium : σ) (path : String) : Except StoreError Config :=
  match Medium.read medium (Path.ofText path) with
  | .text text => parse text
  | .missing | .unreadable => .error (.configuration (.unreadable path))

end Config

end DocStore

import DocStore.Dispatch.Backend
import DocStore.Json.Record

/-!
Registries: how backends of each type are built from their settings.
-/

namespace DocStore

/-- Builds a backend from its settings and what is on the medium. -/
abbrev Factory (β σ : Type) := Json → σ → Except StoreError β

abbrev Registry (β σ : Type) := Std.ExtTreeMap String (Factory β σ)

def Registry.typeNames {β σ : Type} (registry : Registry β σ) : List String :=
  registry.keys

namespace Store

def typeName : String := "memory"

/-- The path of the snapshot in the settings of a store; it may be left out. -/
def fileOfSettings : Json → Except StoreError (Option String)
  | .null => .ok none
  | settings =>
      match (settings.record? ["file"] .refused).bind (·.textOrNull? "file") with
      | some file => .ok file
      | none => .error (.configuration .invalidMemorySettings)

def factory {σ : Type} [Medium σ] : Factory Store σ := fun settings medium => do
  load medium (← fileOfSettings settings)

end Store

def Registry.standard {σ : Type} [Medium σ] : Registry Store σ :=
  (∅ : Registry Store σ).insert Store.typeName Store.factory

end DocStore

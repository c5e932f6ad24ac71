import DocStore.Error
import DocStore.Value.Tagged

/-!
Values as documents, and documents as records of strings.
-/

namespace DocStore

/-- The value as a document, which it must be. Documents that stand for other values do not
count. -/
def Value.toDocument (value : Value) : Except StoreError Document :=
  match value.untagged with
  | .document fields => .ok fields
  | other => .error (.invalidDocument (.notADocument other.typeName))

def Value.asText? (value : Value) : Option String :=
  match value with
  | .string text => some text
  | other => do String.fromUTF8? ⟨(← other.plainBytes?).toArray⟩

def Document.text (document : Document) (key : String) : Except StoreError String :=
  match (document.get? key).bind Value.asText? with
  | some text => .ok text
  | none => .error .serialization

end DocStore

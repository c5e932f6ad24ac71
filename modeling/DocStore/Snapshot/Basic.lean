import DocStore.Json.Nesting
import DocStore.Json.Printer
import DocStore.Json.Record
import DocStore.Snapshot.Decoding
import DocStore.Snapshot.Encoding
import DocStore.Store.Collections

/-!
Snapshots: all collections of a store as one JSON text.
-/

namespace DocStore.Snapshot

def collectionsKey : String := "collections"

def encodeDocuments (documents : List Document) : Json :=
  .array (documents.map fun document => (Value.document document).encode)

def toJson (collections : Collections) : Json :=
  .object [(collectionsKey, .object
    (collections.toList.map fun (list, documents) => (list, encodeDocuments documents)))]

/-- The text of a snapshot, with the lists in the order of their names. -/
def render (collections : Collections) : String :=
  (toJson collections).render

def decodeDocuments? : Json → Option (List Document)
  | .array items => items.mapM fun item => (Value.decode? item).bind Value.document?
  | _ => none

def ofJson? (json : Json) : Option Collections := do
  Json.map? decodeDocuments? ((← json.record? [collectionsKey] .ignored) collectionsKey)

def parse? (text : String) : Option Collections :=
  (Json.read? text).bind ofJson?

end DocStore.Snapshot

import Std.Data.ExtTreeMap
import DocStore.Error
import DocStore.Predicate.Basic

/-!
The collections of a store: lists of documents by name. Two collections with the same entries are
the same, and their names are listed in order.
-/

namespace DocStore

abbrev Collections := Std.ExtTreeMap String (List Document)

namespace Collections

variable (collections : Collections)

def documents (list : String) : Except StoreError (List Document) :=
  match collections[list]? with
  | some documents => .ok documents
  | none => .error (.collectionNotFound list)

def documentsOrEmpty (list : String) : List Document :=
  collections[list]?.getD []

def knows (list : String) : Bool :=
  collections.contains list

def names : List String :=
  collections.toList.map Prod.fst

/-- The names that are not taken. One that is given twice stays twice. -/
def missing (lists : List String) : List String :=
  lists.filter fun list => !knows collections list

def withLists (lists : List String) : Collections :=
  lists.foldl (fun collections list => collections.insert list []) collections

def withoutLists (lists : List String) : Collections :=
  lists.foldl (fun collections list => collections.erase list) collections

end Collections

end DocStore

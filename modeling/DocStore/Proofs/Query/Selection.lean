import DocStore.Proofs.Outcome
import DocStore.Store.Search

/-!
What simple queries select: a whole list, or its documents that meet a predicate, such as those with one
value in a field.
-/

namespace DocStore

namespace Predicate

theorem accepts_fieldEquals (key : String) (value : Value) (document : Document) :
    (fieldEquals key value).accepts document = (document.get? key).any (·.equals value) := by
  rw [fieldEquals, accepts, allHold, List.all_cons, List.all_nil, Bool.and_true]
  dsimp only
  cases document.get? key with
  | none => rfl
  | some held => rfl

theorem select_fieldEquals (key : String) (value : Value) (documents : List Document) :
    (fieldEquals key value).select documents =
      documents.filter fun document => (document.get? key).any (·.equals value) :=
  List.filter_congr fun document _ => accepts_fieldEquals key value document

theorem mem_select_fieldEquals_iff {key : String} {value : Value} {documents : List Document}
    {document : Document} :
    document ∈ (fieldEquals key value).select documents ↔
      document ∈ documents ∧ (document.get? key).any (·.equals value) = true := by
  rw [select_fieldEquals, List.mem_filter]

theorem select_empty (documents : List Document) : select {} documents = documents :=
  List.filter_eq_self.mpr fun _ _ => rfl

end Predicate

namespace Collections

variable {collections : Collections} {list : String} {documents : List Document}

theorem documents_eq_ok_iff :
    collections.documents list = .ok documents ↔ collections[list]? = some documents := by
  rw [Collections.documents]
  cases collections[list]? with
  | none => simp
  | some found => simp

theorem selected_unordered (found : collections[list]? = some documents) {query : Query}
    (checked : query.filter.checkPatterns = .ok ()) (unordered : query.order = none) :
    collections.selected list query = .ok (query.filter.select documents) := by
  rw [selected, checked, documents_eq_ok_iff.mpr found, unordered]
  rfl

theorem find_filter (found : collections[list]? = some documents) (filter : Predicate) :
    collections.find list { filter } =
      filter.checkPatterns.map fun _ => documents.filter filter.accepts := by
  cases checked : filter.checkPatterns with
  | error cause =>
      rw [find, selected, checked]
      rfl
  | ok =>
      rw [find, selected_unordered found checked rfl]
      rfl

theorem findOne_filter (found : collections[list]? = some documents) (filter : Predicate) :
    collections.findOne list { filter } =
      filter.checkPatterns.map fun _ => (documents.filter filter.accepts).head? := by
  cases checked : filter.checkPatterns with
  | error cause =>
      rw [findOne, find, selected, checked]
      rfl
  | ok =>
      rw [findOne, find, selected_unordered found checked rfl]
      change Except.ok ((documents.filter filter.accepts).take 1).head? = _
      rw [List.head?_take]
      rfl

theorem find_fieldEquals (found : collections[list]? = some documents) (key : String)
    (value : Value) :
    collections.find list { filter := .fieldEquals key value } =
      .ok (documents.filter fun document => (document.get? key).any (·.equals value)) := by
  have checked : (Predicate.fieldEquals key value).checkPatterns = .ok () := rfl
  rw [find_filter found, checked]
  exact congrArg Except.ok (Predicate.select_fieldEquals key value documents)

end Collections

end DocStore

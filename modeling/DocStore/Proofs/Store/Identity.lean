import DocStore.Medium.Disk
import DocStore.Proofs.Store.Transition
import DocStore.Proofs.Value.Equality
import DocStore.Proofs.Value.NonNull

/-!
Identifiers are unique within each list. New documents are checked against those that are present
and against each other, and no update changes an identifier, so that every run keeps them unique.
-/

namespace DocStore

namespace Document

def ids (documents : List Document) : List Value :=
  documents.filterMap id?

theorem ids_cons_of_none {document : Document} {documents : List Document}
    (has : document.id? = none) : ids (document :: documents) = ids documents :=
  List.filterMap_cons_none has

theorem ids_cons_of_some {document : Document} {documents : List Document} {id : Value}
    (has : document.id? = some id) : ids (document :: documents) = id :: ids documents :=
  List.filterMap_cons_some has

theorem any_equals_idKey {document : Document} {id : Value} (notNull : id ≠ .null) :
    (document.get? idKey).any (·.equals id) = document.hasId id := by
  rw [any_equals_get? notNull, hasId]
  have same : document.id? = document.nonNull? idKey := rfl
  rw [same]
  cases document.nonNull? idKey with
  | none => rfl
  | some other => rfl

/-- No two documents at different positions have identifiers that count as equal. -/
def UniqueIds (documents : List Document) : Prop :=
  ∀ (first second : Nat) (left right : Document) (leftId rightId : Value), first ≠ second →
    documents[first]? = some left → documents[second]? = some right →
      left.id? = some leftId → right.id? = some rightId → leftId.equals rightId = false

theorem uniqueIds_iff {documents : List Document} :
    UniqueIds documents ↔
      (ids documents).Pairwise fun left right => left.equals right = false := by
  rw [ids, List.pairwise_filterMap, List.pairwise_iff_getElem]
  constructor
  · intro unique first second firstBound secondBound before leftId hasLeft rightId hasRight
    exact unique first second _ _ leftId rightId (Nat.ne_of_lt before)
      (List.getElem?_eq_getElem firstBound) (List.getElem?_eq_getElem secondBound) hasLeft hasRight
  · intro ordered first second left right leftId rightId different atFirst atSecond hasLeft hasRight
    rcases List.getElem?_eq_some_iff.mp atFirst with ⟨firstBound, rfl⟩
    rcases List.getElem?_eq_some_iff.mp atSecond with ⟨secondBound, rfl⟩
    rcases Nat.lt_or_gt_of_ne different with before | after
    · exact ordered first second firstBound secondBound before leftId hasLeft rightId hasRight
    · rw [Value.equals_comm]
      exact ordered second first secondBound firstBound after rightId hasRight leftId hasLeft

theorem uniqueIds_nil : UniqueIds [] :=
  uniqueIds_iff.mpr .nil

theorem uniqueIds_of_sublist {documents kept : List Document} (sublist : kept.Sublist documents)
    (unique : UniqueIds documents) : UniqueIds kept :=
  uniqueIds_iff.mpr ((uniqueIds_iff.mp unique).sublist (sublist.filterMap id?))

theorem uniqueIds_of_ids_eq {documents updated : List Document}
    (same : ids updated = ids documents) (unique : UniqueIds documents) : UniqueIds updated := by
  rw [uniqueIds_iff] at unique ⊢
  rw [same]
  exact unique

theorem uniqueIds_append {present incoming : List Document} :
    UniqueIds (present ++ incoming) ↔
      UniqueIds present ∧ UniqueIds incoming ∧
        ∀ left ∈ ids present, ∀ right ∈ ids incoming, left.equals right = false := by
  rw [uniqueIds_iff, uniqueIds_iff, uniqueIds_iff, ids, List.filterMap_append,
    List.pairwise_append]
  exact Iff.rfl

end Document

namespace Update

theorem id?_apply {update : Update} (valid : update.validate = .ok ()) (document : Document) :
    (update.apply document).id? = document.id? := by
  have kept : update.data.contains Document.idKey = false := by
    rw [validate] at valid
    split at valid
    · cases valid
    · next absent => exact Bool.eq_false_iff.mpr absent
  rw [Document.id?, Document.id?, apply, Fields.get?_insertAll_other kept]

theorem ids_eq_of_each {update : Update} (valid : update.validate = .ok ())
    {documents updated : List Document}
    (each : List.Forall₂ (fun old new => new = old ∨ new = update.apply old) documents updated) :
    Document.ids updated = Document.ids documents := by
  induction each with
  | nil => rfl
  | @cons old new _ _ here later induction =>
      have same : new.id? = old.id? := by
        rcases here with rfl | rfl
        · rfl
        · exact id?_apply valid old
      unfold Document.ids at induction ⊢
      rw [List.filterMap_cons, List.filterMap_cons, same, induction]

end Update

namespace Collections

/-! ## Lists -/

def HasUniqueIds (collections : Collections) : Prop :=
  ∀ (list : String) (documents : List Document), collections[list]? = some documents →
    Document.UniqueIds documents

variable {collections : Collections} {list : String}

/-! ## New documents -/

theorem hasId_eq_false_iff {id : Value} {document : Document} :
    document.hasId id = false ↔ ∀ other, document.id? = some other → other.equals id = false := by
  rw [Document.hasId]
  cases document.id? with
  | none => simp
  | some other => simp

theorem any_hasId_eq_false_iff {id : Value} {documents : List Document} :
    documents.any (Document.hasId id) = false ↔
      ∀ other ∈ Document.ids documents, other.equals id = false := by
  simp only [List.any_eq_false, Bool.not_eq_true, hasId_eq_false_iff, Document.ids,
    List.mem_filterMap]
  constructor
  · rintro free other ⟨document, member, has⟩
    exact free document member other has
  · intro free document member other has
    exact free other ⟨document, member, has⟩

theorem filter_hasId {documents : List Document} {document : Document} {id : Value}
    (unique : Document.UniqueIds documents) (member : document ∈ documents)
    (has : document.id? = some id) (same : id.equals id = true) :
    documents.filter (Document.hasId id) = [document] := by
  rcases List.append_of_mem member with ⟨before, after, rfl⟩
  rcases Document.uniqueIds_append.mp unique with ⟨_, others, apart⟩
  rw [Document.uniqueIds_iff, Document.ids_cons_of_some has, List.pairwise_cons] at others
  rw [Document.ids_cons_of_some has] at apart
  have here : document.hasId id = true := by rw [Document.hasId, has]; exact same
  have noneBefore : before.any (Document.hasId id) = false :=
    any_hasId_eq_false_iff.mpr fun other earlier => apart other earlier id List.mem_cons_self
  have noneAfter : after.any (Document.hasId id) = false := by
    refine any_hasId_eq_false_iff.mpr fun other later => ?_
    rw [Value.equals_comm]
    exact others.1 other later
  rw [List.any_eq_false] at noneBefore noneAfter
  rw [List.filter_append, List.filter_cons_of_pos here, List.filter_eq_nil_iff.mpr noneBefore,
    List.filter_eq_nil_iff.mpr noneAfter]
  rfl

theorem checkIds_eq_ok_iff {present incoming : List Document} :
    checkIds list present incoming = .ok () ↔
      Document.UniqueIds incoming ∧
        ∀ left ∈ Document.ids present, ∀ right ∈ Document.ids incoming,
          left.equals right = false := by
  induction incoming generalizing present with
  | nil => simp [checkIds, Document.uniqueIds_nil, Document.ids]
  | cons document documents induction =>
      rw [checkIds]
      cases has : document.id? with
      | none =>
          simp only [induction, Document.uniqueIds_iff, Document.ids_cons_of_none has]
      | some id =>
          simp only [Document.uniqueIds_iff, Document.ids_cons_of_some has, List.pairwise_cons]
          cases clash : present.any (Document.hasId id) with
          | true =>
              constructor
              · intro accepted
                cases accepted
              · rintro ⟨_, apart⟩
                have free : present.any (Document.hasId id) = false := by
                  apply any_hasId_eq_false_iff.mpr
                  intro other member
                  exact apart other member id List.mem_cons_self
                rw [clash] at free
                cases free
          | false =>
              -- From here on the document is one of those that are present.
              have free := any_hasId_eq_false_iff.mp clash
              rw [if_neg Bool.false_ne_true, induction, Document.uniqueIds_iff,
                Document.ids_cons_of_some has]
              constructor
              · rintro ⟨unique, apart⟩
                refine ⟨⟨apart id List.mem_cons_self, unique⟩, ?_⟩
                intro left member right later
                rcases List.mem_cons.mp later with rfl | later
                · exact free left member
                · exact apart left (List.mem_cons_of_mem id member) right later
              · rintro ⟨⟨first, unique⟩, apart⟩
                refine ⟨unique, ?_⟩
                intro left member right later
                rcases List.mem_cons.mp member with rfl | earlier
                · exact first right later
                · exact apart left earlier right (List.mem_cons_of_mem id later)

theorem uniqueIds_of_checkIds {present incoming : List Document}
    (unique : Document.UniqueIds present) (checked : checkIds list present incoming = .ok ()) :
    Document.UniqueIds (present ++ incoming) := by
  rcases checkIds_eq_ok_iff.mp checked with ⟨uniqueIncoming, apart⟩
  exact Document.uniqueIds_append.mpr ⟨unique, uniqueIncoming, apart⟩

/-! ## Transitions -/

theorem Revision.hasUniqueIds {next : Collections} (revision : collections.Revision next)
    (unique : collections.HasUniqueIds) : next.HasUniqueIds := by
  cases revision with
  | stay => exact unique
  | addLists lists => exact each_withLists unique Document.uniqueIds_nil _
  | addList ids list documents absent checked =>
      exact each_insert unique (uniqueIds_of_checkIds Document.uniqueIds_nil checked)
  | removeList list => exact each_erase unique
  | update update found valid each =>
      have same := update.ids_eq_of_each valid each
      exact each_insert unique (Document.uniqueIds_of_ids_eq same (unique _ _ found))
  | delete filter found =>
      apply each_insert unique
      exact Document.uniqueIds_of_sublist List.filter_sublist (unique _ _ found)

theorem Transition.hasUniqueIds {next : Collections} (transition : collections.Transition next)
    (unique : collections.HasUniqueIds) : next.HasUniqueIds := by
  cases transition with
  | revise revision => exact revision.hasUniqueIds unique
  | append list documents checked =>
      have present := holds_documentsOrEmpty unique Document.uniqueIds_nil list
      exact each_insert unique (uniqueIds_of_checkIds present checked)

end Collections

/-! ## Runs -/

variable {σ : Type} [Medium σ]

/-- The collections have unique identifiers afterwards if they had them before, whether the work
succeeded or not. -/
def KeepsUniqueIds (_ : Bool) (before after : Store × σ) : Prop :=
  before.1.collections.HasUniqueIds → after.1.collections.HasUniqueIds

omit [Medium σ] in
theorem keepsUniqueIds_composes : Session.Composes (KeepsUniqueIds (σ := σ)) where
  idle _ _ := id
  andThen before after unique := after (before unique)

theorem adoptions_keepsUniqueIds :
    Store.AdoptionsObey (σ := σ) Collections.Transition KeepsUniqueIds := by
  intro α value store medium next transition unique
  exact Store.holds_adopt Collections.HasUniqueIds unique (transition.hasUniqueIds unique)

/-- A store that starts with unique identifiers has them before and after every request of a run,
whatever is requested and whatever fails. -/
theorem uniqueIds_throughout {start : Store × σ} (unique : start.1.collections.HasUniqueIds)
    (requests : List Request) :
    ∀ step ∈ steps requests start,
      step.before.1.collections.HasUniqueIds ∧ step.after.1.collections.HasUniqueIds := by
  have kept (request : Request) (state : Store × σ)
      (before : state.1.collections.HasUniqueIds) :
      (request.step state).after.1.collections.HasUniqueIds :=
    request.obeys_run keepsUniqueIds_composes adoptions_keepsUniqueIds state before
  exact holds_throughout kept unique

theorem uniqueIds_after_equal_numbers_are_refused :
    let start : Store × Disk := ({}, Disk.empty)
    let added := (Request.createList (.seeded 0) "users" [[("id", .int32 1)], []]).step start
    let refused := (Request.createList (.seeded 0) "people"
      [[("id", .int32 1)], [("id", .double ⟨0x3FF0000000000000⟩)]]).step added.after
    start.1.collections.HasUniqueIds ∧ added.succeeded = true ∧ refused.succeeded = false ∧
      added.after.1.collections.HasUniqueIds ∧ refused.after.1.collections.HasUniqueIds := by
  intro start added refused
  have empty : start.1.collections.HasUniqueIds := by
    intro list documents found
    cases Std.ExtTreeMap.getElem?_empty.symm.trans found
  have run := uniqueIds_throughout empty [added.request, refused.request]
  have first := (run added List.mem_cons_self).2
  have second := (run refused (List.mem_cons_of_mem added List.mem_cons_self)).2
  exact ⟨empty, rfl, by decide +kernel, first, second⟩

end DocStore

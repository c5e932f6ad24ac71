import DocStore.Medium.Disk
import DocStore.Proofs.Store.Identity

/-!
Updates and deletions act on the documents that a query with the same predicate finds. A deletion
leaves the others; an update merges its data into all of them, or into the first one, where it stands.
-/

namespace DocStore

/-! ## Selected documents -/

theorem modify_findIdx_append {accepts : Document → Bool} {before : List Document}
    {document : Document} (rejected : ∀ earlier ∈ before, accepts earlier = false)
    (accepted : accepts document = true) (after : List Document) (change : Document → Document) :
    let documents := before ++ document :: after
    documents.modify (documents.findIdx accepts) change = before ++ change document :: after := by
  induction before with
  | nil => simp [List.findIdx_cons, accepted]
  | cons first before induction =>
      rw [List.forall_mem_cons] at rejected
      simpa [List.findIdx_cons, rejected.1] using induction rejected.2

def Document.mergeIf (filter : Predicate) (data document : Document) : Document :=
  if filter.accepts document then document.merge data else document

/-- What the update makes of a document of its list, selected or not. -/
def Update.revise (update : Update) (document : Document) : Document :=
  if update.filter.accepts document then update.apply document else document

namespace Collections

variable {collections : Collections} {list : String} {documents : List Document}

/-! ## Decisions -/

theorem delete_eq (found : collections[list]? = some documents) (filter : Predicate) :
    collections.delete list filter =
      filter.checkPatterns.map fun _ =>
        { answer := documents.countP filter.accepts
          documents := if documents.countP filter.accepts = 0 then none
            else some (documents.filter fun document => !filter.accepts document) } := by
  rw [delete, documents_eq_ok_iff.mpr found]
  cases filter.checkPatterns with
  | error cause => rfl
  | ok => rfl

theorem updateMany_eq (found : collections[list]? = some documents) {update : Update}
    (valid : update.validate = .ok ()) :
    collections.updateMany list update =
      update.filter.checkPatterns.map fun _ =>
        { answer := documents.countP update.filter.accepts
          documents := if documents.countP update.filter.accepts = 0 then none
            else some (documents.map update.revise) } := by
  rw [updateMany, valid, documents_eq_ok_iff.mpr found]
  cases update.filter.checkPatterns with
  | error cause => rfl
  | ok => rfl

theorem updateOne_eq (found : collections[list]? = some documents) {update : Update}
    (valid : update.validate = .ok ()) :
    collections.updateOne list update =
      update.filter.checkPatterns.map fun _ =>
        match documents.find? update.filter.accepts with
        | none => { answer := none }
        | some document =>
            { answer := some (update.apply document)
              documents := some
                (documents.modify (documents.findIdx update.filter.accepts) update.apply) } := by
  rw [updateOne, valid, documents_eq_ok_iff.mpr found]
  cases update.filter.checkPatterns with
  | error cause => rfl
  | ok =>
      dsimp only [bind, Except.bind, Except.map]
      cases documents.find? update.filter.accepts with
      | none => rfl
      | some document => rfl

end Collections

namespace Store

/-! ## Changes that are saved -/

def withDocuments (store : Store) (list : String) (documents : List Document) : Store :=
  { store with collections := store.collections.insert list documents }

variable {store : Store} {list : String} {documents others : List Document}

theorem withDocuments_self (found : store.collections[list]? = some documents) :
    store.withDocuments list documents = store := by
  have same : store.collections.insert list documents = store.collections := by
    apply Std.ExtTreeMap.ext_getElem?
    intro name
    by_cases equal : list = name
    · subst equal
      simp [found]
    · simp [Std.ExtTreeMap.getElem?_insert, equal]
  rw [withDocuments, same]

theorem getElem?_withDocuments (name : String) :
    (store.withDocuments list documents).collections[name]? =
      if list = name then some documents else store.collections[name]? := by
  simp [withDocuments, Std.ExtTreeMap.getElem?_insert]

theorem documentsOrEmpty_withDocuments :
    (store.withDocuments list documents).collections.documentsOrEmpty list = documents := by
  rw [withDocuments, Collections.documentsOrEmpty_insert, if_pos rfl]

theorem withDocuments_withDocuments :
    (store.withDocuments list documents).withDocuments list others = store.withDocuments list others := by
  have same : (store.collections.insert list documents).insert list others =
      store.collections.insert list others := by
    apply Std.ExtTreeMap.ext_getElem?
    intro name
    by_cases equal : list = name
    · simp [equal]
    · simp [Std.ExtTreeMap.getElem?_insert, equal]
  rw [withDocuments, withDocuments, withDocuments, same]

variable {σ α : Type} [Medium σ] {medium : σ}

/-- The store can be saved with other documents in a list. -/
def Saves (list : String) (documents : List Document) (state : Store × σ) : Prop :=
  (saving state.2 state.1.file (state.1.collections.insert list documents)).1 = .ok ()

theorem changeList_of_saves (list : String)
    (decision : Collections → Except StoreError (Change α)) {value : α}
    {changed : Option (List Document)}
    (decided : decision store.collections = .ok { answer := value, documents := changed })
    (saves : ∀ updated, changed = some updated → Saves list updated (store, medium)) :
    (changeList list decision (store, medium)).1 = .ok value ∧
      (changeList list decision (store, medium)).2.1 =
        (changed.map (store.withDocuments list)).getD store := by
  rw [changeList_apply, decided]
  cases changed with
  | none => exact ⟨rfl, rfl⟩
  | some updated => exact adopt_of_saved (saves updated rfl)

theorem changeList_refused {decision : Collections → Except StoreError (Change α)}
    {cause : StoreError} (decided : decision store.collections = .error cause) :
    changeList list decision (store, medium) = (.error cause, store, medium) := by
  rw [changeList_apply, decided]

theorem changeList_unless (decision : Collections → Except StoreError (Change α))
    (found : store.collections[list]? = some documents)
    {idle : Prop} [Decidable idle] {value : α} {updated : List Document}
    (decided : decision store.collections =
      .ok { answer := value, documents := if idle then none else some updated })
    (same : idle → updated = documents) (saves : ¬ idle → Saves list updated (store, medium)) :
    (changeList list decision (store, medium)).1 = .ok value ∧
      (changeList list decision (store, medium)).2.1 = store.withDocuments list updated := by
  by_cases still : idle
  · rw [if_pos still] at decided
    rw [same still, withDocuments_self found]
    exact changeList_of_saves list decision decided nofun
  · rw [if_neg still] at decided
    apply changeList_of_saves list decision decided
    intro documents changed
    rw [← Option.some.inj changed]
    exact saves still

/-! ## What each request does -/

/-- A deletion answers with the number of documents that a query finds, and leaves the others in their
order. Then the query finds nothing, and another deletion has nothing to do. -/
structure Deletes (list : String) (filter : Predicate) (documents : List Document)
    (state : Store × σ) : Prop where
  answer : (delete list filter state).1 = .ok (documents.filter filter.accepts).length
  store : (delete list filter state).2.1 = state.1.withDocuments list
    (documents.filter fun document => !filter.accepts document)
  findsNothing : (find list { filter } (delete list filter state).2).1 = .ok []
  again : delete list filter (delete list filter state).2 = (.ok 0, (delete list filter state).2)

/-- An update of all documents answers with the number of those that a query finds, and merges its data
into each of these. -/
structure UpdatesAll (list : String) (filter : Predicate) (data : Document)
    (documents : List Document) (state : Store × σ) : Prop where
  answer : (updateMany list { filter, data } state).1 = .ok (documents.filter filter.accepts).length
  store : (updateMany list { filter, data } state).2.1 =
    state.1.withDocuments list (documents.map (Document.mergeIf filter data))
  ids : (documents.map (Document.mergeIf filter data)).map Document.id? = documents.map Document.id?

/-- An update of one document merges its data into the first one that a query finds, and answers with
it. If the query finds none, there is nothing to do. -/
structure UpdatesFirst (list : String) (filter : Predicate) (data : Document)
    (documents : List Document) (state : Store × σ) : Prop where
  nothing : (findOne list { filter } state).1 = .ok none →
    updateOne list { filter, data } state = (.ok none, state)
  first : ∀ document, (findOne list { filter } state).1 = .ok (some document) →
    ∃ before after, documents = before ++ document :: after ∧
      (∀ earlier ∈ before, filter.accepts earlier = false) ∧
      (before ++ document.merge data :: after).map Document.id? = documents.map Document.id? ∧
      (Saves list (before ++ document.merge data :: after) state →
        (updateOne list { filter, data } state).1 = .ok (some (document.merge data)) ∧
          (updateOne list { filter, data } state).2.1 =
            state.1.withDocuments list (before ++ document.merge data :: after))

variable {filter : Predicate} {data : Document}

theorem delete_idle (found : store.collections[list]? = some documents)
    (checked : filter.checkPatterns = .ok ())
    (rejected : ∀ document ∈ documents, filter.accepts document = false) :
    delete list filter (store, medium) = (.ok 0, store, medium) := by
  have decided := Collections.delete_eq found filter
  have noneSelected : documents.countP filter.accepts = 0 :=
    List.countP_eq_zero.mpr fun document member => by simp [rejected document member]
  rw [checked, noneSelected, if_pos rfl] at decided
  rw [delete, changeList_apply, decided]
  rfl

theorem deletes (found : store.collections[list]? = some documents)
    (checked : filter.checkPatterns = .ok ())
    (saves : documents.countP filter.accepts ≠ 0 →
      Saves list (documents.filter fun document => !filter.accepts document) (store, medium)) :
    Deletes list filter documents (store, medium) := by
  have decided := Collections.delete_eq found filter
  rw [checked] at decided
  have allKept : documents.countP filter.accepts = 0 →
      (documents.filter fun document => !filter.accepts document) = documents := by
    intro noneSelected
    have rejected := List.countP_eq_zero.mp noneSelected
    exact List.filter_eq_self.mpr fun document member => by simp [rejected document member]
  have deleted := changeList_unless (fun collections => collections.delete list filter) found
    decided allKept saves
  have keptRejected : ∀ document ∈ documents.filter fun document => !filter.accepts document,
      filter.accepts document = false := by
    intro document kept
    simpa using (List.mem_filter.mp kept).2
  -- What is said of the state afterwards follows from what is in the list.
  have foundAfter : (delete list filter (store, medium)).2.1.collections[list]? =
      some (documents.filter fun document => !filter.accepts document) := by
    rw [delete, deleted.2, getElem?_withDocuments, if_pos rfl]
  have findsNothing : (find list { filter } (delete list filter (store, medium)).2).1 = .ok [] := by
    refine (Collections.find_filter foundAfter filter).trans ?_
    rw [checked, List.filter_eq_nil_iff.mpr fun document kept => by
      simp [keptRejected document kept]]
    rfl
  rw [List.countP_eq_length_filter] at deleted
  exact ⟨deleted.1, deleted.2, findsNothing, delete_idle foundAfter checked keptRejected⟩

theorem validate_of_not_contains (noId : data.contains Document.idKey = false) :
    Update.validate { filter, data } = .ok () := by
  rw [Update.validate, noId]
  rfl

theorem id?_merge {document : Document} (distinct : (Fields.keys document).Nodup)
    (distinctData : (Fields.keys data).Nodup) (noId : data.contains Document.idKey = false) :
    Document.id? (document.merge data) = document.id? := by
  have valid : Update.validate { data } = .ok () := validate_of_not_contains noId
  rw [← Fields.insertAll_eq_merge distinct distinctData]
  exact Update.id?_apply valid document

theorem updatesAll (found : store.collections[list]? = some documents)
    (checked : filter.checkPatterns = .ok ())
    (distinct : ∀ document ∈ documents, (Fields.keys document).Nodup)
    (distinctData : (Fields.keys data).Nodup) (noId : data.contains Document.idKey = false)
    (saves : documents.countP filter.accepts ≠ 0 →
      Saves list (documents.map (Document.mergeIf filter data)) (store, medium)) :
    UpdatesAll list filter data documents (store, medium) := by
  have valid : Update.validate { filter, data } = .ok () := validate_of_not_contains noId
  have decided := Collections.updateMany_eq found valid
  have merged : documents.map (Update.revise { filter, data }) =
      documents.map (Document.mergeIf filter data) := by
    apply List.map_congr_left
    intro document member
    rw [Update.revise, Update.apply, Fields.insertAll_eq_merge (distinct document member) distinctData]
    rfl
  rw [checked, merged] at decided
  have allKept : documents.countP filter.accepts = 0 →
      documents.map (Document.mergeIf filter data) = documents := by
    intro noneSelected
    have rejected := List.countP_eq_zero.mp noneSelected
    exact (List.map_congr_left fun document member => if_neg (rejected document member)).trans
      (List.map_id documents)
  have updated := changeList_unless (fun collections => collections.updateMany list { filter, data })
    found decided allKept saves
  rw [List.countP_eq_length_filter] at updated
  refine ⟨updated.1, updated.2, ?_⟩
  rw [List.map_map]
  apply List.map_congr_left
  intro document member
  rw [Function.comp_apply, Document.mergeIf]
  split
  · exact id?_merge (distinct document member) distinctData noId
  · rfl

theorem updatesFirst (found : store.collections[list]? = some documents)
    (checked : filter.checkPatterns = .ok ())
    (distinct : ∀ document ∈ documents, (Fields.keys document).Nodup)
    (distinctData : (Fields.keys data).Nodup) (noId : data.contains Document.idKey = false) :
    UpdatesFirst list filter data documents (store, medium) := by
  have valid : Update.validate { filter, data } = .ok () := validate_of_not_contains noId
  have decided := Collections.updateOne_eq found valid
  have first := Collections.findOne_filter found filter
  rw [checked, List.head?_filter] at first
  rw [checked] at decided
  constructor
  · intro nothing
    have missing : documents.find? filter.accepts = none :=
      Except.ok.inj (first.symm.trans nothing)
    rw [missing] at decided
    rw [updateOne, changeList_apply, decided]
    rfl
  · intro document foundFirst
    have here : documents.find? filter.accepts = some document :=
      Except.ok.inj (first.symm.trans foundFirst)
    rw [here] at decided
    rcases List.find?_eq_some_iff_append.mp here with ⟨accepted, before, after, split, others⟩
    have rejected : ∀ earlier ∈ before, filter.accepts earlier = false := by simpa using others
    have member : document ∈ documents := by simp [split]
    have merged : Update.apply { filter, data } document = document.merge data :=
      Fields.insertAll_eq_merge (distinct document member) distinctData
    have modified := modify_findIdx_append rejected accepted after (Update.apply { filter, data })
    rw [split, modified, merged] at decided
    refine ⟨before, after, split, rejected, ?_, ?_⟩
    · rw [split, List.map_append, List.map_append, List.map_cons, List.map_cons,
        id?_merge (distinct document member) distinctData noId]
    · intro saves
      have savesChanged : ∀ updated, some (before ++ document.merge data :: after) = some updated →
          Saves list updated (store, medium) := by
        intro updated changed
        rw [← Option.some.inj changed]
        exact saves
      have updated := changeList_of_saves list
        (fun collections => collections.updateOne list { filter, data }) decided savesChanged
      rw [merged] at updated
      exact updated

end Store

open Store

/-- A query, an update and a deletion with the same predicate act on the same documents of a list, and
on nothing else, if what is changed can be saved. A predicate with a pattern that cannot be used is
refused by all of them, and then nothing changes. -/
theorem updates_and_deletions_act_on_found_documents {σ : Type} [Medium σ] {store : Store}
    (medium : σ) {list : String} {documents : List Document}
    (found : store.collections[list]? = some documents)
    (distinct : ∀ document ∈ documents, (Fields.keys document).Nodup)
    (filter : Predicate) (data : Document)
    (distinctData : (Fields.keys data).Nodup) (noId : data.contains Document.idKey = false) :
    let state := (store, medium)
    let rows := documents.filter filter.accepts
    (find list { filter } state).1 = filter.checkPatterns.map (fun _ => rows) ∧
      (findOne list { filter } state).1 = filter.checkPatterns.map (fun _ => rows.head?) ∧
      (∀ cause, filter.checkPatterns = .error cause →
        delete list filter state = (.error cause, state) ∧
          updateMany list { filter, data } state = (.error cause, state) ∧
          updateOne list { filter, data } state = (.error cause, state)) ∧
      (filter.checkPatterns = .ok () →
        let kept := documents.filter fun document => !filter.accepts document
        let merged := documents.map (Document.mergeIf filter data)
        ((rows ≠ [] → Saves list kept state) → Deletes list filter documents state) ∧
          ((rows ≠ [] → Saves list merged state) →
            UpdatesAll list filter data documents state) ∧
          UpdatesFirst list filter data documents state) := by
  intro state rows
  have valid : Update.validate { filter, data } = .ok () := validate_of_not_contains noId
  refine ⟨Collections.find_filter found filter, Collections.findOne_filter found filter, ?_, ?_⟩
  · intro cause refused
    have deletion := Collections.delete_eq found filter
    have updateAll := Collections.updateMany_eq found valid
    have updateFirst := Collections.updateOne_eq found valid
    rw [refused] at deletion updateAll updateFirst
    exact ⟨changeList_refused deletion, changeList_refused updateAll, changeList_refused updateFirst⟩
  · intro checked kept merged
    have anyFound : documents.countP filter.accepts ≠ 0 → rows ≠ [] := by
      simp [rows]
    refine ⟨?_, ?_, updatesFirst found checked distinct distinctData noId⟩
    · intro saves
      exact deletes found checked fun counted => saves (anyFound counted)
    · intro saves
      exact updatesAll found checked distinct distinctData noId fun counted =>
        saves (anyFound counted)

private def admin : Document :=
  [("id", .int32 1), ("role", .string "admin")]

private def guest : Document :=
  [("id", .int32 2), ("role", .string "guest")]

private def otherAdmin : Document :=
  [("role", .string "admin"), ("id", .int32 3), ("name", .string "jane doe")]

private def usersStart : Store × Disk :=
  ({ collections := (∅ : Collections).insert "users" [admin, guest, otherAdmin]
     file := some "/db.json" }, Disk.empty)

theorem updates_and_deletions_of_admins :
    let filter := Predicate.fieldEquals "role" (.string "admin")
    let data : Document := [("seen", .bool true), ("role", .string "user")]
    let first : Document := [("id", .int32 1), ("role", .string "user"), ("seen", .bool true)]
    let second : Document := [("role", .string "user"), ("id", .int32 3), ("name", .string "jane doe"),
      ("seen", .bool true)]
    usersStart.1.collections["users"]? = some [admin, guest, otherAdmin] ∧
      filter.checkPatterns = .ok () ∧
      (find "users" { filter } usersStart).1 = .ok [admin, otherAdmin] ∧
      (delete "users" filter usersStart).1 = .ok 2 ∧
      (delete "users" filter usersStart).2.1 = usersStart.1.withDocuments "users" [guest] ∧
      (updateMany "users" { filter, data } usersStart).1 = .ok 2 ∧
      (updateMany "users" { filter, data } usersStart).2.1 =
        usersStart.1.withDocuments "users" [first, guest, second] ∧
      (updateOne "users" { filter, data } usersStart).1 = .ok (some first) := by
  intro filter data first second
  have found : usersStart.1.collections["users"]? = some [admin, guest, otherAdmin] := by
    with_unfolding_all rfl
  have saves : ∀ documents, Saves "users" documents usersStart := fun documents => rfl
  have acts := updates_and_deletions_act_on_found_documents usersStart.2 found (by decide) filter
    data (by decide) rfl
  rcases acts with ⟨finds, findsFirst, _, acts⟩
  rcases acts rfl with ⟨deletes, updatesAll, updatesFirst⟩
  have deletes := deletes fun _ => saves _
  have updatesAll := updatesAll fun _ => saves _
  rcases updatesFirst.first admin (findsFirst.trans rfl) with ⟨_, _, _, _, _, updates⟩
  exact ⟨found, rfl, finds.trans rfl, deletes.answer.trans rfl, deletes.store.trans rfl,
    updatesAll.answer.trans rfl, updatesAll.store.trans rfl, (updates (saves _)).1.trans rfl⟩

end DocStore

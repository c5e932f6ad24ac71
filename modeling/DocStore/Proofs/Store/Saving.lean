import DocStore.Proofs.Session
import DocStore.Store.Basic

/-!
Saving. Memory is changed before the change is saved, and put back if it cannot be saved. Seen from
outside, collections are adopted only once they are saved.
-/

namespace DocStore

namespace Collections

/-! ## Undoing -/

variable (collections : Collections)

theorem revert_insert (list : String) (documents : List Document) :
    (collections.remember list).revert (collections.insert list documents) = collections := by
  unfold Undo.revert remember
  apply Std.ExtTreeMap.ext_getElem?
  intro name
  cases found : collections[list]? with
  | some previous =>
      by_cases same : list = name
      · subst same
        simp [found]
      · simp [Std.ExtTreeMap.getElem?_insert, same]
  | none =>
      by_cases same : list = name
      · subst same
        simp [found]
      · simp [Std.ExtTreeMap.getElem?_insert, Std.ExtTreeMap.getElem?_erase, same]

theorem insert_erase {list : String} {documents : List Document}
    (found : collections[list]? = some documents) :
    (collections.erase list).insert list documents = collections := by
  apply Std.ExtTreeMap.ext_getElem?
  intro name
  by_cases same : list = name
  · subst same
    simp [found]
  · simp [Std.ExtTreeMap.getElem?_insert, Std.ExtTreeMap.getElem?_erase, same]

theorem getElem?_withLists (lists : List String) (name : String) :
    (collections.withLists lists)[name]? = if name ∈ lists then some [] else collections[name]? := by
  induction lists generalizing collections with
  | nil => rfl
  | cons list lists induction =>
      have step : collections.withLists (list :: lists) =
          withLists (collections.insert list []) lists := rfl
      rw [step, induction, Std.ExtTreeMap.getElem?_insert]
      by_cases same : list = name
      · subst same
        simp
      · simp [same, Ne.symm same]

theorem getElem?_withoutLists (lists : List String) (name : String) :
    (collections.withoutLists lists)[name]? = if name ∈ lists then none else collections[name]? := by
  induction lists generalizing collections with
  | nil => rfl
  | cons list lists induction =>
      have step : collections.withoutLists (list :: lists) =
          withoutLists (collections.erase list) lists := rfl
      rw [step, induction, Std.ExtTreeMap.getElem?_erase]
      by_cases same : list = name
      · subst same
        simp
      · simp [same, Ne.symm same]

theorem withoutLists_withLists_missing (lists : List String) :
    (collections.withLists (collections.missing lists)).withoutLists (collections.missing lists) =
      collections := by
  apply Std.ExtTreeMap.ext_getElem?
  intro name
  rw [getElem?_withoutLists, getElem?_withLists]
  by_cases added : name ∈ collections.missing lists
  · have absent : collections.contains name = false := by
      simpa [knows] using (List.mem_filter.mp added).2
    rw [if_pos added, Std.ExtTreeMap.getElem?_eq_none_of_contains_eq_false absent]
  · rw [if_neg added, if_neg added]

/-! ## Documents of a list -/

section

variable {collections : Collections} {list name : String}

theorem documentsOrEmpty_of_found {documents : List Document}
    (found : collections[list]? = some documents) : collections.documentsOrEmpty list = documents := by
  rw [documentsOrEmpty, found]
  rfl

theorem exists_found_of_mem {document : Document}
    (member : document ∈ collections.documentsOrEmpty list) :
    ∃ documents, collections[list]? = some documents := by
  rw [documentsOrEmpty] at member
  cases found : collections[list]? with
  | none =>
      rw [found] at member
      cases member
  | some documents => exact ⟨documents, rfl⟩

theorem knows_iff_exists_found :
    collections.knows list = true ↔ ∃ documents, collections[list]? = some documents := by
  rw [knows, Std.ExtTreeMap.contains_eq_isSome_getElem?, Option.isSome_iff_exists]

theorem documentsOrEmpty_insert (documents : List Document) :
    documentsOrEmpty (collections.insert name documents) list =
      if name = list then documents else collections.documentsOrEmpty list := by
  rw [documentsOrEmpty, Std.ExtTreeMap.getElem?_insert]
  by_cases same : name = list
  · simp [same]
  · simp [same, documentsOrEmpty]

theorem documentsOrEmpty_erase :
    documentsOrEmpty (collections.erase name) list =
      if name = list then [] else collections.documentsOrEmpty list := by
  rw [documentsOrEmpty, Std.ExtTreeMap.getElem?_erase]
  by_cases same : name = list
  · simp [same]
  · simp [same, documentsOrEmpty]

theorem knows_withLists_iff (lists : List String) :
    (collections.withLists lists).knows list = true ↔ list ∈ lists ∨ collections.knows list = true := by
  rw [knows, Std.ExtTreeMap.contains_eq_isSome_getElem?, getElem?_withLists]
  split
  · next added => simp [added]
  · next other =>
    rw [Std.ExtTreeMap.isSome_getElem?_eq_contains]
    exact (or_iff_right other).symm

theorem documentsOrEmpty_withLists (lists : List String) :
    (collections.withLists (collections.missing lists)).documentsOrEmpty list =
      collections.documentsOrEmpty list := by
  rw [documentsOrEmpty, getElem?_withLists]
  split
  · next added =>
    have absent : collections.contains list = false := by
      simpa [knows] using (List.mem_filter.mp added).2
    rw [documentsOrEmpty, Std.ExtTreeMap.getElem?_eq_none_of_contains_eq_false absent]
    rfl
  · rfl

end

/-! ## What holds of every list -/

def Each (holds : List Document → Prop) (collections : Collections) : Prop :=
  ∀ (list : String) (documents : List Document), collections[list]? = some documents →
    holds documents

variable {collections : Collections} {holds : List Document → Prop} {list : String}

theorem each_iff : collections.Each holds ↔ ∀ entry ∈ collections.toList, holds entry.2 := by
  constructor
  · rintro each ⟨list, documents⟩ member
    exact each list documents (Std.ExtTreeMap.mem_toList_iff_getElem?_eq_some.mp member)
  · intro each list documents found
    exact each (list, documents) (Std.ExtTreeMap.mem_toList_iff_getElem?_eq_some.mpr found)

instance [DecidablePred holds] : Decidable (collections.Each holds) :=
  decidable_of_iff _ each_iff.symm

theorem each_empty : Each holds (∅ : Collections) := by
  intro list documents found
  cases Std.ExtTreeMap.getElem?_empty.symm.trans found

theorem each_insert {documents : List Document} (each : collections.Each holds)
    (here : holds documents) : Each holds (collections.insert list documents) := by
  intro name found present
  rw [Std.ExtTreeMap.getElem?_insert] at present
  split at present
  · cases present
    exact here
  · exact each name found present

theorem each_erase (each : collections.Each holds) : Each holds (collections.erase list) := by
  intro name found present
  rw [Std.ExtTreeMap.getElem?_erase] at present
  split at present
  · cases present
  · exact each name found present

theorem each_withLists (each : collections.Each holds) (empty : holds []) (lists : List String) :
    (collections.withLists lists).Each holds := by
  intro name found present
  rw [getElem?_withLists] at present
  split at present
  · cases present
    exact empty
  · exact each name found present

theorem holds_documentsOrEmpty (each : collections.Each holds) (empty : holds []) (list : String) :
    holds (collections.documentsOrEmpty list) := by
  rw [documentsOrEmpty]
  cases found : collections[list]? with
  | none => exact empty
  | some documents => exact each list documents found

end Collections

namespace Store

/-! ## Steps -/

variable {σ α γ : Type}

theorem get_bind_apply (next : Store × σ → Session Store σ α) (state : Store × σ) :
    ((do let reached ← get; next reached) : Session Store σ α) state = next state state := rfl

theorem answer_bind_apply (query : Collections → Except StoreError γ)
    (next : γ → Session Store σ α) (store : Store) (medium : σ) :
    (answer query >>= next) (store, medium) =
      match query store.collections with
      | .error cause => (.error cause, store, medium)
      | .ok value => next value (store, medium) := by
  rw [Session.bind_apply, answer]
  cases query store.collections with
  | error cause => rfl
  | ok value => rfl

theorem amend_bind_apply (change : Collections → Collections) (next : Unit → Session Store σ α)
    (store : Store) (medium : σ) :
    (amend change >>= next) (store, medium) =
      next () ({ store with collections := change store.collections }, medium) := rfl

/-! ## Adopting what is saved -/

variable [Medium σ]

def saving (medium : σ) : (file : Option String) → Collections → Except StoreError Unit × σ
  | none, _ => (.ok (), medium)
  | some path, collections => Snapshot.save medium path collections

/-- Saves collections and then adopts them. If they cannot be saved, the store keeps what it has. -/
def adopt (value : α) (next : Collections) : Session Store σ α := fun (store, medium) =>
  match saving medium store.file next with
  | (.ok (), medium) => (.ok value, { store with collections := next }, medium)
  | (.error cause, medium) => (.error cause, store, medium)

theorem persist_apply (store : Store) (medium : σ) :
    persist (store, medium) =
      ((saving medium store.file store.collections).1, store,
        (saving medium store.file store.collections).2) := by
  rcases store with ⟨collections, file⟩
  cases file with
  | none => rfl
  | some path => rfl

theorem adopt_apply (value : α) (next : Collections) (store : Store) (medium : σ) :
    adopt value next (store, medium) =
      match saving medium store.file next with
      | (.ok (), medium) => (.ok value, { store with collections := next }, medium)
      | (.error cause, medium) => (.error cause, store, medium) := rfl

theorem store_adopt_same (value : α) (store : Store) (medium : σ) :
    (adopt value store.collections (store, medium)).2.1 = store := by
  rw [adopt_apply]
  split
  · rfl
  · rfl

theorem holds_adopt (holds : Collections → Prop) {value : α} {next : Collections} {store : Store}
    {medium : σ} (before : holds store.collections) (after : holds next) :
    holds (adopt value next (store, medium)).2.1.collections := by
  rw [adopt_apply]
  rcases saving medium store.file next with ⟨cause | _, written⟩
  · exact before
  · exact after

theorem adopt_of_saved {value : α} {next : Collections} {store : Store} {medium : σ}
    (saved : (saving medium store.file next).1 = .ok ()) :
    (adopt value next (store, medium)).1 = .ok value ∧
      (adopt value next (store, medium)).2.1 = { store with collections := next } := by
  rw [adopt_apply]
  generalize saving medium store.file next = result at saved
  rcases result with ⟨cause | _, written⟩
  · cases saved
  · exact ⟨rfl, rfl⟩

theorem saved_of_adopt_eq_ok {value answer : α} {next : Collections} {store : Store} {medium : σ}
    (adopted : (adopt value next (store, medium)).1 = .ok answer) :
    (saving medium store.file next).1 = .ok () ∧ value = answer := by
  rw [adopt_apply] at adopted
  generalize saving medium store.file next = result at adopted
  rcases result with ⟨cause | _, written⟩
  · cases adopted
  · exact ⟨rfl, Except.ok.inj adopted⟩

/-- A change in memory that is undone if it cannot be saved has the same effect. -/
theorem amend_persist_eq_adopt {change undo : Collections → Collections} {store : Store}
    (undone : undo (change store.collections) = store.collections) (medium : σ) :
    ((do
        amend change
        tryCatch persist fun cause => do
          amend undo
          throw cause) : Session Store σ Unit) (store, medium) =
      adopt () (change store.collections) (store, medium) := by
  rw [amend_bind_apply, Session.tryCatch_apply, persist_apply, adopt_apply]
  simp only
  generalize saving medium store.file (change store.collections) = saved
  rcases saved with ⟨cause | _, written⟩
  · simp only [amend_bind_apply, undone]
    rfl
  · rfl

theorem amend_commit_eq_adopt (change : Collections → Collections) {store : Store} {undo : Undo}
    (undone : undo.revert (change store.collections) = store.collections) (medium : σ) :
    ((do
        amend change
        commit (store.file.map fun _ => undo)) : Session Store σ Unit) (store, medium) =
      adopt () (change store.collections) (store, medium) := by
  rcases store with ⟨collections, file⟩
  cases file with
  | none => rfl
  | some path => exact amend_persist_eq_adopt undone medium

theorem adopt_bind_apply {work : Session Store σ Unit} {next : Collections} {state : Store × σ}
    (adopted : work state = adopt () next state) (value : α) :
    ((do work; return value) : Session Store σ α) state = adopt value next state := by
  rcases state with ⟨store, medium⟩
  rw [Session.bind_apply, adopted, adopt_apply, adopt_apply]
  rcases saving medium store.file next with ⟨cause | _, written⟩
  · rfl
  · rfl

/-! ## Operations that change lists -/

theorem changeList_apply (list : String) (decision : Collections → Except StoreError (Change α))
    (store : Store) (medium : σ) :
    changeList list decision (store, medium) =
      match decision store.collections with
      | .error cause => (.error cause, store, medium)
      | .ok { answer := value, documents := none } => (.ok value, store, medium)
      | .ok { answer := value, documents := some documents } =>
          adopt value (store.collections.insert list documents) (store, medium) := by
  rw [changeList, get_bind_apply]
  refine (answer_bind_apply decision _ store medium).trans ?_
  rcases decision store.collections with cause | ⟨value, _ | documents⟩
  · rfl
  · rfl
  · have undone := Collections.revert_insert store.collections list documents
    exact adopt_bind_apply
      (amend_commit_eq_adopt (fun collections => collections.insert list documents) undone medium)
      value

theorem prepare_apply (lists : List String) (store : Store) (medium : σ) :
    prepare lists (store, medium) =
      adopt () (store.collections.withLists (store.collections.missing lists))
        (store, medium) := by
  rw [prepare, answer_bind_apply]
  exact amend_persist_eq_adopt (store.collections.withoutLists_withLists_missing lists) medium

theorem removeList_apply (list : String) (store : Store) (medium : σ) :
    removeList list (store, medium) =
      match store.collections.documents list with
      | .error cause => (.error cause, store, medium)
      | .ok _ => adopt () (store.collections.erase list) (store, medium) := by
  rw [removeList, answer_bind_apply]
  cases found : store.collections[list]? with
  | none => simp [Collections.documents, found]
  | some documents =>
      have undone : Undo.revert { list, previous := some documents }
          (store.collections.erase list) = store.collections :=
        Collections.insert_erase store.collections found
      simp only [Collections.documents, found]
      exact amend_commit_eq_adopt (fun collections => collections.erase list) undone medium

theorem close_apply (store : Store) (medium : σ) :
    close (store, medium) = adopt true store.collections (store, medium) := by
  refine adopt_bind_apply ?_ true
  rw [persist_apply, adopt_apply]
  rcases saving medium store.file store.collections with ⟨cause | _, written⟩
  · rfl
  · rfl

end Store

end DocStore

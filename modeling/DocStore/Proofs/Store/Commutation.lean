import DocStore.Medium.Disk
import DocStore.Proofs.Store.Atomicity
import DocStore.Proofs.Store.Mirror

/-!
Requests that change different lists. Such a request decides from the contents of its list what becomes
of it, and of nothing else, so that two of them give the same answers in either order, and leave the
same collections and the same snapshot.
-/

namespace DocStore

/-! ## Contents of one list -/

namespace Collections

variable {collections others : Collections} {list : String}

def withContents (collections : Collections) (list : String) :
    (contents : Option (List Document)) → Collections
  | some documents => collections.insert list documents
  | none => collections.erase list

theorem getElem?_withContents (contents : Option (List Document)) (name : String) :
    (collections.withContents list contents)[name]? =
      if list = name then contents else collections[name]? := by
  cases contents with
  | none => simp [withContents, Std.ExtTreeMap.getElem?_erase]
  | some documents => simp [withContents, Std.ExtTreeMap.getElem?_insert]

/-! ## Decisions that read one list -/

def Reads {α : Type} (list : String) (decision : Collections → α) : Prop :=
  ∀ ⦃collections others : Collections⦄, collections[list]? = others[list]? →
    decision collections = decision others

theorem Reads.comp {α β : Type} {decision : Collections → α} (reads : Reads list decision)
    (next : α → β) : Reads list fun collections => next (decision collections) :=
  fun _ _ same => congrArg next (reads same)

theorem reads_knows (list : String) : Reads list fun collections => collections.knows list := by
  intro collections others same
  simp only [knows, Std.ExtTreeMap.contains_eq_isSome_getElem?, same]

theorem reads_documents (list : String) :
    Reads list fun collections => collections.documents list := by
  intro collections others same
  simp only [documents, same]

theorem reads_addList (ids : IdSupply) (list : String) (documents : List Document) :
    Reads list fun collections => collections.addList ids list documents := by
  intro collections others same
  have known : collections.knows list = others.knows list := reads_knows list same
  simp only [addList, known]

theorem reads_append (list : String) (documents : List Document) :
    Reads list fun collections => collections.append list documents := by
  intro collections others same
  simp only [append, documentsOrEmpty, same]

theorem reads_updateOne (list : String) (update : Update) :
    Reads list fun collections => collections.updateOne list update := by
  intro collections others same
  have found : collections.documents list = others.documents list := reads_documents list same
  simp only [updateOne, found]

theorem reads_updateMany (list : String) (update : Update) :
    Reads list fun collections => collections.updateMany list update := by
  intro collections others same
  have found : collections.documents list = others.documents list := reads_documents list same
  simp only [updateMany, found]

theorem reads_delete (list : String) (filter : Predicate) :
    Reads list fun collections => collections.delete list filter := by
  intro collections others same
  have found : collections.documents list = others.documents list := reads_documents list same
  simp only [delete, found]

end Collections

/-! ## Requests that change one list -/

/-- What a request decides about its list. -/
structure Decision where
  answer : Answer
  contents : Option (Option (List Document))

def Decision.ofChange {α : Type} (answer : α → Answer) (change : Change α) : Decision where
  answer := answer change.answer
  contents := change.documents.map some

namespace Request

/-- The list that a request changes; none if it may change others. A creation changes one list if its
documents have no children. -/
def changedList? : Request → Option String
  | createList _ list _ | removeList list | create _ list _ _ | updateOne list _
  | updateMany list _ | delete list _ => some list
  | prepare _ | listNames | find _ _ | findOne _ _ | close => none

def decided (collections : Collections) : Request → Except StoreError Decision
  | createList ids list documents =>
      (collections.addList ids list documents).map (.ofChange fun _ => .done)
  | removeList list =>
      (collections.documents list).map fun _ => { answer := .done, contents := some none }
  | create ids list requested reply =>
      (collections.append list (ids.identify requested.toList)).map
        (.ofChange fun _ => .created (.of requested reply (ids.identify requested.toList)))
  | updateOne list update => (collections.updateOne list update).map (.ofChange .document)
  | updateMany list update => (collections.updateMany list update).map (.ofChange .count)
  | delete list filter => (collections.delete list filter).map (.ofChange .count)
  | prepare _ | listNames | find _ _ | findOne _ _ | close => .ok { answer := .done, contents := none }

variable {request : Request} {list : String}

theorem reads_decided (changes : request.changedList? = some list) :
    Collections.Reads list fun collections => request.decided collections := by
  intro collections others same
  cases request with
  | createList ids name documents =>
      cases changes
      exact Collections.Reads.comp (Collections.reads_addList ids list documents) (Except.map _) same
  | removeList name =>
      cases changes
      exact Collections.Reads.comp (Collections.reads_documents list) (Except.map _) same
  | create ids name requested reply =>
      cases changes
      exact Collections.Reads.comp (Collections.reads_append list _) (Except.map _) same
  | updateOne name update =>
      cases changes
      exact Collections.Reads.comp (Collections.reads_updateOne list update) (Except.map _) same
  | updateMany name update =>
      cases changes
      exact Collections.Reads.comp (Collections.reads_updateMany list update) (Except.map _) same
  | delete name filter =>
      cases changes
      exact Collections.Reads.comp (Collections.reads_delete list filter) (Except.map _) same
  | _ => cases changes

end Request

namespace Store

variable {σ α : Type} [Medium σ]

/-- Does what was decided about a list. -/
def carryOut (list : String) (decided : Except StoreError Decision) : Session Store σ Answer :=
  fun (store, medium) =>
    match decided with
    | .error cause => (.error cause, store, medium)
    | .ok { answer, contents := none } => (.ok answer, store, medium)
    | .ok { answer, contents := some contents } =>
        adopt answer (store.collections.withContents list contents) (store, medium)

theorem map_adopt (change : α → Answer) (value : α) (next : Collections) (state : Store × σ) :
    ((adopt value next state).1.map change, (adopt value next state).2) =
      adopt (change value) next state := by
  rcases state with ⟨store, medium⟩
  rw [adopt_apply, adopt_apply]
  rcases saving medium store.file next with ⟨cause | _, written⟩
  · rfl
  · rfl

theorem map_changeList_eq_carryOut (answer : α → Answer) (list : String)
    (decision : Collections → Except StoreError (Change α)) (store : Store) (medium : σ) :
    (answer <$> changeList list decision : Session Store σ Answer) (store, medium) =
      carryOut list ((decision store.collections).map (.ofChange answer)) (store, medium) := by
  rw [Session.map_apply, changeList_apply]
  rcases decision store.collections with cause | ⟨value, _ | documents⟩
  · rfl
  · rfl
  · exact map_adopt answer value _ (store, medium)

end Store

namespace Request

variable {σ : Type} [Medium σ] {request : Request} {list : String} {store : Store}

theorem run_eq_carryOut (changes : request.changedList? = some list)
    (flat : request.IsFlat store.collections) (medium : σ) :
    request.run (store, medium) =
      Store.carryOut list (request.decided store.collections) (store, medium) := by
  cases request with
  | createList ids name documents =>
      cases changes
      exact Store.map_changeList_eq_carryOut _ list _ store medium
  | removeList name =>
      cases changes
      rw [run, Session.map_apply, Store.removeList_apply, decided]
      cases store.collections.documents list with
      | error cause => rfl
      | ok documents => exact Store.map_adopt (fun _ => .done) () _ (store, medium)
  | create ids name requested reply =>
      cases changes
      have batch := Store.map_changeList_eq_carryOut
        (fun _ => .created (.of requested reply (ids.identify requested.toList))) list
        (fun collections => collections.append list (ids.identify requested.toList)) store medium
      rw [decided, ← batch, run, Store.create, bind_pure_comp, Session.map_apply, Session.map_apply,
        Store.createIn_flat flat, bind_pure_comp, Session.map_apply, Session.map_apply]
      rcases (Store.changeList list fun collections =>
        collections.append list (ids.identify requested.toList)) (store, medium) with ⟨cause | _, reached⟩
      · rfl
      · rfl
  | updateOne name update =>
      cases changes
      exact Store.map_changeList_eq_carryOut _ list _ store medium
  | updateMany name update =>
      cases changes
      exact Store.map_changeList_eq_carryOut _ list _ store medium
  | delete name filter =>
      cases changes
      exact Store.map_changeList_eq_carryOut _ list _ store medium
  | _ => cases changes

theorem run_create_flat {ids : IdSupply} {requested : NewDocuments} {reply : Reply}
    (flat : (create ids list requested reply).IsFlat store.collections) (medium : σ) :
    let identified := ids.identify requested.toList
    let present := store.collections.documentsOrEmpty list
    (create ids list requested reply).run (store, medium) =
      match Collections.checkIds list present identified with
      | .error cause => (.error cause, store, medium)
      | .ok () => Store.adopt (.created (.of requested reply identified))
          (store.collections.insert list (present ++ identified)) (store, medium) := by
  intro identified present
  rw [run_eq_carryOut rfl flat, decided, Collections.append]
  cases Collections.checkIds list present identified with
  | error cause => rfl
  | ok => rfl

theorem IsFlat.mono {collections larger : Collections} (flat : request.IsFlat larger)
    (grows : ∀ name, collections.knows name = true → larger.knows name = true) :
    request.IsFlat collections := by
  cases request with
  | create ids name requested reply =>
      intro document member
      exact Document.nestedFields_mono grows (flat document member)
  | _ => trivial

end Request

/-! ## Requests that are saved -/

/-- Whether a change could not be saved. -/
def Step.failedToSave {σ : Type} (step : Step σ) : Bool :=
  match step.outcome with
  | .error (.persistence _ _) => true
  | _ => false

def Decision.change? (decided : Except StoreError Decision) : Option (Option (List Document)) :=
  decided.toOption.bind Decision.contents

namespace Collections

variable {collections : Collections} {list other : String}

def changed (collections : Collections) (list : String) :
    (change : Option (Option (List Document))) → Collections
  | none => collections
  | some contents => collections.withContents list contents

theorem getElem?_changed (change : Option (Option (List Document))) (name : String) :
    (collections.changed list change)[name]? =
      if list = name then change.getD collections[name]? else collections[name]? := by
  cases change with
  | none => exact (ite_self _).symm
  | some contents => exact getElem?_withContents contents name

theorem changed_changed (different : list ≠ other) (change change' : Option (Option (List Document))) :
    (collections.changed list change).changed other change' =
      (collections.changed other change').changed list change := by
  apply Std.ExtTreeMap.ext_getElem?
  intro name
  simp only [getElem?_changed]
  by_cases here : list = name
  · have there : other ≠ name := here ▸ different.symm
    simp only [if_pos here, if_neg there]
  · simp only [if_neg here]

theorem knows_changed {change : Option (Option (List Document))} {name : String}
    (known : (collections.changed list change).knows name = true) :
    name = list ∨ collections.knows name = true := by
  rw [knows_iff_exists_found, getElem?_changed] at known
  split at known
  · next same => exact .inl same.symm
  · exact .inr (knows_iff_exists_found.mpr known)

end Collections

namespace Store

variable {σ : Type} [Medium σ]

theorem exists_of_saving_error {medium : σ} {file : Option String} {collections : Collections}
    {cause : StoreError} (failed : (saving medium file collections).1 = .error cause) :
    ∃ step path, cause = .persistence step path := by
  cases file with
  | none => cases failed
  | some path =>
      rw [saving, Snapshot.save] at failed
      split at failed
      · cases failed
        exact ⟨_, _, rfl⟩
      · split at failed
        · cases failed
          exact ⟨_, _, rfl⟩
        · cases failed

end Store

namespace Request

variable {σ : Type} [Medium σ] {request x y : Request} {list first second : String}
  {state : Store × σ}

/-- What a request does to the list that it changes: its answer, the collections and, if the store
keeps a snapshot, its text. -/
structure Performs (list : String) (decided : Except StoreError Decision) (step : Step σ) : Prop where
  outcome : step.outcome = decided.map Decision.answer
  store : step.after.1 = { step.before.1 with
    collections := step.before.1.collections.changed list (Decision.change? decided) }
  text : ∀ path, step.before.1.file = some path → Medium.read step.after.2 (Path.ofText path) =
    if (Decision.change? decided).isSome then .text (Snapshot.render step.after.1.collections)
    else Medium.read step.before.2 (Path.ofText path)

theorem Performs.andThen {decidedFirst decidedSecond : Except StoreError Decision}
    (begins : Performs first decidedFirst (x.step state))
    (ends : Performs second decidedSecond (y.step (x.step state).after)) :
    let changeFirst := Decision.change? decidedFirst
    let changeSecond := Decision.change? decidedSecond
    (reached [x, y] state).1 = { state.1 with
        collections := (state.1.collections.changed first changeFirst).changed second changeSecond } ∧
      ∀ path, state.1.file = some path →
        Medium.read (reached [x, y] state).2 (Path.ofText path) =
          if changeFirst.isSome || changeSecond.isSome then
            .text (Snapshot.render (reached [x, y] state).1.collections)
          else Medium.read state.2 (Path.ofText path) := by
  intro changeFirst changeSecond
  have found : (y.step (x.step state).after).before.1 = { state.1 with
      collections := state.1.collections.changed first changeFirst } := begins.store
  have final : (reached [x, y] state).1 = { state.1 with
      collections := (state.1.collections.changed first changeFirst).changed second changeSecond } := by
    refine ends.store.trans ?_
    rw [found]
  refine ⟨final, fun path keeps => ?_⟩
  have keepsBetween : (y.step (x.step state).after).before.1.file = some path := by
    rw [found]
    exact keeps
  refine (ends.text path keepsBetween).trans ?_
  rcases changes : Decision.change? decidedSecond with _ | contents
  · -- The second request leaves the collections and the text of the first one.
    have same : (reached [x, y] state).1.collections = (x.step state).after.1.collections := by
      rw [final, begins.store, show changeSecond = none from changes]
      rfl
    refine (begins.text path keeps).trans ?_
    rw [same, show changeSecond = none from changes, Option.isSome_none, Bool.or_false]
    rfl
  · rw [show changeSecond = some contents from changes, Option.isSome_some, Bool.or_true]
    rfl

variable [LawfulMedium σ]

theorem performs_step (changes : request.changedList? = some list)
    (flat : request.IsFlat state.1.collections)
    (saved : (request.step state).failedToSave = false) :
    Performs list (request.decided state.1.collections) (request.step state) := by
  rcases state with ⟨store, medium⟩
  have ran := run_eq_carryOut changes flat medium
  rcases made : request.decided store.collections with cause | ⟨answer, _ | contents⟩
  · rw [made] at ran
    exact ⟨congrArg Prod.fst ran, congrArg (·.2.1) ran, fun path _ => by
      exact congrArg (fun result => Medium.read result.2.2 (Path.ofText path)) ran⟩
  · rw [made] at ran
    exact ⟨congrArg Prod.fst ran, congrArg (·.2.1) ran, fun path _ => by
      exact congrArg (fun result => Medium.read result.2.2 (Path.ofText path)) ran⟩
  · rw [made, Store.carryOut] at ran
    rw [Store.adopt_apply] at ran
    rcases written : Store.saving medium store.file
      (store.collections.withContents list contents) with ⟨cause | _, reached⟩
    · rcases Store.exists_of_saving_error (congrArg Prod.fst written) with ⟨failing, path, rfl⟩
      rw [written] at ran
      rw [Step.failedToSave, step, ran] at saved
      cases saved
    · rw [written] at ran
      refine ⟨congrArg Prod.fst ran, congrArg (·.2.1) ran, fun path keeps => ?_⟩
      have read := Snapshot.read_save medium path (store.collections.withContents list contents)
      change store.file = some path at keeps
      rw [keeps, Store.saving] at written
      rw [written] at read
      rw [step, ran]
      exact read

theorem performs_both {lists : List String} (member : first ∈ lists) (different : first ≠ second)
    (changesFirst : x.changedList? = some first) (changesSecond : y.changedList? = some second)
    (flatFirst : x.IsFlat (state.1.collections.withLists lists))
    (flatSecond : y.IsFlat (state.1.collections.withLists lists))
    (saved : ∀ step ∈ steps [x, y] state, step.failedToSave = false) :
    let decidedFirst := x.decided state.1.collections
    let decidedSecond := y.decided state.1.collections
    let changeFirst := Decision.change? decidedFirst
    let changeSecond := Decision.change? decidedSecond
    (steps [x, y] state).map Step.outcome =
        [decidedFirst.map Decision.answer, decidedSecond.map Decision.answer] ∧
      (reached [x, y] state).1 = { state.1 with
        collections := (state.1.collections.changed first changeFirst).changed second changeSecond } ∧
      ∀ path, state.1.file = some path →
        Medium.read (reached [x, y] state).2 (Path.ofText path) =
          if changeFirst.isSome || changeSecond.isSome then
            .text (Snapshot.render (reached [x, y] state).1.collections)
          else Medium.read state.2 (Path.ofText path) := by
  intro decidedFirst decidedSecond changeFirst changeSecond
  have knownThere (name : String) (known : name = first ∨ state.1.collections.knows name = true) :
      (state.1.collections.withLists lists).knows name = true := by
    rw [Collections.knows_withLists_iff]
    rcases known with rfl | known
    · exact .inl member
    · exact .inr known
  have performsFirst : Performs first decidedFirst (x.step state) := by
    refine performs_step changesFirst ?_ (saved _ List.mem_cons_self)
    exact flatFirst.mono fun name known => knownThere name (.inr known)
  -- The second list is as it was, so that what is decided about it is what would have been at first.
  have between : (x.step state).after.1.collections = state.1.collections.changed first changeFirst :=
    congrArg Store.collections performsFirst.store
  have sameDecision : y.decided (x.step state).after.1.collections = decidedSecond := by
    apply reads_decided changesSecond
    rw [between, Collections.getElem?_changed, if_neg different]
  have performsSecond : Performs second decidedSecond (y.step (x.step state).after) := by
    rw [← sameDecision]
    refine performs_step changesSecond ?_ (saved _ (List.mem_cons_of_mem _ List.mem_cons_self))
    refine flatSecond.mono fun name known => knownThere name ?_
    rw [between] at known
    exact Collections.knows_changed known
  refine ⟨?_, performsFirst.andThen performsSecond⟩
  rw [steps, steps, steps, List.map_cons, List.map_cons, List.map_nil, performsFirst.outcome,
    performsSecond.outcome]

end Request

/-- Two requests that change different lists, whether they succeed or not, give the same answers in
either order, and leave the same collections and the same text of the snapshot, if all that they change
is saved. A creation changes one list if its documents hold no array under the name of a list that is
there or of one of the two. -/
theorem changes_of_different_lists_commute {σ : Type} [Medium σ] [LawfulMedium σ] {x y : Request}
    {first second : String} (different : first ≠ second) (changesFirst : x.changedList? = some first)
    (changesSecond : y.changedList? = some second) {state : Store × σ}
    (flatFirst : x.IsFlat (state.1.collections.withLists [first, second]))
    (flatSecond : y.IsFlat (state.1.collections.withLists [first, second]))
    (saved : ∀ step ∈ steps [x, y] state ++ steps [y, x] state, step.failedToSave = false) :
    (steps [x, y] state).map Step.outcome = ((steps [y, x] state).map Step.outcome).reverse ∧
      (reached [x, y] state).1 = (reached [y, x] state).1 ∧
      ∀ path, state.1.file = some path → Medium.read (reached [x, y] state).2 (Path.ofText path) =
        Medium.read (reached [y, x] state).2 (Path.ofText path) := by
  have inOrder := Request.performs_both List.mem_cons_self different changesFirst changesSecond
    flatFirst flatSecond fun step member => saved step (List.mem_append_left _ member)
  have reversed := Request.performs_both (List.mem_cons_of_mem _ List.mem_cons_self) different.symm
    changesSecond changesFirst flatSecond flatFirst
    fun step member => saved step (List.mem_append_right _ member)
  have store : (reached [x, y] state).1 = (reached [y, x] state).1 := by
    rw [inOrder.2.1, reversed.2.1, Collections.changed_changed different]
  refine ⟨?_, store, fun path keeps => ?_⟩
  · rw [inOrder.1, reversed.1]
    rfl
  · rw [inOrder.2.2 path keeps, reversed.2.2 path keeps, store, Bool.or_comm]

private def messagesStart : Store × Disk :=
  ({ collections := (∅ : Collections).insert "messages" [[("id", .int32 1)], [("id", .int32 2)]]
     file := some "/db.json" }, Disk.empty)

theorem new_list_and_deletion_commute :
    let newList : Request := .createList (.seeded 0) "users" [[("id", .int32 7)]]
    let deletion : Request := .delete "messages" (.fieldEquals "id" (.int32 2))
    let inOrder := reached [newList, deletion] messagesStart
    let reversed := reached [deletion, newList] messagesStart
    (∀ step ∈ steps [newList, deletion] messagesStart ++ steps [deletion, newList] messagesStart,
        step.failedToSave = false) ∧
      inOrder.1 = reversed.1 ∧
      Medium.read inOrder.2 (Path.ofText "/db.json") = Medium.read reversed.2 (Path.ofText "/db.json") := by
  intro newList deletion inOrder reversed
  have saved : ∀ step ∈ steps [newList, deletion] messagesStart ++
      steps [deletion, newList] messagesStart, step.failedToSave = false := by
    decide +kernel
  have commute := changes_of_different_lists_commute (x := newList) (y := deletion) (by decide) rfl rfl
    trivial trivial saved
  exact ⟨saved, commute.2.1, commute.2.2 "/db.json" rfl⟩

end DocStore

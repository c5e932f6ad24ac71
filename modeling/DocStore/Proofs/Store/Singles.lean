import DocStore.Medium.Disk
import DocStore.Proofs.Store.Batches
import DocStore.Proofs.Store.Commutation
import DocStore.Proofs.Store.Modification

/-!
Documents that are created at once and one by one. In memory both come to the same, as long as no document
has children and each has an identifier. If one is refused, it is the first that is refused by itself, but
those before it are only stored if they were created by themselves.
-/

namespace DocStore

namespace Collections

variable {list : String} {present incoming : List Document} {document : Document}

/-! ## Checks -/

theorem checkIds_perm {others : List Document} (perm : present.Perm others) :
    checkIds list present incoming = checkIds list others incoming := by
  induction incoming generalizing present others with
  | nil => rfl
  | cons document incoming induction =>
      rw [checkIds, checkIds, induction (perm.cons document)]
      cases document.id? with
      | none => rfl
      | some id => simp only [perm.any_eq]

theorem checkIds_cons {id : Value} (has : document.id? = some id) :
    checkIds list present (document :: incoming) =
      if present.any (Document.hasId id) then .error (.documentAlreadyExists id list)
      else checkIds list (present ++ [document]) incoming := by
  rw [checkIds, has, checkIds_perm (List.perm_append_singleton document present).symm]

end Collections

namespace IdSupply

theorem identify_of_identified (ids : IdSupply) {documents : List Document}
    (identified : ∀ document ∈ documents, ∃ id, document.id? = some id) :
    ids.identify documents = documents := by
  apply List.ext_getElem
  · rw [identify, List.length_mapIdx]
  · intro index _ bound
    rcases identified _ (List.getElem_mem bound) with ⟨id, has⟩
    simp [identify, Document.withId, has]

end IdSupply

/-! ## Stores in memory -/

/-- A document that a creation takes as it is: it has an identifier, and no children for the lists that
are known. -/
structure Document.IsSelfContained (known : String → Bool) (document : Document) : Prop where
  identified : ∃ id, document.id? = some id
  flat : document.nestedFields known = []

namespace Store

variable {store : Store} {list : String} {known : String → Bool}

structure IsInMemory (known : String → Bool) (store : Store) : Prop where
  unsaved : store.file = none
  covered : ∀ name, store.collections.knows name = true → known name = true

theorem IsInMemory.withDocuments (inMemory : store.IsInMemory known) (isKnown : known list = true)
    (documents : List Document) : (store.withDocuments list documents).IsInMemory known where
  unsaved := inMemory.unsaved
  covered name there := by
    rcases Collections.knows_iff_exists_found.mp there with ⟨found, here⟩
    rw [getElem?_withDocuments] at here
    split at here
    · next same => exact same ▸ isKnown
    · exact inMemory.covered name (Collections.knows_iff_exists_found.mpr ⟨found, here⟩)

end Store

/-! ## Creations -/

namespace Request

def createOne (ids : IdSupply) (list : String) (document : Document) : Request :=
  .create ids list (.one document) .documents

variable {σ : Type} [Medium σ] {store : Store} {list : String} {known : String → Bool}
  (inMemory : store.IsInMemory known)

include inMemory

theorem run_create_selfContained {requested : NewDocuments} {reply : Reply}
    (contained : ∀ document ∈ requested.toList, document.IsSelfContained known) (ids : IdSupply)
    (medium : σ) :
    let present := store.collections.documentsOrEmpty list
    (create ids list requested reply).run (store, medium) =
      match Collections.checkIds list present requested.toList with
      | .error cause => (.error cause, store, medium)
      | .ok () => (.ok (.created (.of requested reply requested.toList)),
          store.withDocuments list (present ++ requested.toList), medium) := by
  intro present
  have flat : (create ids list requested reply).IsFlat store.collections := fun document member =>
    Document.nestedFields_mono inMemory.covered (contained document member).flat
  rw [run_create_flat flat, ids.identify_of_identified fun document member =>
    (contained document member).identified]
  rcases store with ⟨collections, file⟩
  cases inMemory.unsaved
  rfl

variable {document : Document} {id : Value} (contained : document.IsSelfContained known)
  (has : document.id? = some id)

include contained has

theorem outcome_createOne_of_clash
    (clash : (store.collections.documentsOrEmpty list).any (Document.hasId id) = true)
    (ids : IdSupply) (medium : σ) :
    ((createOne ids list document).step (store, medium)).outcome =
      .error (.documentAlreadyExists id list) := by
  rw [createOne, step, run_create_selfContained inMemory
    (by simpa [NewDocuments.toList] using contained)]
  simp [NewDocuments.toList, Collections.checkIds_cons has, clash]

theorem step_createOne_of_free
    (free : ¬ (store.collections.documentsOrEmpty list).any (Document.hasId id) = true)
    (ids : IdSupply) (medium : σ) :
    let step := (createOne ids list document).step (store, medium)
    step.outcome = .ok (.created (.one document)) ∧
      step.after =
        (store.withDocuments list (store.collections.documentsOrEmpty list ++ [document]), medium) := by
  rw [createOne, step, run_create_selfContained inMemory
    (by simpa [NewDocuments.toList] using contained)]
  simp [NewDocuments.toList, Collections.checkIds_cons has, free, Collections.checkIds, Created.of]

end Request

/-! ## One by one -/

section

open Request

variable {σ : Type} [Medium σ] {store : Store} {list : String} {known : String → Bool}
  {batch present : List Document} (inMemory : store.IsInMemory known) (isKnown : known list = true)
  (holds : store.collections.documentsOrEmpty list = present)
  (contained : ∀ document ∈ batch, document.IsSelfContained known)

include inMemory isKnown holds contained

/-- Documents that pass the check together are all stored one by one. The induction is on the documents,
and each of them is present when the next one is checked. -/
theorem steps_of_checked (checked : Collections.checkIds list present batch = .ok ())
    (ids : IdSupply) (medium : σ) :
    (steps (batch.map (createOne ids list)) (store, medium)).map Step.outcome =
        batch.map (fun document => .ok (.created (.one document))) ∧
      (batch ≠ [] → reached (batch.map (createOne ids list)) (store, medium) =
        (store.withDocuments list (present ++ batch), medium)) := by
  induction batch generalizing store present with
  | nil => exact ⟨rfl, fun nonEmpty => absurd rfl nonEmpty⟩
  | cons document rest induction =>
      rw [List.forall_mem_cons] at contained
      rcases contained.1.identified with ⟨id, has⟩
      rw [Collections.checkIds_cons has] at checked
      split at checked
      · cases checked
      · next free =>
        rw [← holds] at free
        rcases step_createOne_of_free inMemory contained.1 has free ids medium with ⟨outcome, after⟩
        rw [holds] at after
        rcases induction (inMemory.withDocuments isKnown (present ++ [document]))
          Store.documentsOrEmpty_withDocuments contained.2 checked with ⟨outcomes, final⟩
        constructor
        · rw [List.map_cons, steps, after, List.map_cons, outcome, outcomes, List.map_cons]
        · intro _
          rw [List.map_cons, reached, after]
          cases rest with
          | nil => rfl
          | cons second others =>
              rw [final (List.cons_ne_nil second others), Store.withDocuments_withDocuments,
                List.append_assoc]
              rfl

theorem steps_of_refused {cause : StoreError}
    (refused : Collections.checkIds list present batch = .error cause) (ids : IdSupply)
    (medium : σ) :
    ∃ before failing after id,
      steps (batch.map (createOne ids list)) (store, medium) = before ++ failing :: after ∧
        (∀ step ∈ before, step.succeeded = true) ∧ failing.outcome = .error cause ∧
        cause = .documentAlreadyExists id list := by
  induction batch generalizing store present with
  | nil => cases refused
  | cons document rest induction =>
      rw [List.forall_mem_cons] at contained
      rcases contained.1.identified with ⟨id, has⟩
      rw [Collections.checkIds_cons has] at refused
      split at refused
      · next clash =>
        cases refused
        rw [← holds] at clash
        have failed := outcome_createOne_of_clash inMemory contained.1 has clash ids medium
        exact ⟨[], _, _, id, rfl, List.forall_mem_nil _, failed, rfl⟩
      · next free =>
        rw [← holds] at free
        rcases step_createOne_of_free inMemory contained.1 has free ids medium with ⟨outcome, following⟩
        rw [holds] at following
        rcases induction (inMemory.withDocuments isKnown (present ++ [document]))
          Store.documentsOrEmpty_withDocuments contained.2 refused with
          ⟨before, failing, after, other, run, succeeded, failed, named⟩
        refine ⟨(createOne ids list document).step (store, medium) :: before, failing, after, other, ?_,
          ?_, failed, named⟩
        · rw [List.map_cons, steps, following, run, List.cons_append]
        · rw [List.forall_mem_cons]
          exact ⟨by rw [Step.succeeded, outcome]; rfl, succeeded⟩

end

open Request

/-- A creation of several documents is the atomic form of their creations one by one. In memory it
succeeds if all of these do, and then comes to the same. Otherwise it is refused for the reason of the
first one that is refused, and stores nothing. -/
theorem batch_is_atomic_form_of_singles {σ : Type} [Medium σ] {store : Store}
    (unsaved : store.file = none) {list : String} {batch : List Document} (nonEmpty : batch ≠ [])
    (contained : ∀ document ∈ batch,
      document.IsSelfContained (Cascade.knownWith store.collections.knows list))
    (ids others : IdSupply) (medium : σ) :
    let whole := (Request.create ids list (.many batch) .documents).step (store, medium)
    let requests := batch.map (createOne others list)
    let singles := steps requests (store, medium)
    (whole.succeeded = true ↔ ∀ single ∈ singles, single.succeeded = true) ∧
      (whole.succeeded = true →
        whole.after = reached requests (store, medium) ∧
          whole.outcome = .ok (.created (.many batch)) ∧
          singles.map Step.outcome = batch.map fun document => .ok (.created (.one document))) ∧
      (whole.succeeded = false →
        whole.after = (store, medium) ∧
          ∃ before failing after id, singles = before ++ failing :: after ∧
            (∀ single ∈ before, single.succeeded = true) ∧
            failing.outcome = .error (.documentAlreadyExists id list) ∧
            whole.outcome = .error (.documentAlreadyExists id list)) := by
  intro whole requests singles
  have inMemory : store.IsInMemory (Cascade.knownWith store.collections.knows list) :=
    ⟨unsaved, fun _ isKnown => Cascade.knownWith_of_known isKnown list⟩
  have isKnown := Cascade.knownWith_self store.collections.knows list
  have manyContained : ∀ document ∈ (NewDocuments.many batch).toList,
      document.IsSelfContained (Cascade.knownWith store.collections.knows list) := contained
  have run : (Request.create ids list (.many batch) .documents).run (store, medium) = _ :=
    run_create_selfContained inMemory manyContained ids medium
  rw [NewDocuments.toList] at run
  cases checked : Collections.checkIds list (store.collections.documentsOrEmpty list) batch with
  | ok =>
      rw [checked] at run
      have outcome : whole.outcome = .ok (.created (.many batch)) := congrArg Prod.fst run
      have succeeded : whole.succeeded = true := by rw [Step.succeeded, outcome]; rfl
      rcases steps_of_checked inMemory isKnown rfl contained checked others medium with ⟨outcomes, final⟩
      have allSucceed : ∀ single ∈ singles, single.succeeded = true := by
        intro single member
        have inOutcomes : single.outcome ∈ singles.map Step.outcome := List.mem_map_of_mem member
        rw [outcomes] at inOutcomes
        rcases List.mem_map.mp inOutcomes with ⟨document, _, answered⟩
        rw [Step.succeeded, ← answered]
        rfl
      refine ⟨iff_of_true succeeded allSucceed, ?_, ?_⟩
      · intro _
        -- A batch of no documents would add the list, which no single creation does.
        exact ⟨(congrArg Prod.snd run).trans (final nonEmpty).symm, outcome, outcomes⟩
      · intro failed
        rw [succeeded] at failed
        cases failed
  | error cause =>
      rw [checked] at run
      have outcome : whole.outcome = .error cause := congrArg Prod.fst run
      have failed : whole.succeeded = false := by rw [Step.succeeded, outcome]; rfl
      rcases steps_of_refused inMemory isKnown rfl contained checked others medium with
        ⟨before, failing, after, id, split, succeeded, refused, rfl⟩
      have notAll : ¬ ∀ single ∈ singles, single.succeeded = true := by
        intro allSucceed
        have inSingles : failing ∈ singles := by simp [singles, requests, split]
        have impossible := allSucceed failing inSingles
        rw [Step.succeeded, refused] at impossible
        cases impossible
      refine ⟨iff_of_false (by simp [failed]) notAll, ?_, ?_⟩
      · intro success
        rw [failed] at success
        cases success
      · intro _
        exact ⟨congrArg Prod.snd run, before, failing, after, id, split, succeeded, refused, outcome⟩

/-- Two of the identifiers are equal numbers of different types. One by one, the document between them
is stored as well as the first. -/
theorem users_with_equal_numbers_are_refused_together :
    let start : Store × Disk := ({}, Disk.empty)
    let users : List Document := [[("id", .int32 1)], [("id", .string "1")],
      [("id", .double ⟨0x3FF0000000000000⟩)], [("id", .int32 2)]]
    let whole := (Request.create (.seeded 0) "users" (.many users) .documents).step start
    let singles := steps (users.map (createOne (.seeded 1) "users")) start
    (∀ user ∈ users, user.IsSelfContained (Cascade.knownWith start.1.collections.knows "users")) ∧
      whole.succeeded = false ∧ whole.after = start ∧
      singles.map Step.succeeded = [true, true, false, true] ∧
      ∃ before failing after id, singles = before ++ failing :: after ∧
        (∀ single ∈ before, single.succeeded = true) ∧
        failing.outcome = .error (.documentAlreadyExists id "users") ∧
        whole.outcome = .error (.documentAlreadyExists id "users") := by
  intro start users whole singles
  have contained : ∀ user ∈ users,
      user.IsSelfContained (Cascade.knownWith start.1.collections.knows "users") := by
    simp only [users, List.forall_mem_cons]
    exact ⟨⟨⟨_, rfl⟩, rfl⟩, ⟨⟨_, rfl⟩, rfl⟩, ⟨⟨_, rfl⟩, rfl⟩, ⟨⟨_, rfl⟩, rfl⟩, nofun⟩
  have unsaved : start.1.file = none := rfl
  have failed : whole.succeeded = false := by decide +kernel
  have some : singles.map Step.succeeded = [true, true, false, true] := by decide +kernel
  have atomic := batch_is_atomic_form_of_singles unsaved (List.cons_ne_nil _ _) contained (.seeded 0)
    (.seeded 1) start.2
  rcases atomic with ⟨_, _, refuses⟩
  rcases refuses failed with ⟨after, run⟩
  exact ⟨contained, failed, after, some, run⟩

end DocStore

import DocStore.Medium.Disk
import DocStore.Proofs.Fields
import DocStore.Proofs.Store.Inheritance
import DocStore.Proofs.Store.Transition
import DocStore.Proofs.Value.Induction

/-!
What a creation with children leaves. If it succeeds, every document of the forest is in its list, as it
is stored, and the answer holds the forest. If it fails, what it leaves is the work of the batches
before the one that failed. What is kept by each batch, and by all that other requests leave, is kept
by every request.
-/

namespace DocStore

namespace Document

variable {document : Document}

/-! ## Documents that name each field once -/

theorem passesOn_namesOnce : PassesOn fun field => field.2.everywhere Value.namesOnce = true where
  fresh _ := rfl
  noReference _ := rfl
  reference _ proper := proper
  child held inside := isProper_iff.mp ((Value.everywhere_array_iff.mp held).2 _ inside)

theorem isProper_withId (proper : document.IsProper) (fresh : String) :
    (document.withId fresh).IsProper :=
  isProper_iff.mpr (fits_withId passesOn_namesOnce (isProper_iff.mp proper) fresh)

end Document

namespace Batch

/-! ## Collections after batches -/

/-- What batches store in a list. -/
def storedIn (list : String) (batches : List Batch) : List Document :=
  (batches.filter (·.list == list)).flatMap stored

theorem storedIn_cons (list : String) (batch : Batch) (batches : List Batch) :
    storedIn list (batch :: batches) =
      (if batch.list = list then batch.stored else []) ++ storedIn list batches := by
  rw [storedIn, List.filter_cons]
  by_cases same : batch.list = list
  · rw [if_pos (beq_iff_eq.mpr same), if_pos same]
    rfl
  · rw [if_neg (by simpa using same), if_neg same]
    rfl

theorem storedIn_eq_nil {list : String} {batches : List Batch}
    (absent : list ∉ batches.map Batch.list) : storedIn list batches = [] := by
  induction batches with
  | nil => rfl
  | cons batch batches induction =>
      rw [List.map_cons, List.mem_cons, not_or] at absent
      rw [storedIn_cons, if_neg (Ne.symm absent.1), induction absent.2]
      rfl

theorem storedIn_of_distinct {batch : Batch} {batches : List Batch}
    (distinct : (batches.map Batch.list).Nodup) (member : batch ∈ batches) :
    storedIn batch.list batches = batch.stored := by
  induction batches with
  | nil => cases member
  | cons first batches induction =>
      rw [List.map_cons, List.nodup_cons] at distinct
      rw [storedIn_cons]
      rcases List.mem_cons.mp member with rfl | later
      · rw [if_pos rfl, storedIn_eq_nil distinct.1, List.append_nil]
      · have different : first.list ≠ batch.list := fun same =>
          distinct.1 (same ▸ List.mem_map_of_mem later)
        rw [if_neg different, induction distinct.2 later, List.nil_append]

theorem documentsOrEmpty_addTo (batch : Batch) (collections : Collections) (name : String) :
    (batch.addTo collections).documentsOrEmpty name =
      collections.documentsOrEmpty name ++ if batch.list == name then batch.stored else [] := by
  rw [addTo, Collections.documentsOrEmpty_insert]
  by_cases same : batch.list = name
  · simp [same]
  · simp [same]

theorem documentsOrEmpty_addAll (batches : List Batch) (collections : Collections) (name : String) :
    (addAll batches collections).documentsOrEmpty name =
      collections.documentsOrEmpty name ++ storedIn name batches := by
  induction batches generalizing collections with
  | nil => exact (List.append_nil _).symm
  | cons batch batches induction =>
      have step : addAll (batch :: batches) collections =
          addAll batches (batch.addTo collections) := rfl
      rw [step, induction, documentsOrEmpty_addTo, List.append_assoc, storedIn, storedIn,
        List.filter_cons]
      split
      · rfl
      · rfl

theorem each_addTo {holds : Document → Prop} {batch : Batch} {collections : Collections}
    (before : collections.Each fun documents => ∀ document ∈ documents, holds document)
    (stored : ∀ document ∈ batch.stored, holds document) :
    (batch.addTo collections).Each fun documents => ∀ document ∈ documents, holds document := by
  refine Collections.each_insert before fun document member => ?_
  rcases List.mem_append.mp member with present | added
  · exact Collections.holds_documentsOrEmpty before (fun _ none => nomatch none) _ document present
  · exact stored document added

theorem getElem?_addAll {batches : List Batch} {collections : Collections} {name : String}
    {position : Nat} {document : Document}
    (present : (collections.documentsOrEmpty name)[position]? = some document) :
    ((addAll batches collections).documentsOrEmpty name)[position]? = some document := by
  rw [documentsOrEmpty_addAll]
  exact List.getElem?_append_left (List.getElem?_eq_some_iff.mp present).1 ▸ present

end Batch

namespace Cascade

variable {known : String → Bool} {ids : IdSupply} {list : String} {documents : List Document}
  {batch : Batch} {collections : Collections}

theorem knows_addAll {batches : List Batch} (knows : collections.knows = known)
    (there : ∀ batch ∈ batches, known batch.list = true) :
    (Batch.addAll batches collections).knows = known := by
  induction batches generalizing collections with
  | nil => exact knows
  | cons batch batches induction =>
      have here := there batch List.mem_cons_self
      have next : (batch.addTo collections).knows = known := by
        rw [knows_addTo, knows, knownWith_eq_of_known here]
      exact induction next fun other later => there other (List.mem_cons_of_mem batch later)

theorem known_of_mem_batches (there : known list = true)
    (member : batch ∈ batches known ids list documents) : batch.known = known := by
  induction known, ids, list, documents using induction_on_children with
  | level known ids list documents induction =>
      rcases mem_batches_iff.mp member with
        rfl | ⟨document, index, field, items, place, position, nested, inside⟩
      · rfl
      · have isKnown := (Document.mem_nestedFields_iff.mp (List.fst_mem_of_mem_zipIdx nested)).2
        have same := induction document index field items place position nested
          (knownWith_of_known isKnown list) inside
        rw [same, knownWith_eq_of_known there]

theorem known_of_mem_tail (member : batch ∈ (batches known ids list documents).tail) :
    batch.known = knownWith known list ∧ knownWith known list batch.list = true := by
  rw [batches_eq, List.tail_cons, List.mem_flatMap] at member
  rcases member with ⟨⟨document, index⟩, _, member⟩
  rcases List.mem_flatMap.mp member with ⟨⟨⟨field, items⟩, place⟩, nested, inside⟩
  have isKnown := (Document.mem_nestedFields_iff.mp (List.fst_mem_of_mem_zipIdx nested)).2
  exact ⟨known_of_mem_batches (knownWith_of_known isKnown list) inside,
    knownWith_of_mem_children isKnown inside⟩

theorem known_eq_knows {done rest : List Batch} (knows : collections.knows = known)
    (split : batches known ids list documents = done ++ batch :: rest) :
    batch.known = (Batch.addAll done collections).knows := by
  cases done with
  | nil =>
      rw [batches_eq] at split
      rw [← (List.cons.inj split).1]
      exact knows.symm
  | cons first done =>
      have tail : (batches known ids list documents).tail = done ++ batch :: rest := by
        rw [split]
        rfl
      have here : batch ∈ (batches known ids list documents).tail := by
        rw [tail]
        exact List.mem_append_right done List.mem_cons_self
      have earlier : ∀ other ∈ done, knownWith known list other.list = true := by
        intro other member
        refine (known_of_mem_tail (?_ : other ∈ (batches known ids list documents).tail)).2
        rw [tail]
        exact List.mem_append_left _ member
      have next : (first.addTo collections).knows = knownWith known list := by
        rw [batches_eq] at split
        rw [knows_addTo, knows, ← (List.cons.inj split).1]
      exact (known_of_mem_tail here).1.trans (knows_addAll next earlier).symm

theorem knows_addAll_batches (knows : collections.knows = known) :
    (Batch.addAll (batches known ids list documents) collections).knows = knownWith known list := by
  have first : (Batch.addTo { list, documents := ids.identify documents, known } collections).knows =
      knownWith known list := by
    rw [knows_addTo, knows]
  have tail := knows_addAll first fun batch (member : batch ∈ (batches known ids list documents).tail) =>
    (known_of_mem_tail member).2
  rw [batches_eq] at tail ⊢
  exact tail

/-! ## Answers -/

theorem fst_nestedFields (known : String → Bool) (document : Document) :
    (document.nestedFields known).map Prod.fst =
      Fields.keys (document.filter (Document.isNested known)) := by
  induction document with
  | nil => rfl
  | cons field fields induction =>
      rw [Document.nestedFields] at induction ⊢
      rw [List.filterMap_cons, List.filter_cons]
      rcases field with ⟨key, value⟩
      cases value with
      | array items =>
          cases isKnown : known key with
          | true => simp [Document.isNested, isKnown, Fields.keys_cons, induction]
          | false => simp [Document.isNested, isKnown, induction]
      | _ => exact induction

theorem keys_perm (known : String → Bool) (document : Document) :
    (Fields.keys (document.withoutNested known) ++ (document.nestedFields known).map Prod.fst).Perm
      (Fields.keys document) := by
  rw [fst_nestedFields]
  have parts := (List.filter_append_perm (Document.isNested known) document).map Prod.fst
  rw [List.map_append] at parts
  exact List.perm_append_comm.trans parts

theorem keys_childFields (join : Document → Fields Value → Document) (known : String → Bool)
    (ids : IdSupply) (list : String) (document : Document) :
    Fields.keys (childFields join known ids list document) =
      (document.nestedFields known).map Prod.fst := by
  have names := congrArg (List.map Prod.fst) (List.zipIdx_map_fst 0 (document.nestedFields known))
  rw [List.map_map] at names
  rw [childFields, Fields.keys, List.map_map]
  exact names

theorem answers_insertAll
    (distinct : ∀ batch ∈ batches known ids list documents, ∀ document ∈ batch.documents,
      (Fields.keys document).Nodup) :
    answers Fields.insertAll known ids list documents =
      answers (· ++ ·) known ids list documents := by
  induction known, ids, list, documents using induction_on_children with
  | level known ids list documents induction =>
      rw [answers_eq, answers_eq]
      apply List.map_congr_left
      rintro ⟨document, index⟩ position
      have own : (Fields.keys document).Nodup :=
        distinct _ (mem_batches_iff.mpr (.inl rfl)) document (List.fst_mem_of_mem_zipIdx position)
      have same : childFields Fields.insertAll known (ids.branch index) list document =
          childFields (· ++ ·) known (ids.branch index) list document := by
        apply List.map_congr_left
        rintro ⟨⟨field, items⟩, place⟩ nested
        dsimp only
        rw [induction document index field items place position nested]
        intro batch inside
        exact distinct batch
          (mem_batches_iff.mpr (.inr ⟨document, index, field, items, place, position, nested, inside⟩))
      dsimp only
      rw [same]
      apply Fields.insertAll_eq_append
      rw [keys_childFields]
      exact (keys_perm known document).nodup_iff.mpr own

/-! ## Success -/

variable {σ : Type} [Medium σ]

theorem forM_store_outcome {batches : List Batch} {state reached : Store × σ}
    (stored : forM batches Batch.store state = (.ok (), reached)) :
    reached.1 = { state.1 with collections := Batch.addAll batches state.1.collections } := by
  induction batches generalizing state with
  | nil =>
      cases stored
      rfl
  | cons batch batches induction =>
      have here := store_outcome batch state
      rw [List.forM_cons, Session.bind_apply] at stored
      generalize batch.store state = result at here stored
      rcases result with ⟨cause | _, middle⟩
      · cases stored
      · rw [induction stored, here]
        rfl

theorem create_apply (ids : IdSupply) (list : String) (requested : NewDocuments) (reply : Reply)
    (store : Store) (medium : σ) :
    Store.create ids list requested reply (store, medium) =
      ((do
        forM (batches store.collections.knows ids list requested.toList) Batch.store
        return Created.of requested reply
          (answers Fields.insertAll store.collections.knows ids list requested.toList)) :
        Session Store σ Created) (store, medium) :=
  (createIn_runsAs store.collections.knows ids list requested.toList).map
    (Created.of requested reply) (store, medium) rfl

/-- Whatever a creation answers with, it leaves what its batches leave. -/
theorem create_leaves (ids : IdSupply) (list : String) (requested : NewDocuments) (reply : Reply)
    (store : Store) (medium : σ) :
    (Store.create ids list requested reply (store, medium)).2 =
      (forM (batches store.collections.knows ids list requested.toList) Batch.store
        (store, medium)).2 := by
  rw [create_apply, bind_pure_comp, Session.map_apply]

theorem forM_store_of_create {store : Store} {medium : σ} {requested : NewDocuments} {reply : Reply}
    (succeeded : (Store.create ids list requested reply (store, medium)).1.isOk = true) :
    forM (batches store.collections.knows ids list requested.toList) Batch.store (store, medium) =
      (.ok (), (Store.create ids list requested reply (store, medium)).2) := by
  rw [create_apply, bind_pure_comp, Session.map_apply] at succeeded ⊢
  generalize forM (batches store.collections.knows ids list requested.toList) Batch.store
    (store, medium) = result at succeeded ⊢
  rcases result with ⟨cause | _, left⟩
  · cases succeeded
  · rfl

theorem collections_create {store : Store} {medium : σ} {requested : NewDocuments} {reply : Reply}
    (succeeded : (Store.create ids list requested reply (store, medium)).1.isOk = true) :
    (Store.create ids list requested reply (store, medium)).2.1.collections =
      Batch.addAll (batches store.collections.knows ids list requested.toList) store.collections :=
  congrArg Store.collections (forM_store_outcome (forM_store_of_create succeeded))

/-! ## The documents of a forest -/

theorem isProper_of_mem_batches (proper : ∀ document ∈ documents, document.IsProper)
    (member : batch ∈ batches known ids list documents) :
    ∀ document ∈ batch.documents, document.IsProper := by
  intro document here
  have fits := fits_of_mem_batches Document.passesOn_namesOnce
    (fun document given => Document.isProper_iff.mp (proper document given)) member
  exact Document.isProper_iff.mpr (fits document here)

theorem exists_id?_of_mem_batches (member : batch ∈ batches known ids list documents) :
    ∀ document ∈ batch.documents, ∃ id, document.id? = some id := by
  induction known, ids, list, documents using induction_on_children with
  | level known ids list documents induction =>
      rcases mem_batches_iff.mp member with
        rfl | ⟨document, index, field, items, place, position, nested, inside⟩
      · exact fun document here => IdSupply.exists_id?_of_mem_identify here
      · exact induction document index field items place position nested inside

end Cascade

/-! ## Requests that create -/

namespace Request

def batches (known : String → Bool) : Request → List Batch
  | create ids list requested _ => Cascade.batches known ids list requested.toList
  | _ => []

/-- What holds of all that a request may make of the collections, and of what each batch of a creation
makes of collections of which it holds, holds after the request, whether it succeeds or not. -/
theorem holds_step {σ : Type} [Medium σ] (holds : Collections → Prop) {request : Request}
    {state : Store × σ} (before : holds state.1.collections)
    (left : ∀ next, request.Leaves state.1.collections next → holds next)
    (added : ∀ batch ∈ request.batches state.1.collections.knows, ∀ collections,
      holds collections → holds (batch.addTo collections)) :
    holds (request.step state).after.1.collections := by
  cases creation : request.isCreation with
  | false =>
      let related (_ : Bool) (start reached : Store × σ) : Prop :=
        start.1.collections = state.1.collections → holds reached.1.collections
      have idle (succeeded : Bool) (start : Store × σ) : related succeeded start start :=
        fun same => same ▸ before
      have adoptions : Store.AdoptionsObey (σ := σ) request.Leaves related := by
        intro α value store medium next leaves same
        exact Store.holds_adopt holds (same ▸ before) (left next (same ▸ leaves))
      exact obeys_run_of_not_creation idle adoptions creation state rfl
  | true =>
      cases request with
      | create ids list requested reply =>
          rcases state with ⟨store, medium⟩
          have each : ∀ batch ∈ Cascade.batches store.collections.knows ids list requested.toList,
              ∀ reached : Store × σ, holds reached.1.collections →
                holds (batch.store reached).2.1.collections :=
            fun batch member _ there =>
              Cascade.holds_store holds there (added batch member _ there)
          rw [step, run, Session.map_apply, Cascade.create_leaves]
          exact Session.holds_forM each before
      | _ => cases creation

end Request

open Cascade

/-- A creation that succeeds stores its batches at the ends of their lists, and nothing else, whatever
it answers with. Each document is stored without the fields of the lists that are there by then, and
keeps its identifier, to which its children refer. The answer is each document as it is stored, and
then its fields with the answers for the children. -/
theorem create_stores_forest {σ : Type} [Medium σ] {store : Store} {medium : σ} {ids : IdSupply}
    {list : String} {requested : NewDocuments} {reply : Reply} {answer : Created}
    (proper : ∀ document ∈ requested.toList, document.IsProper)
    (plain : ∀ batch ∈ batches store.collections.knows ids list requested.toList,
      ∀ document ∈ batch.documents, document.hasPlainId = true)
    (succeeded : (Store.create ids list requested reply (store, medium)).1 = .ok answer) :
    let forest := batches store.collections.knows ids list requested.toList
    let after := (Store.create ids list requested reply (store, medium)).2
    (∀ name, after.1.collections.documentsOrEmpty name =
        store.collections.documentsOrEmpty name ++ Batch.storedIn name forest) ∧
      (∀ name, after.1.collections.knows name = knownWith store.collections.knows list name) ∧
      (∀ done batch rest, forest = done ++ batch :: rest →
        batch.known = (Batch.addAll done store.collections).knows) ∧
      (∀ batch ∈ forest, ∀ document ∈ batch.documents, ∃ id, document.id? = some id ∧
        (document.withoutNested batch.known).id? = some id) ∧
      ∀ reply, Store.create ids list requested reply (store, medium) =
        (.ok (Created.of requested reply
          (answers (· ++ ·) store.collections.knows ids list requested.toList)), after) := by
  intro forest after
  have distinct : ∀ batch ∈ forest, ∀ document ∈ batch.documents,
      (Fields.keys document).Nodup := by
    intro batch member document here
    exact (Document.isProper_iff.mp (isProper_of_mem_batches proper member document here)).1
  rcases stored : forM forest Batch.store (store, medium) with ⟨cause | _, reached⟩
  · rw [create_apply, Session.bind_apply, stored] at succeeded
    cases succeeded
  · have result (reply : Reply) : Store.create ids list requested reply (store, medium) =
        (.ok (Created.of requested reply
          (answers (· ++ ·) store.collections.knows ids list requested.toList)), reached) := by
      rw [create_apply, Session.bind_apply, stored, answers_insertAll distinct]
      rfl
    have left : after = reached := congrArg Prod.snd (result reply)
    have collections : after.1.collections = Batch.addAll forest store.collections := by
      rw [left, forM_store_outcome stored]
    refine ⟨?_, ?_, ?_, ?_, ?_⟩
    · intro name
      rw [collections, Batch.documentsOrEmpty_addAll]
    · intro name
      rw [collections, knows_addAll_batches rfl]
    · intro done batch rest split
      exact known_eq_knows rfl split
    · intro batch member document here
      rcases exists_id?_of_mem_batches member document here with ⟨id, has⟩
      exact ⟨id, has, Document.id?_withoutNested has (.inr (plain batch member document here))⟩
    · intro other
      rw [left]
      exact result other

private def emptyLists : Store where
  collections := (∅ : Collections).withLists ["messages", "notes"]

private def userWithMessage : Document :=
  [("id", .int32 1), ("messages", .array [.document
    [("id", .int32 5), ("notes", .array [.document [("id", .int32 7)]]), ("text", .string "hi")]])]

theorem create_stores_message_and_note :
    let created (reply : Reply) := Store.create (.seeded 0) "users" (.one userWithMessage) reply
      (emptyLists, Disk.empty)
    let collections := (created .acknowledgement).2.1.collections
    (created .acknowledgement).1 = .ok .acknowledged ∧
      collections.documentsOrEmpty "messages" =
        [[("id", .int32 5), ("text", .string "hi"), ("users_id", .int32 1)]] ∧
      collections.documentsOrEmpty "notes" = [[("id", .int32 7), ("messages_id", .int32 5)]] ∧
      created .documents = (.ok (.one
        [("id", .int32 1), ("messages", .array [.document
          [("id", .int32 5), ("text", .string "hi"), ("users_id", .int32 1),
            ("notes", .array [.document [("id", .int32 7), ("messages_id", .int32 5)]])]])]),
        (created .acknowledgement).2) := by
  intro created collections
  have succeeded : (created .acknowledgement).1 = .ok .acknowledged := by with_unfolding_all rfl
  have forest := create_stores_forest (by decide +kernel) (by decide +kernel) succeeded
  rcases forest with ⟨contents, _, _, _, answers⟩
  refine ⟨succeeded, (contents "messages").trans ?_, (contents "notes").trans ?_,
    (answers .documents).trans ?_⟩
  · with_unfolding_all rfl
  · with_unfolding_all rfl
  · with_unfolding_all rfl

/-- A creation that fails leaves what the batches before the failing one store, and nothing else. -/
theorem create_failure_keeps_earlier_batches {σ : Type} [Medium σ] {store : Store} {medium : σ}
    {ids : IdSupply} {list : String} {requested : NewDocuments} {reply : Reply} {cause : StoreError}
    (failed : (Store.create ids list requested reply (store, medium)).1 = .error cause) :
    let after := (Store.create ids list requested reply (store, medium)).2
    ∃ (done : List Batch) (failing : Batch) (rest : List Batch) (reached : Store × σ),
      batches store.collections.knows ids list requested.toList = done ++ failing :: rest ∧
        forM done Batch.store (store, medium) = (.ok (), reached) ∧
        failing.store reached = (.error cause, after) ∧
        after.1 = { store with collections := Batch.addAll done store.collections } ∧
        (done = [] → after.1 = store) ∧
        ∀ (name : String) (position : Nat) (document : Document),
          (store.collections.documentsOrEmpty name)[position]? = some document →
            (after.1.collections.documentsOrEmpty name)[position]? = some document := by
  intro after
  rcases stored : forM (batches store.collections.knows ids list requested.toList) Batch.store
    (store, medium) with ⟨other | _, left⟩
  · have result : Store.create ids list requested reply (store, medium) = (.error other, left) := by
      rw [create_apply, Session.bind_apply, stored]
    have same : other = cause := by
      rw [result] at failed
      cases failed
      rfl
    have ends : after = left := congrArg Prod.snd result
    rw [ends]
    rcases Session.exists_of_forM_eq_error stored with
      ⟨done, failing, rest, reached, split, before, fails⟩
    have unchanged := store_outcome failing reached
    rw [fails] at unchanged
    have collections : left.1 = { store with collections := Batch.addAll done store.collections } :=
      unchanged.trans (forM_store_outcome before)
    refine ⟨done, failing, rest, reached, split, before, same ▸ fails, collections, ?_, ?_⟩
    · rintro rfl
      exact collections
    · intro name position document present
      rw [collections]
      exact Batch.getElem?_addAll present
  · rw [create_apply, Session.bind_apply, stored] at failed
    cases failed

private def oneMessage : Store where
  collections := (∅ : Collections).insert "messages" [[("id", .int32 5)]]

theorem create_keeps_user_when_message_is_refused :
    let requested : NewDocuments := .one [("id", .int32 1), ("messages", .array
      [.document [("id", .int32 6)], .document [("id", .int32 5)]])]
    let created := Store.create (.seeded 0) "users" requested .documents (oneMessage, Disk.empty)
    created.1 = .error (.documentAlreadyExists (.int32 5) "messages") ∧
      (created.2.1.collections.documentsOrEmpty "messages")[0]? = some [("id", .int32 5)] ∧
      created.2.1.collections.documentsOrEmpty "users" = [[("id", .int32 1)]] := by
  intro requested created
  have failed : created.1 = .error (.documentAlreadyExists (.int32 5) "messages") := by
    with_unfolding_all rfl
  rcases create_failure_keeps_earlier_batches failed with ⟨_, _, _, _, _, _, _, _, _, kept⟩
  refine ⟨failed, kept "messages" 0 _ (by with_unfolding_all rfl), ?_⟩
  with_unfolding_all rfl

end DocStore

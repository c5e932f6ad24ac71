import DocStore.Proofs.Store.Creation

/-!
Batches: what a creation with children stores, one list after another. A document's children go into
their lists after all documents of its own batch, in the order of the fields that hold them.

The main statement is that a creation is its batches, stored in order until one of them fails.
-/

namespace DocStore

/-- Documents on their way into a list: they have identifiers and still hold their children. -/
structure Batch where
  list : String
  documents : List Document
  known : String → Bool

namespace Batch

def stored (batch : Batch) : List Document :=
  batch.documents.map (Document.withoutNested batch.known)

def addTo (batch : Batch) (collections : Collections) : Collections :=
  collections.insert batch.list (collections.documentsOrEmpty batch.list ++ batch.stored)

def addAll (batches : List Batch) (collections : Collections) : Collections :=
  batches.foldl (fun collections batch => batch.addTo collections) collections

def store {σ : Type} [Medium σ] (batch : Batch) : Session Store σ Unit := do
  MonadExcept.ofExcept (batch.documents.forM (Document.checkNested batch.known))
  Store.changeList batch.list fun collections => collections.append batch.list batch.stored

end Batch

namespace Cascade

def knownWith (known : String → Bool) (list name : String) : Bool :=
  known name || name == list

/-- The batches of a creation in a list, in the order in which they are stored. -/
def batches (known : String → Bool) (ids : IdSupply) (list : String) (documents : List Document) :
    List Batch :=
  { list, documents := ids.identify documents, known } ::
    (ids.identify documents).zipIdx.attach.flatMap fun ⟨(document, index), _⟩ =>
      (document.nestedFields known).zipIdx.attach.flatMap fun ⟨((field, items), place), _⟩ =>
        batches (knownWith known list) ((ids.branch index).branch place) field
          (Document.childrenOf list (document.withoutNested known) items)
termination_by Document.maxNodes documents
decreasing_by
  exact Document.maxNodes_children_lt ‹(document, index) ∈ _› ‹((field, items), place) ∈ _›

/-- The documents that a creation answers with: each as it is stored, joined with the fields that hold
the answers for its children. -/
def answers (join : Document → Fields Value → Document) (known : String → Bool) (ids : IdSupply)
    (list : String) (documents : List Document) : List Document :=
  (ids.identify documents).zipIdx.attach.map fun ⟨(document, index), _⟩ =>
    join (document.withoutNested known)
      ((document.nestedFields known).zipIdx.attach.map fun ⟨((field, items), place), _⟩ =>
        (field, .array ((answers join (knownWith known list) ((ids.branch index).branch place) field
          (Document.childrenOf list (document.withoutNested known) items)).map Value.document)))
termination_by Document.maxNodes documents
decreasing_by
  exact Document.maxNodes_children_lt ‹(document, index) ∈ _› ‹((field, items), place) ∈ _›

def childFields (join : Document → Fields Value → Document) (known : String → Bool) (ids : IdSupply)
    (list : String) (document : Document) : Fields Value :=
  (document.nestedFields known).zipIdx.map fun ((field, items), place) =>
    (field, .array ((answers join (knownWith known list) (ids.branch place) field
      (Document.childrenOf list (document.withoutNested known) items)).map Value.document))

/-! ## One level -/

section

variable (known : String → Bool) (ids : IdSupply) (list : String) (documents : List Document)

theorem batches_eq :
    batches known ids list documents =
      { list, documents := ids.identify documents, known } ::
        (ids.identify documents).zipIdx.flatMap fun (document, index) =>
          (document.nestedFields known).zipIdx.flatMap fun ((field, items), place) =>
            batches (knownWith known list) ((ids.branch index).branch place) field
              (Document.childrenOf list (document.withoutNested known) items) := by
  rw [batches, List.flatMap_subtype, List.unattach_attach]
  rintro ⟨document, index⟩ _
  dsimp only
  rw [List.flatMap_subtype, List.unattach_attach]
  rintro ⟨⟨field, items⟩, place⟩ _
  rfl

theorem answers_eq (join : Document → Fields Value → Document) :
    answers join known ids list documents =
      (ids.identify documents).zipIdx.map fun (document, index) =>
        join (document.withoutNested known)
          (childFields join known (ids.branch index) list document) := by
  rw [answers, List.map_subtype, List.unattach_attach]
  rintro ⟨document, index⟩ _
  dsimp only
  rw [childFields, List.map_subtype, List.unattach_attach]
  rintro ⟨⟨field, items⟩, place⟩ _
  rfl

theorem induction_on_children {holds : (String → Bool) → IdSupply → String → List Document → Prop}
    (level : ∀ known ids list documents,
      (∀ document index field items place,
        (document, index) ∈ (IdSupply.identify ids documents).zipIdx →
        ((field, items), place) ∈ (document.nestedFields known).zipIdx →
        holds (knownWith known list) ((ids.branch index).branch place) field
          (Document.childrenOf list (document.withoutNested known) items)) →
      holds known ids list documents) :
    holds known ids list documents := by
  induction size : Document.maxNodes documents using Nat.strongRecOn
    generalizing known ids list documents with
  | _ bound induction =>
      apply level
      intro document index field items place position nested
      have smaller : Document.maxNodes
          (Document.childrenOf list (document.withoutNested known) items) < bound :=
        size ▸ Document.maxNodes_children_lt position nested
      exact induction _ smaller _ _ _ _ rfl

end

variable {known : String → Bool} {ids : IdSupply} {list : String} {documents : List Document}
  {batch : Batch}

theorem mem_batches_iff :
    batch ∈ batches known ids list documents ↔
      batch = { list, documents := ids.identify documents, known } ∨
        ∃ document index field items place, (document, index) ∈ (ids.identify documents).zipIdx ∧
          ((field, items), place) ∈ (document.nestedFields known).zipIdx ∧
          batch ∈ batches (knownWith known list) ((ids.branch index).branch place) field
            (Document.childrenOf list (document.withoutNested known) items) := by
  rw [batches_eq, List.mem_cons, List.mem_flatMap]
  refine or_congr_right ⟨?_, ?_⟩
  · rintro ⟨⟨document, index⟩, position, member⟩
    rcases List.mem_flatMap.mp member with ⟨⟨⟨field, items⟩, place⟩, nested, inside⟩
    exact ⟨document, index, field, items, place, position, nested, inside⟩
  · rintro ⟨document, index, field, items, place, position, nested, inside⟩
    refine ⟨(document, index), position, ?_⟩
    exact List.mem_flatMap.mpr ⟨((field, items), place), nested, inside⟩

/-! ## Known lists -/

theorem knownWith_self (known : String → Bool) (list : String) :
    knownWith known list list = true := by
  rw [knownWith, beq_self_eq_true, Bool.or_true]

theorem knownWith_of_known {name : String} (there : known name = true) (list : String) :
    knownWith known list name = true := by
  rw [knownWith, there, Bool.true_or]

theorem knownWith_eq_of_known (there : known list = true) : knownWith known list = known := by
  funext name
  rw [knownWith]
  by_cases same : name = list
  · rw [same, there, Bool.true_or]
  · rw [beq_eq_false_iff_ne.mpr same, Bool.or_false]

theorem knownWith_of_mem_batches (member : batch ∈ batches known ids list documents) :
    knownWith known list batch.list = true := by
  induction known, ids, list, documents using induction_on_children with
  | level known ids list documents induction =>
      rcases mem_batches_iff.mp member with
        rfl | ⟨document, index, field, items, place, position, nested, inside⟩
      · exact knownWith_self known list
      · have isKnown := (Document.mem_nestedFields_iff.mp (List.fst_mem_of_mem_zipIdx nested)).2
        have there := induction document index field items place position nested inside
        rwa [knownWith_eq_of_known (knownWith_of_known isKnown list)] at there

theorem knownWith_of_mem_children {field : String} (isKnown : known field = true)
    (member : batch ∈ batches (knownWith known list) ids field documents) :
    knownWith known list batch.list = true := by
  have there := knownWith_of_mem_batches member
  rwa [knownWith_eq_of_known (knownWith_of_known isKnown list)] at there

/-! ## A creation is its batches -/

theorem knows_addTo (batch : Batch) (collections : Collections) :
    (batch.addTo collections).knows = knownWith collections.knows batch.list := by
  funext name
  have same : (compare batch.list name == .eq) = (name == batch.list) := by
    rw [Bool.eq_iff_iff, beq_iff_eq, beq_iff_eq, Std.compare_eq_iff_eq, eq_comm]
  rw [Batch.addTo, Collections.knows, Std.ExtTreeMap.contains_insert, same, Bool.or_comm]
  rfl

variable {σ : Type} [Medium σ]

theorem store_apply (batch : Batch) (store : Store) (medium : σ) :
    batch.store (store, medium) =
      match batch.documents.forM (Document.checkNested batch.known),
          Collections.checkIds batch.list (store.collections.documentsOrEmpty batch.list)
            batch.stored with
      | .error cause, _ => (.error cause, store, medium)
      | .ok (), .error cause => (.error cause, store, medium)
      | .ok (), .ok () => Store.adopt () (batch.addTo store.collections) (store, medium) := by
  rw [Batch.store, Session.bind_apply]
  rcases batch.documents.forM (Document.checkNested batch.known) with cause | _
  · rfl
  · refine (Store.changeList_apply _ _ store medium).trans ?_
    rw [Collections.append]
    rcases Collections.checkIds batch.list (store.collections.documentsOrEmpty batch.list)
      batch.stored with cause | _
    · rfl
    · rfl

theorem store_outcome (batch : Batch) (state : Store × σ) :
    (batch.store state).2.1 =
      match (batch.store state).1 with
      | .ok _ => { state.1 with collections := batch.addTo state.1.collections }
      | .error _ => state.1 := by
  rcases state with ⟨store, medium⟩
  rw [store_apply]
  split
  · rfl
  · rfl
  · rw [Store.adopt_apply]
    rcases Store.saving medium store.file (batch.addTo store.collections) with ⟨cause | _, written⟩
    · rfl
    · rfl

theorem holds_store (holds : Collections → Prop) {state : Store × σ}
    (before : holds state.1.collections) (after : holds (batch.addTo state.1.collections)) :
    holds (batch.store state).2.1.collections := by
  rw [store_outcome]
  split
  · exact after
  · exact before

def Knows (known : String → Bool) (state : Store × σ) : Prop :=
  state.1.collections.knows = known

theorem knows_store {state : Store × σ} (before : Knows known state)
    (there : known batch.list = true) : Knows known (batch.store state).2 := by
  refine holds_store (fun collections => collections.knows = known) before ?_
  rw [knows_addTo, before, knownWith_eq_of_known there]

theorem knows_store_of_ok {state : Store × σ} (before : Knows known state)
    (succeeded : (batch.store state).1 = .ok ()) :
    Knows (knownWith known batch.list) (batch.store state).2 := by
  rw [Knows, store_outcome, succeeded, knows_addTo, before]

theorem createIn_apply (ids : IdSupply) (list : String) (documents : List Document) (store : Store)
    (medium : σ) :
    Store.createIn ids list documents (store, medium) =
      ((do
        Batch.store { list, documents := ids.identify documents, known := store.collections.knows }
        (ids.identify documents).zipIdx.mapM fun (document, index) => do
          let stored := document.withoutNested store.collections.knows
          let fields ← (document.nestedFields store.collections.knows).zipIdx.mapM
            fun ((field, items), place) => do
              let created ← Store.createIn ((ids.branch index).branch place) field
                (Document.childrenOf list stored items)
              return (field, Value.array (created.map Value.document))
          return stored.insertAll fields) : Session Store σ (List Document)) (store, medium) := by
  rw [Store.createIn_eq, Store.createLevel, Store.answer_bind_apply, Batch.store, bind_assoc]
  rfl

/-- A creation stores its batches in order. The lists that are there stay the same after the first
batch, since all others go into lists that are there. -/
theorem createIn_runsAs (known : String → Bool) (ids : IdSupply) (list : String)
    (documents : List Document) :
    Session.RunsAs (σ := σ) (Knows known) (Store.createIn ids list documents) Batch.store
      (batches known ids list documents) (answers Fields.insertAll known ids list documents) := by
  induction known, ids, list, documents using induction_on_children with
  | level known ids list documents induction =>
      rintro ⟨store, medium⟩ rfl
      let first : Batch :=
        { list, documents := ids.identify documents, known := store.collections.knows }
      have reach (stored : (first.store (store, medium)).1 = .ok ()) :
          Knows (knownWith store.collections.knows list) (first.store (store, medium)).2 :=
        knows_store_of_ok rfl stored
      rw [createIn_apply, batches_eq, List.forM_cons, bind_assoc, answers_eq, Session.bind_apply,
        Session.bind_apply]
      generalize first.store (store, medium) = result at reach ⊢
      rcases result with ⟨cause | _, reached⟩
      · rfl
      · refine Session.RunsAs.mapM ?_ ?_ reached (reach rfl)
        · rintro ⟨document, index⟩ position
          refine (Session.RunsAs.mapM ?_ ?_).map _
          · rintro ⟨⟨field, items⟩, place⟩ nested
            exact (induction document index field items place position nested).map _
          · rintro ⟨⟨field, items⟩, place⟩ nested batch inside state before
            have isKnown := (Document.mem_nestedFields_iff.mp (List.fst_mem_of_mem_zipIdx nested)).2
            exact knows_store before (knownWith_of_mem_children isKnown inside)
        · rintro ⟨document, index⟩ position batch member state before
          rcases List.mem_flatMap.mp member with ⟨⟨⟨field, items⟩, place⟩, nested, inside⟩
          have isKnown := (Document.mem_nestedFields_iff.mp (List.fst_mem_of_mem_zipIdx nested)).2
          exact knows_store before (knownWith_of_mem_children isKnown inside)

end Cascade

end DocStore

import DocStore.Medium.Disk
import DocStore.Proofs.Join.Convention
import DocStore.Proofs.Store.Cascade
import DocStore.Proofs.Store.Identity

/-!
Parents and their children. Children that are created with a document refer to it by its identifier,
which is what an include of their list looks for.

The main statement is that a query for the document which includes the list attaches exactly the
children that the creation answered with.
-/

namespace DocStore

namespace Document

variable {document : Document} {list : String}

theorem foreignKey_ne_idKey (list : String) : foreignKey list ≠ idKey := by
  intro same
  have lengths := congrArg String.length same
  rw [foreignKey, String.length_append, String.length_append] at lengths
  have separator : "_".length = 1 := rfl
  omega

theorem get?_withId_other {key : String} (different : key ≠ idKey) (fresh : String) :
    (document.withId fresh).get? key = document.get? key := by
  rw [withId]
  split
  · rfl
  · rw [Fields.get?_cons, if_neg (Ne.symm different)]
    exact Fields.get?_erase_other document different

theorem get?_foreignKey_of_mem_identify {parent child : Document} {ids : IdSupply}
    {items : List Value} {id : Value} (has : parent.id? = some id)
    (member : child ∈ ids.identify (childrenOf list parent items)) :
    child.get? (foreignKey list) = some id := by
  rw [IdSupply.identify, List.mem_mapIdx] at member
  rcases member with ⟨index, bound, rfl⟩
  rw [get?_withId_other (foreignKey_ne_idKey list)]
  rw [childrenOf, List.length_map] at bound
  simp only [childrenOf, List.getElem_map, withParent, has, Option.getD_some,
    Fields.get?_insert_self]

theorem nonNull?_withoutNested {known : String → Bool} {key : String}
    (distinct : (Fields.keys document).Nodup) (missing : document.nonNull? key = none) :
    (document.withoutNested known).nonNull? key = none := by
  cases held : (document.withoutNested known).nonNull? key with
  | none => rfl
  | some value =>
      have found := nonNull?_eq_some_iff.mp held
      have member := List.mem_of_mem_filter (Fields.mem_of_get?_eq_some found.1)
      rw [nonNull?_eq_some_iff.mpr ⟨(Fields.get?_eq_some_iff_mem distinct).mpr member, found.2⟩]
        at missing
      cases missing

end Document

namespace Cascade

open Document

/-! ## Batches of children without children -/

variable {known : String → Bool} {ids : IdSupply} {list : String}

theorem batches_flat {documents : List Document}
    (flat : ∀ document ∈ documents, document.nestedFields known = []) :
    batches known ids list documents = [{ list, documents := ids.identify documents, known }] := by
  rw [batches_eq, List.flatMap_eq_nil_iff.mpr]
  rintro ⟨document, index⟩ position
  dsimp only
  rw [IdSupply.nestedFields_of_mem_identify flat (List.fst_mem_of_mem_zipIdx position)]
  rfl

theorem answers_flat {documents : List Document}
    (flat : ∀ document ∈ documents, document.nestedFields known = []) :
    answers Fields.insertAll known ids list documents = ids.identify documents := by
  have same : ∀ position ∈ (ids.identify documents).zipIdx,
      (position.1.withoutNested known).insertAll
        (childFields Fields.insertAll known (ids.branch position.2) list position.1) = position.1 := by
    rintro ⟨document, index⟩ position
    have none : document.nestedFields known = [] :=
      IdSupply.nestedFields_of_mem_identify flat (List.fst_mem_of_mem_zipIdx position)
    rw [withoutNested_of_flat none, childFields, none]
    rfl
  rw [answers_eq, List.map_congr_left same]
  exact List.zipIdx_map_fst 0 _

def childBatch (known : String → Bool) (ids : IdSupply) (list : String) (parent : Document)
    (nested : (String × List Value) × Nat) : Batch where
  list := nested.1.1
  documents := (ids.branch nested.2).identify
    (childrenOf list (parent.withoutNested known) nested.1.2)
  known := knownWith known list

/-- No child of a document has children of its own, once it refers to the document. -/
def ChildrenFlat (known : String → Bool) (list : String) (parent : Document) : Prop :=
  ∀ nested ∈ parent.nestedFields known,
    ∀ child ∈ childrenOf list (parent.withoutNested known) nested.2,
      child.nestedFields (knownWith known list) = []

variable {parent : Document}

instance : Decidable (ChildrenFlat known list parent) :=
  decidable_of_iff (∀ nested ∈ parent.nestedFields known,
      ∀ child ∈ childrenOf list (parent.withoutNested known) nested.2,
        (child.nestedFields (knownWith known list)).isEmpty = true)
    (by simp only [ChildrenFlat, List.isEmpty_iff])

theorem batches_parent {document : Document} (identified : ids.identify [document] = [parent])
    (flat : ChildrenFlat known list parent) :
    batches known ids list [document] =
      { list, documents := [parent], known } ::
        (parent.nestedFields known).zipIdx.map (childBatch known (ids.branch 0) list parent) := by
  rw [batches_eq, identified, List.zipIdx_singleton, List.flatMap_singleton,
    List.map_eq_flatMap]
  congr 1
  apply List.flatMap_congr
  rintro ⟨⟨field, items⟩, place⟩ position
  exact batches_flat (flat _ (List.fst_mem_of_mem_zipIdx position))

theorem stored_childBatch (flat : ChildrenFlat known list parent)
    {nested : (String × List Value) × Nat} (member : nested ∈ (parent.nestedFields known).zipIdx) :
    (childBatch known ids list parent nested).stored =
      (childBatch known ids list parent nested).documents := by
  have same : ∀ child ∈ (childBatch known ids list parent nested).documents,
      child.withoutNested (knownWith known list) = id child := fun child inside =>
    withoutNested_of_flat (IdSupply.nestedFields_of_mem_identify
      (flat _ (List.fst_mem_of_mem_zipIdx member)) inside)
  exact (List.map_congr_left same).trans (List.map_id _)

theorem childFields_flat (flat : ChildrenFlat known list parent) :
    childFields Fields.insertAll known ids list parent =
      (parent.nestedFields known).zipIdx.map fun nested =>
        (nested.1.1, .array
          ((childBatch known ids list parent nested).documents.map Value.document)) := by
  apply List.map_congr_left
  rintro ⟨⟨field, items⟩, place⟩ position
  dsimp only
  rw [answers_flat (flat _ (List.fst_mem_of_mem_zipIdx position))]
  rfl

/-! ## What is stored and answered -/

theorem lists_childBatches (known : String → Bool) (ids : IdSupply) (list : String)
    (parent : Document) :
    ((parent.nestedFields known).zipIdx.map (childBatch known ids list parent)).map Batch.list =
      (parent.nestedFields known).map Prod.fst := by
  have names := congrArg (List.map Prod.fst) (List.zipIdx_map_fst 0 (parent.nestedFields known))
  rw [List.map_map] at names
  rw [List.map_map]
  exact names

theorem nodup_keys_answer (distinct : (Fields.keys parent).Nodup) (known : String → Bool)
    (ids : IdSupply) (list : String) :
    (Fields.keys (parent.withoutNested known) ++
      Fields.keys (childFields Fields.insertAll known ids list parent)).Nodup := by
  rw [keys_childFields]
  exact (keys_perm known parent).nodup_iff.mpr distinct

theorem id?_answer {id : Value} (distinct : (Fields.keys parent).Nodup)
    (has : (parent.withoutNested known).id? = some id) :
    Document.id? ((parent.withoutNested known).insertAll
      (childFields Fields.insertAll known ids list parent)) = some id := by
  have held := id?_eq_some_iff.mp has
  have names := nodup_keys_answer distinct known ids list
  have stored : idKey ∈ Fields.keys (parent.withoutNested known) :=
    List.mem_map_of_mem (Fields.mem_of_get?_eq_some held.1)
  have absent : idKey ∉ Fields.keys (childFields Fields.insertAll known ids list parent) :=
    fun nested => (List.nodup_append.mp names).2.2 idKey stored idKey nested rfl
  refine id?_eq_some_iff.mpr ⟨?_, held.2⟩
  rw [Fields.get?_insertAll_other]
  · exact held.1
  · rw [Fields.contains_eq_isSome_get?, Fields.get?_eq_none absent]
    rfl

variable {σ : Type} [Medium σ] {store : Store} {medium : σ} {document created : Document}

theorem created_eq (identified : ids.identify [document] = [parent])
    (succeeded : (Store.create ids list (.one document) .documents (store, medium)).1 =
      .ok (.one created)) :
    created = (parent.withoutNested store.collections.knows).insertAll
      (childFields Fields.insertAll store.collections.knows (ids.branch 0) list parent) := by
  rw [create_apply, Session.bind_apply, NewDocuments.toList, answers_eq, identified] at succeeded
  generalize forM (batches store.collections.knows ids list [document]) Batch.store
    (store, medium) = result at succeeded
  rcases result with ⟨cause | _, reached⟩
  · cases succeeded
  · cases succeeded
    rfl

theorem documentsOrEmpty_create {reply : Reply} (identified : ids.identify [document] = [parent])
    (flat : ChildrenFlat store.collections.knows list parent)
    (succeeded : (Store.create ids list (.one document) reply (store, medium)).1.isOk = true)
    (name : String) :
    (Store.create ids list (.one document) reply (store, medium)).2.1.collections.documentsOrEmpty
        name =
      store.collections.documentsOrEmpty name ++
        ((if list = name then [parent.withoutNested store.collections.knows] else []) ++
          Batch.storedIn name ((parent.nestedFields store.collections.knows).zipIdx.map
            (childBatch store.collections.knows (ids.branch 0) list parent))) := by
  rw [collections_create succeeded, Batch.documentsOrEmpty_addAll, NewDocuments.toList,
    batches_parent identified flat, Batch.storedIn_cons]
  rfl

end Cascade

/-! ## Finding the children -/

section

open Document Cascade

variable {σ : Type} [Medium σ] {store : Store} {medium : σ} {ids : IdSupply}
  {list included : String} {document parent created : Document} {id : Value} {items : List Value}

theorem find_by_id {collections : Collections} {documents others : List Document}
    (unique : collections.HasUniqueIds) (found : collections[list]? = some documents)
    (foundIncluded : collections[included]? = some others) (member : document ∈ documents)
    (has : document.id? = some id) (free : id.FreeOfNaN) :
    collections.find list { filter := .fieldEquals idKey id, includes := [(included, {})] } =
      .ok [document.attachRelated included
        (Collections.relatedByConvention list included others document)] := by
  have byId : documents.filter (fun other => (other.get? idKey).any (·.equals id)) =
      documents.filter (Document.hasId id) :=
    List.filter_congr fun other _ => any_equals_idKey (id?_eq_some_iff.mp has).2
  rw [Collections.find_by_convention found foundIncluded rfl, Predicate.select_fieldEquals, byId,
    Collections.filter_hasId (unique list documents found) member has (Value.equals_self free)]
  rfl

/-- The children in a field are what its list gets beside the document itself, and what the answer has
in the field. They refer to the document. -/
theorem exists_children (ids : IdSupply) (distinct : (Fields.keys parent).Nodup)
    (has : (parent.withoutNested store.collections.knows).id? = some id)
    (isKnown : store.collections.knows included = true)
    (holds : parent.get? included = some (.array items))
    (flat : ChildrenFlat store.collections.knows list parent) :
    ∃ children,
      Batch.storedIn included ((parent.nestedFields store.collections.knows).zipIdx.map
          (childBatch store.collections.knows ids list parent)) = children ∧
        Fields.get? ((parent.withoutNested store.collections.knows).insertAll
          (childFields Fields.insertAll store.collections.knows ids list parent)) included =
            some (.array (children.map Value.document)) ∧
        ∀ child ∈ children, child.get? (foreignKey list) = some id := by
  have nested : (included, items) ∈ parent.nestedFields store.collections.knows :=
    mem_nestedFields_iff.mpr ⟨Fields.mem_of_get?_eq_some holds, isKnown⟩
  rcases List.getElem?_of_mem nested with ⟨place, here⟩
  have position : ((included, items), place) ∈
      (parent.nestedFields store.collections.knows).zipIdx :=
    List.mk_mem_zipIdx_iff_getElem?.mpr here
  have names := nodup_keys_answer distinct store.collections.knows ids list
  refine ⟨(childBatch store.collections.knows ids list parent ((included, items), place)).documents,
    ?_, ?_, fun child => get?_foreignKey_of_mem_identify has⟩
  · have lists : (((parent.nestedFields store.collections.knows).zipIdx.map
        (childBatch store.collections.knows ids list parent)).map Batch.list).Nodup := by
      rw [lists_childBatches, ← keys_childFields Fields.insertAll store.collections.knows ids list]
      exact (List.nodup_append.mp names).2.1
    exact (Batch.storedIn_of_distinct lists (List.mem_map_of_mem position)).trans
      (stored_childBatch flat position)
  · have allNames : (Fields.keys (parent.withoutNested store.collections.knows ++
        childFields Fields.insertAll store.collections.knows ids list parent)).Nodup := by
      rw [Fields.keys, List.map_append]
      exact names
    rw [Fields.insertAll_eq_append names, Fields.get?_eq_some_iff_mem allNames, childFields_flat flat]
    exact List.mem_append_right _ (List.mem_map_of_mem position)

theorem exists_found_after_create {reply : Reply} (identified : ids.identify [document] = [parent])
    (flat : ChildrenFlat store.collections.knows list parent)
    (isKnown : store.collections.knows included = true)
    (succeeded : (Store.create ids list (.one document) reply (store, medium)).1.isOk = true) :
    ∃ documents others,
      (Store.create ids list (.one document) reply (store, medium)).2.1.collections[list]? =
          some documents ∧
        (Store.create ids list (.one document) reply (store, medium)).2.1.collections[included]? =
          some others ∧
        parent.withoutNested store.collections.knows ∈ documents ∧
        others = store.collections.documentsOrEmpty included ++
          ((if list = included then [parent.withoutNested store.collections.knows] else []) ++
            Batch.storedIn included ((parent.nestedFields store.collections.knows).zipIdx.map
              (childBatch store.collections.knows (ids.branch 0) list parent))) := by
  have contents := documentsOrEmpty_create identified flat succeeded
  have left := collections_create succeeded
  generalize (Store.create ids list (.one document) reply (store, medium)).2.1.collections = after
    at contents left ⊢
  have stored : parent.withoutNested store.collections.knows ∈ after.documentsOrEmpty list := by
    rw [contents, if_pos rfl]
    exact List.mem_append_right _ (List.mem_append_left _ List.mem_cons_self)
  have knownAfter : after.knows included = true := by
    rw [left, knows_addAll_batches rfl]
    exact knownWith_of_known isKnown list
  rcases Collections.exists_found_of_mem stored with ⟨documents, found⟩
  rcases Collections.knows_iff_exists_found.mp knownAfter with ⟨others, foundIncluded⟩
  rw [Collections.documentsOrEmpty_of_found found] at stored
  exact ⟨documents, others, found, foundIncluded, stored,
    (Collections.documentsOrEmpty_of_found foundIncluded).symm.trans (contents included)⟩

theorem related_eq_children {knows : String → Bool} {others children : List Document}
    (distinct : (Fields.keys parent).Nodup) (has : (parent.withoutNested knows).id? = some id)
    (unreferred : parent.nonNull? (foreignKey included) = none)
    (fresh : ∀ other ∈ others, (other.get? (foreignKey list)).any (·.equals id) = false)
    (refer : ∀ child ∈ children, (child.get? (foreignKey list)).any (·.equals id) = true) :
    Collections.relatedByConvention list included
        (others ++ ((if list = included then [parent.withoutNested knows] else []) ++ children))
        (parent.withoutNested knows) = children := by
  have free : (parent.withoutNested knows).nonNull? (foreignKey included) = none :=
    nonNull?_withoutNested distinct unreferred
  -- Also in the list that it goes to, the parent is not one of its children.
  have parentNot : (if list = included then [parent.withoutNested knows] else []).filter
      (fun other => (other.get? (foreignKey list)).any (·.equals id)) = [] := by
    split
    · next same =>
      rw [List.filter_singleton, any_equals_get? (id?_eq_some_iff.mp has).2, same, free]
      rfl
    · rfl
  have othersNot : others.filter (fun other => (other.get? (foreignKey list)).any (·.equals id)) = [] :=
    List.filter_eq_nil_iff.mpr fun other member => by rw [fresh other member]; exact Bool.false_ne_true
  rw [Collections.relatedByConvention, joinPredicate_of_no_reference free, has, Option.getD_some,
    Predicate.select_fieldEquals, List.filter_append, List.filter_append, othersNot, parentNot,
    List.filter_eq_self.mpr refer]
  rfl

/-- A query for a created document that includes the list of its children finds exactly the children
that the creation answered with, in their order, whether they are in a list of their own or in that of
the document. -/
theorem include_finds_created_children (unique : store.collections.HasUniqueIds)
    (proper : document.IsProper) (identified : parent = document.withId (ids.branch 0).root)
    (has : parent.id? = some id) (plain : parent.hasPlainId = true) (free : id.FreeOfNaN)
    (isKnown : store.collections.knows included = true)
    (holds : parent.get? included = some (.array items))
    (unreferred : parent.nonNull? (foreignKey included) = none)
    (flat : ChildrenFlat store.collections.knows list parent)
    (fresh : ∀ other ∈ store.collections.documentsOrEmpty included,
      (other.get? (foreignKey list)).any (·.equals id) = false)
    (succeeded : (Store.create ids list (.one document) .documents (store, medium)).1 =
      .ok (.one created)) :
    created.id? = some id ∧
      ∃ row children,
        (Store.find list { filter := .fieldEquals idKey id, includes := [(included, {})] }
          (Store.create ids list (.one document) .documents (store, medium)).2).1 = .ok [row] ∧
        row.get? included = some (.array children) ∧
        created.get? included = some (.array children) := by
  have single : ids.identify [document] = [parent] := by rw [identified]; rfl
  have distinct : (Fields.keys parent).Nodup :=
    (isProper_iff.mp (identified ▸ isProper_withId proper _)).1
  have hasStored : (parent.withoutNested store.collections.knows).id? = some id :=
    id?_withoutNested has (.inr plain)
  have isOk : (Store.create ids list (.one document) .documents (store, medium)).1.isOk = true := by
    rw [succeeded]
    rfl
  have uniqueAfter := Store.obeys_create keepsUniqueIds_composes
    (Store.obeys_append keepsUniqueIds_composes.idle adoptions_keepsUniqueIds) ids list
    (.one document) .documents (store, medium) unique
  rcases exists_found_after_create single flat isKnown isOk with
    ⟨documents, others, found, foundIncluded, stored, contents⟩
  rcases exists_children (ids.branch 0) distinct hasStored isKnown holds flat with
    ⟨children, inList, inAnswer, refer⟩
  have related : Collections.relatedByConvention list included others
      (parent.withoutNested store.collections.knows) = children := by
    rw [contents, inList]
    refine related_eq_children distinct hasStored unreferred fresh fun child member => ?_
    rw [refer child member]
    exact Value.equals_self free
  refine ⟨?_, _, children.map Value.document,
    find_by_id uniqueAfter found foundIncluded stored hasStored free, ?_, ?_⟩
  · rw [created_eq single succeeded]
    exact id?_answer distinct hasStored
  · rw [related]
    exact Fields.get?_insert_self _ _ _
  · rw [created_eq single succeeded]
    exact inAnswer

private def staffAndNotes : Store where
  collections := ((∅ : Collections).insert "staff"
    [[("id", .int32 1)], [("id", .int32 5), ("staff_id", .int32 1)]]).insert "notes" []

private def newChief : Document :=
  [("staff", .array [.document [("id", .int32 2)],
      .document [("staff_id", .int32 1), ("id", .int32 3)]]),
    ("notes", .array [.document [("id", .int32 7)]])]

private def chiefIds : IdSupply where
  text _ := "chief"

theorem include_finds_staff_of_new_chief :
    let parent : Document := ("id", .string "chief") :: newChief
    let children : List Value := [.document [("id", .int32 2), ("staff_id", .string "chief")],
      .document [("staff_id", .string "chief"), ("id", .int32 3)]]
    let created : Document := [("id", .string "chief"), ("staff", .array children),
      ("notes", .array [.document [("id", .int32 7), ("staff_id", .string "chief")]])]
    staffAndNotes.collections.HasUniqueIds ∧ newChief.IsProper ∧
      parent = newChief.withId (chiefIds.branch 0).root ∧
      parent.id? = some (.string "chief") ∧ parent.hasPlainId = true ∧
      (Value.string "chief").FreeOfNaN ∧ staffAndNotes.collections.knows "staff" = true ∧
      parent.nonNull? (foreignKey "staff") = none ∧
      ChildrenFlat staffAndNotes.collections.knows "staff" parent ∧
      (∀ other ∈ staffAndNotes.collections.documentsOrEmpty "staff",
        (other.get? (foreignKey "staff")).any (·.equals (.string "chief")) = false) ∧
      (Store.create chiefIds "staff" (.one newChief) .documents (staffAndNotes, Disk.empty)).1 =
        .ok (.one created) ∧
      created.id? = some (.string "chief") ∧
      ∃ row found,
        (Store.find "staff"
          { filter := .fieldEquals idKey (.string "chief"), includes := [("staff", {})] }
          (Store.create chiefIds "staff" (.one newChief) .documents
            (staffAndNotes, Disk.empty)).2).1 = .ok [row] ∧
        row.get? "staff" = some (.array found) ∧ created.get? "staff" = some (.array found) := by
  intro parent children created
  have unique : staffAndNotes.collections.HasUniqueIds :=
    Collections.each_insert (Collections.each_insert Collections.each_empty
      (Document.uniqueIds_iff.mpr (by decide))) Document.uniqueIds_nil
  have proper : newChief.IsProper := by decide +kernel
  have free : (Value.string "chief").FreeOfNaN := rfl
  have flat : ChildrenFlat staffAndNotes.collections.knows "staff" parent := by decide +kernel
  have fresh : ∀ other ∈ staffAndNotes.collections.documentsOrEmpty "staff",
      (other.get? (foreignKey "staff")).any (·.equals (.string "chief")) = false := by
    decide +kernel
  have succeeded : (Store.create chiefIds "staff" (.one newChief) .documents
      (staffAndNotes, Disk.empty)).1 = .ok (.one created) := by
    with_unfolding_all rfl
  exact ⟨unique, proper, rfl, rfl, rfl, free, rfl, rfl, flat, fresh, succeeded,
    include_finds_created_children unique proper rfl rfl rfl free rfl rfl rfl flat fresh succeeded⟩

end

end DocStore

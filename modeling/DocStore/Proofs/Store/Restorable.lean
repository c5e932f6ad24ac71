import DocStore.Proofs.Snapshot.PlainData
import DocStore.Proofs.Store.Cascade

/-!
Collections that can be restored. If the documents that requests bring along are read back from a
snapshot as they were saved, apart from the types of integers, so are all documents that a store comes
to hold.
-/

namespace DocStore

namespace Document

/-! ## References are no tags -/

def referenceEnd : List Char := "_id".toList

theorem not_isSuffix_of_isTag {key : String} (tag : Value.isTag key = true) :
    ¬referenceEnd.IsSuffix key.toList :=
  (by decide : ∀ key ∈ Value.tags, ¬referenceEnd.IsSuffix key.toList) key
    (Value.mem_tags_of_isTag tag)

theorem isTag_foreignKey (list : String) : Value.isTag (foreignKey list) = false := by
  apply Bool.eq_false_iff.mpr
  intro tag
  apply not_isSuffix_of_isTag tag
  rw [foreignKey, String.append_assoc, String.toList_append]
  exact List.suffix_append list.toList referenceEnd

/-! ## Restorable documents -/

/-- Whether a field can be restored in a document. -/
def IsRestorableField (field : String × Value) : Prop :=
  Value.isTag field.1 = false ∧ field.2.everywhere Value.isRestorable = true

theorem isRestorable_iff {document : Document} :
    document.IsRestorable ↔ document.Fits IsRestorableField := by
  rw [IsRestorable, Value.everywhere_document_iff, Value.isRestorable, Value.isPlainDocument,
    Bool.and_eq_true, decide_eq_true_iff, List.all_eq_true]
  constructor
  · intro both
    rcases both with ⟨⟨distinct, noTags⟩, each⟩
    exact ⟨distinct, fun field member =>
      ⟨(Bool.not_eq_true' _).mp (noTags field member), each field member⟩⟩
  · intro both
    rcases both with ⟨distinct, each⟩
    exact ⟨⟨distinct, fun field member => (Bool.not_eq_true' _).mpr (each field member).1⟩,
      fun field member => (each field member).2⟩

theorem passesOn_isRestorableField : PassesOn IsRestorableField where
  fresh _ := ⟨(by decide : Value.isTag idKey = false), rfl⟩
  noReference list := ⟨isTag_foreignKey list, rfl⟩
  reference list restorable := ⟨isTag_foreignKey list, restorable.2⟩
  child held inside := isRestorable_iff.mp ((Value.everywhere_array_iff.mp held.2).2 _ inside)

end Document

/-! ## Requests -/

namespace Collections

def AllFit (allowed : String × Value → Prop) (collections : Collections) : Prop :=
  collections.Each fun documents => ∀ document ∈ documents, document.Fits allowed

end Collections

namespace Request

/-- The documents that a request brings along. -/
def given : Request → List Document
  | create _ _ requested _ => requested.toList
  | createList _ _ documents => documents
  | updateOne _ update | updateMany _ update => [update.data]
  | _ => []

variable {allowed : String × Value → Prop} {request : Request} {collections : Collections}

theorem exists_of_mem_modify {documents : List Document} {position : Nat}
    {change : Document → Document} {document : Document}
    (member : document ∈ documents.modify position change) :
    ∃ old ∈ documents, document = old ∨ document = change old := by
  rcases List.mem_iff_getElem?.mp member with ⟨index, here⟩
  rw [List.getElem?_modify] at here
  split at here
  · rcases Option.map_eq_some_iff.mp here with ⟨old, there, rfl⟩
    exact ⟨old, List.mem_of_getElem? there, .inr rfl⟩
  · next old => exact ⟨document, List.mem_of_getElem? (by simpa using here), .inl rfl⟩

theorem allFit_of_leaves {next : Collections} (passes : Document.PassesOn allowed)
    (leaves : request.Leaves collections next)
    (brings : ∀ document ∈ request.given, document.Fits allowed)
    (before : collections.AllFit allowed) : next.AllFit allowed := by
  cases leaves with
  | prepare => exact Collections.each_withLists before (fun _ member => nomatch member) _
  | @createList _ ids _ _ _ _ =>
      exact Collections.each_insert before (IdSupply.fits_of_mem_identify passes ids brings)
  | removeList => exact Collections.each_erase before
  | updateOne found _ =>
      refine Collections.each_insert before fun document member => ?_
      rcases exists_of_mem_modify member with ⟨old, inside, rfl | rfl⟩
      · exact before _ _ found _ inside
      · exact Document.fits_insertAll (before _ _ found old inside) (brings _ List.mem_cons_self).2
  | updateMany found _ =>
      refine Collections.each_insert before fun document member => ?_
      rcases List.mem_map.mp member with ⟨old, inside, rfl⟩
      split
      · exact Document.fits_insertAll (before _ _ found old inside) (brings _ List.mem_cons_self).2
      · exact before _ _ found old inside
  | delete found =>
      refine Collections.each_insert before fun document member => ?_
      exact before _ _ found document (List.mem_filter.mp member).1
  | close => exact before

section

variable {σ : Type} [Medium σ] {state : Store × σ}

theorem fits_of_mem_batches (passes : Document.PassesOn allowed)
    (brings : ∀ document ∈ request.given, document.Fits allowed) {known : String → Bool}
    {batch : Batch} (member : batch ∈ request.batches known) :
    ∀ document ∈ batch.documents, document.Fits allowed := by
  cases request with
  | create ids list requested reply => exact Cascade.fits_of_mem_batches passes brings member
  | _ => cases member

theorem allFit_step (passes : Document.PassesOn allowed)
    (brings : ∀ document ∈ request.given, document.Fits allowed)
    (before : state.1.collections.AllFit allowed) :
    (request.step state).after.1.collections.AllFit allowed := by
  refine holds_step (Collections.AllFit allowed) before
    (fun next leaves => allFit_of_leaves passes leaves brings before) ?_
  intro batch member collections fits
  refine Batch.each_addTo fits fun document stored => ?_
  rcases List.mem_map.mp stored with ⟨original, here, rfl⟩
  exact Document.fits_of_sublist List.filter_sublist
    (fits_of_mem_batches passes brings member original here)

end

end Request

end DocStore

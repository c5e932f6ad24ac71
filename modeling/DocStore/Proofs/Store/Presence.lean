import DocStore.Medium.Disk
import DocStore.Proofs.Store.Cascade
import DocStore.Proofs.Store.Identity

/-!
Every document has an identifier. New documents get one before they are stored, and no update changes
it. It can only be lost on the way into a list: where a list is called like the field of identifiers,
an identifier that is an array is taken for children.
-/

namespace DocStore

namespace Document

def IsIdentified (document : Document) : Prop :=
  ∃ id, document.get? idKey = some id ∧ id ≠ .null

theorem isIdentified_iff {document : Document} :
    document.IsIdentified ↔ ∃ id, document.id? = some id := by
  simp only [IsIdentified, id?_eq_some_iff]

theorem isIdentified_congr {document other : Document} (same : document.id? = other.id?)
    (identified : other.IsIdentified) : document.IsIdentified := by
  rw [isIdentified_iff] at identified ⊢
  rwa [same]

end Document

namespace Collections

def AllIdentified (collections : Collections) : Prop :=
  collections.Each fun documents => ∀ document ∈ documents, document.IsIdentified

variable {collections : Collections}

theorem allIdentified_updated {update : Update} (valid : update.validate = .ok ())
    {documents updated : List Document}
    (each : List.Forall₂ (fun old new => new = old ∨ new = update.apply old) documents updated)
    (identified : ∀ document ∈ documents, document.IsIdentified) :
    ∀ document ∈ updated, document.IsIdentified := by
  induction each with
  | nil => exact identified
  | @cons old new _ _ here later induction =>
      rw [List.forall_mem_cons] at identified ⊢
      refine ⟨?_, induction identified.2⟩
      rcases here with rfl | rfl
      · exact identified.1
      · exact Document.isIdentified_congr (update.id?_apply valid old) identified.1

theorem Revision.allIdentified {next : Collections} (revision : collections.Revision next)
    (identified : collections.AllIdentified) : next.AllIdentified := by
  cases revision with
  | stay => exact identified
  | addLists lists => exact each_withLists identified (fun _ member => nomatch member) _
  | addList ids list documents absent checked =>
      refine each_insert identified fun document member => ?_
      exact Document.isIdentified_iff.mpr (IdSupply.exists_id?_of_mem_identify member)
  | removeList list => exact each_erase identified
  | update update found valid each =>
      exact each_insert identified (allIdentified_updated valid each (identified _ _ found))
  | delete filter found =>
      refine each_insert identified fun document member => ?_
      exact identified _ _ found document (List.mem_filter.mp member).1

end Collections

/-! ## Creations -/

namespace Batch

/-- Whether no document loses its identifier on the way into the list. -/
def keepsIds (batch : Batch) : Bool :=
  !batch.known Document.idKey || batch.documents.all Document.hasPlainId

theorem isIdentified_of_mem_stored {batch : Batch} {document : Document}
    (has : ∀ document ∈ batch.documents, ∃ id, document.id? = some id)
    (keeps : batch.keepsIds = true) (member : document ∈ batch.stored) : document.IsIdentified := by
  rcases List.mem_map.mp member with ⟨original, here, rfl⟩
  rcases has original here with ⟨id, hasId⟩
  rw [keepsIds, Bool.or_eq_true, Bool.not_eq_true', List.all_eq_true] at keeps
  exact Document.isIdentified_iff.mpr
    ⟨id, Document.id?_withoutNested hasId (keeps.imp_right fun plain => plain original here)⟩

end Batch

variable {σ : Type} [Medium σ]

namespace Request

/-- Whether every document that a request creates keeps its identifier. -/
def keepsIds (collections : Collections) : Request → Bool
  | create ids list requested _ =>
      (Cascade.batches collections.knows ids list requested.toList).all Batch.keepsIds
  | _ => true

theorem keepsIds_of_mem_batches {request : Request} {collections : Collections}
    (keeps : request.keepsIds collections = true) {batch : Batch}
    (member : batch ∈ request.batches collections.knows) :
    batch.keepsIds = true ∧ ∀ document ∈ batch.documents, ∃ id, document.id? = some id := by
  cases request with
  | create ids list requested reply =>
      exact ⟨List.all_eq_true.mp keeps batch member, Cascade.exists_id?_of_mem_batches member⟩
  | _ => cases member

theorem allIdentified_step {request : Request} {state : Store × σ}
    (keeps : request.keepsIds state.1.collections = true)
    (before : state.1.collections.AllIdentified) :
    (request.step state).after.1.collections.AllIdentified := by
  refine holds_step Collections.AllIdentified before
    (fun next leaves => leaves.revision.allIdentified before) ?_
  intro batch member collections identified
  rcases keepsIds_of_mem_batches keeps member with ⟨kept, has⟩
  exact Batch.each_addTo identified fun document => Batch.isIdentified_of_mem_stored has kept

end Request

/-- A store whose documents all have an identifier keeps it so throughout a run, as long as no
identifier is an array that goes into a list called like the field of identifiers. -/
theorem allIdentified_throughout {start : Store × σ} {requests : List Request}
    (identified : start.1.collections.AllIdentified)
    (keeps : ∀ step ∈ steps requests start,
      step.request.keepsIds step.before.1.collections = true) :
    ∀ step ∈ steps requests start,
      step.before.1.collections.AllIdentified ∧ step.after.1.collections.AllIdentified := by
  refine holds_at_steps (fun state => state.1.collections.AllIdentified) ?_ identified
  intro step member before
  rw [eq_step_of_mem_steps member]
  exact Request.allIdentified_step (keeps step member) before

private def emptyStart : Store × Disk :=
  ({}, Disk.empty)

private theorem allIdentified_emptyStart : emptyStart.1.collections.AllIdentified := by
  intro list documents found
  cases Std.ExtTreeMap.getElem?_empty.symm.trans found

private def idListRequests : List Request :=
  [.createList (.seeded 0) "id" [],
    .create (.seeded 0) "users" (.one [("name", .string "jane doe")]) .documents]

theorem allIdentified_with_list_called_id :
    emptyStart.1.collections.AllIdentified ∧
      (∀ step ∈ steps idListRequests emptyStart,
        step.succeeded = true ∧ step.request.keepsIds step.before.1.collections = true) ∧
      ∀ step ∈ steps idListRequests emptyStart, step.after.1.collections.AllIdentified := by
  have keeps : ∀ step ∈ steps idListRequests emptyStart,
      step.succeeded = true ∧ step.request.keepsIds step.before.1.collections = true := by
    decide +kernel
  refine ⟨allIdentified_emptyStart, keeps, fun step member => ?_⟩
  have run := allIdentified_throughout allIdentified_emptyStart fun step here => (keeps step here).2
  exact (run step member).2

/-- Where a list is called `id`, an array under that name is taken for children, although it is the
identifier. -/
theorem user_stored_without_id :
    let listed := (Request.createList (.seeded 0) "id" []).step emptyStart
    let created := (Request.create (.seeded 0) "users"
      (.one [("id", .array []), ("name", .string "jane doe")]) .documents).step listed.after
    emptyStart.1.collections.AllIdentified ∧ created.succeeded = true ∧
      created.after.1.collections["users"]? = some [[("name", .string "jane doe")]] ∧
      ¬ created.after.1.collections.AllIdentified := by
  intro listed created
  have stored : created.after.1.collections["users"]? = some [[("name", .string "jane doe")]] := by
    with_unfolding_all rfl
  refine ⟨allIdentified_emptyStart, by decide +kernel, stored, fun identified => ?_⟩
  rcases identified "users" _ stored _ List.mem_cons_self with ⟨id, found, _⟩
  cases found

end DocStore

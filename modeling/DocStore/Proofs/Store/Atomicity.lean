import DocStore.Medium.Disk
import DocStore.Proofs.Medium.Faults
import DocStore.Proofs.Store.Transition

/-!
Requests that fail. A request that is refused, or whose change cannot be saved, leaves the memory of
the store as it was. Only a creation with children may fail after a part of it is done.
-/

namespace DocStore

variable {σ : Type} [Medium σ]

/-- A failure leaves the store as it was, whatever became of the medium. -/
def KeptOnFailure (succeeded : Bool) (before after : Store × σ) : Prop :=
  succeeded = false → after.1 = before.1

namespace Store

theorem adoptions_keptOnFailure {follows : Collections → Collections → Prop} :
    AdoptionsObey (σ := σ) follows KeptOnFailure := by
  intro α value store medium next _ failed
  rw [adopt_apply] at failed ⊢
  generalize saving medium store.file next = saved at failed ⊢
  rcases saved with ⟨cause | _, written⟩
  · rfl
  · cases failed

theorem create_flat_keptOnFailure {store : Store} {requested : NewDocuments}
    (flat : ∀ document ∈ requested.toList, document.nestedFields store.collections.knows = [])
    (ids : IdSupply) (list : String) (reply : Reply) (medium : σ) :
    KeptOnFailure (create ids list requested reply (store, medium)).1.isOk (store, medium)
      (create ids list requested reply (store, medium)).2 := by
  have batch := obeys_append (fun _ _ _ => rfl) adoptions_keptOnFailure list
    (ids.identify requested.toList) (store, medium)
  rw [create, bind_pure_comp]
  apply Session.related_map
  rw [createIn_flat flat, bind_pure_comp]
  exact Session.related_map batch _

end Store

namespace Request

/-- Whether a request does not create children: no field with an array is named after a list. -/
def IsFlat (collections : Collections) : Request → Prop
  | create _ _ requested _ =>
      ∀ document ∈ requested.toList, document.nestedFields collections.knows = []
  | _ => True

/-- A request that fails leaves the collections as they were, on every medium and wherever it
fails. -/
theorem store_eq_of_failure {request : Request} {store : Store} {medium : σ} {cause : StoreError}
    (flat : request.IsFlat store.collections)
    (failed : (request.run (store, medium)).1 = .error cause) :
    (request.run (store, medium)).2.1 = store := by
  suffices kept : KeptOnFailure (request.run (store, medium)).1.isOk (store, medium)
      (request.run (store, medium)).2 from kept (by rw [failed]; rfl)
  cases creation : request.isCreation with
  | false =>
      exact obeys_run_of_not_creation (fun _ _ _ => rfl) Store.adoptions_keptOnFailure creation _
  | true =>
      cases request with
      | create ids list requested reply =>
          exact Session.related_map (Store.create_flat_keptOnFailure flat ids list reply medium) _
      | _ => cases creation

private def exampleStore : Store where
  collections := (∅ : Collections).insert "users" [[("id", .int32 1)]]
  file := some "/db.json"

private def exampleMedium : Faulty Disk :=
  ⟨Disk.empty, [none, some .refused]⟩

theorem delete_keeps_store_when_move_fails :
    (delete "users" {}).IsFlat exampleStore.collections ∧
      ((delete "users" {}).run (exampleStore, exampleMedium)).1 =
        .error (.persistence .replace "/db.json") ∧
      ((delete "users" {}).run (exampleStore, exampleMedium)).2.1 = exampleStore := by
  have failed : ((delete "users" {}).run (exampleStore, exampleMedium)).1 =
      .error (.persistence .replace "/db.json") := by
    rfl
  exact ⟨trivial, failed, store_eq_of_failure trivial failed⟩

end Request

end DocStore

import DocStore.Medium.Disk
import DocStore.Proofs.Store.Mirror
import DocStore.Proofs.Store.Modification

/-!
An update of all selected documents can be repeated. Once its data is merged, merging it again makes no
difference, so that the second time neither the memory nor the snapshot changes.
-/

namespace DocStore

namespace Update

/-! ## Documents -/

variable (update : Update) (document : Document)

theorem apply_apply : update.apply (update.apply document) = update.apply document :=
  Fields.insertAll_insertAll document update.data

theorem revise_revise : update.revise (update.revise document) = update.revise document := by
  cases selected : update.filter.accepts document with
  | true =>
      have updated : update.revise document = update.apply document := by simp [revise, selected]
      rw [updated, revise, apply_apply, ite_self]
  | false =>
      have kept : update.revise document = document := by simp [revise, selected]
      rw [kept, kept]

/-- A document that is selected again was selected before, as the others were left alone. -/
theorem accepts_of_accepts_revise (again : update.filter.accepts (update.revise document) = true) :
    update.filter.accepts document = true := by
  cases selected : update.filter.accepts document with
  | true => rfl
  | false =>
      rw [revise, if_neg (by simp [selected]), selected] at again
      cases again

theorem countP_revise_le (documents : List Document) :
    (documents.map update.revise).countP update.filter.accepts ≤
      documents.countP update.filter.accepts := by
  rw [List.countP_map]
  exact List.countP_mono_left fun document _ => update.accepts_of_accepts_revise document

theorem map_revise_revise (documents : List Document) :
    (documents.map update.revise).map update.revise = documents.map update.revise := by
  simp [revise_revise]

end Update

namespace Collections

variable {collections : Collections} {list : String} {update : Update}

theorem requirements_of_updateMany {change : Change Nat}
    (decided : collections.updateMany list update = .ok change) :
    update.validate = .ok () ∧ update.filter.checkPatterns = .ok () ∧
      ∃ documents, collections[list]? = some documents := by
  rcases Outcome.bind_eq_ok_iff.mp decided with ⟨_, valid, decided⟩
  rcases Outcome.bind_eq_ok_iff.mp decided with ⟨_, checked, decided⟩
  rcases Outcome.bind_eq_ok_iff.mp decided with ⟨documents, found, _⟩
  exact ⟨valid, checked, documents, documents_eq_ok_iff.mp found⟩

end Collections

namespace Store

variable {σ : Type} [Medium σ] {store : Store} {medium : σ} {list : String} {update : Update}
  {documents : List Document}

/-! ## Requests -/

theorem exists_found_of_updateMany {count : Nat}
    (succeeded : (updateMany list update (store, medium)).1 = .ok count) :
    update.validate = .ok () ∧ update.filter.checkPatterns = .ok () ∧
      ∃ documents, store.collections[list]? = some documents := by
  rw [updateMany, changeList_apply] at succeeded
  cases decided : store.collections.updateMany list update with
  | error cause =>
      rw [decided] at succeeded
      cases succeeded
  | ok change => exact Collections.requirements_of_updateMany decided

/-- An update whose requirements are met saves the documents as it leaves them, if it selects any. -/
theorem updateMany_apply (found : store.collections[list]? = some documents)
    (valid : update.validate = .ok ()) (checked : update.filter.checkPatterns = .ok ()) :
    let count := documents.countP update.filter.accepts
    updateMany list update (store, medium) =
      if count = 0 then (.ok 0, store, medium)
      else adopt count (store.collections.insert list (documents.map update.revise))
        (store, medium) := by
  intro count
  have decided := Collections.updateMany_eq found valid
  rw [checked] at decided
  rw [updateMany, changeList_apply, decided]
  by_cases idle : documents.countP update.filter.accepts = 0
  · simp [Except.map, count, idle]
  · simp only [Except.map, count, if_neg idle]

theorem updateMany_settled (found : store.collections[list]? = some documents)
    (valid : update.validate = .ok ()) (checked : update.filter.checkPatterns = .ok ())
    (settled : documents.map update.revise = documents) :
    let count := documents.countP update.filter.accepts
    (updateMany list update (store, medium)).2.1 = store ∧
      ((count ≠ 0 → (saving medium store.file store.collections).1 = .ok ()) →
        (updateMany list update (store, medium)).1 = .ok count) := by
  intro count
  have same : store.collections.insert list documents = store.collections :=
    congrArg collections (withDocuments_self found)
  rw [updateMany_apply found valid checked, settled, same]
  by_cases idle : count = 0
  · rw [if_pos idle, idle]
    exact ⟨rfl, fun _ => rfl⟩
  · rw [if_neg idle]
    exact ⟨store_adopt_same count store medium, fun saves => (adopt_of_saved (saves idle)).1⟩

end Store

open Store

section

variable {σ : Type} [Medium σ] [LawfulMedium σ]

/-- The second of two equal updates of all selected documents finds nothing to change. It selects the
documents that the filter still accepts, which are no more than before, and fails only if there are any
and they cannot be saved. -/
theorem repeated_update_changes_nothing {list : String} {update : Update} {start : Store × σ}
    {count : Nat} (succeeded : (updateMany list update start).1 = .ok count) :
    let first := (updateMany list update start).2
    let second := updateMany list update first
    let again := (first.1.collections.documentsOrEmpty list).countP update.filter.accepts
    second.2.1 = first.1 ∧
      (∀ path, start.1.file = some path →
        Medium.read second.2.2 (Path.ofText path) = Medium.read first.2 (Path.ofText path)) ∧
      again ≤ count ∧
      ((again ≠ 0 → (saving first.2 first.1.file first.1.collections).1 = .ok ()) →
        second.1 = .ok again) := by
  rcases start with ⟨store, medium⟩
  rcases exists_found_of_updateMany succeeded with ⟨valid, checked, documents, found⟩
  intro first second again
  have applied : updateMany list update (store, medium) = _ :=
    updateMany_apply found valid checked
  by_cases idle : documents.countP update.filter.accepts = 0
  · -- Nothing is selected, and the second update starts where the first one did.
    rw [if_pos idle] at applied
    have unchanged : first = (store, medium) := congrArg Prod.snd applied
    have repeated : second = (.ok 0, store, medium) := by rw [← applied, ← unchanged]
    have none : again = 0 := by
      simp only [again, unchanged, Collections.documentsOrEmpty_of_found found, idle]
    rw [repeated, unchanged, none]
    exact ⟨rfl, fun _ _ => rfl, Nat.zero_le count, fun _ => rfl⟩
  · rw [if_neg idle] at applied
    have adopted := succeeded
    rw [applied] at adopted
    rcases saved_of_adopt_eq_ok adopted with ⟨saved, counted⟩
    have storeAfter : first.1 = store.withDocuments list (documents.map update.revise) := by
      simp only [first, applied]
      exact (adopt_of_saved saved).2
    have foundAfter : first.1.collections[list]? = some (documents.map update.revise) := by
      rw [storeAfter, getElem?_withDocuments, if_pos rfl]
    have settled : (updateMany list update (first.1, first.2)).2.1 = first.1 ∧ _ :=
      updateMany_settled foundAfter valid checked (update.map_revise_revise documents)
    have selected : again = (documents.map update.revise).countP update.filter.accepts := by
      simp only [again, Collections.documentsOrEmpty_of_found foundAfter]
    rw [selected]
    refine ⟨settled.1, ?_, ?_, settled.2⟩
    · intro path keeps
      have mirrored : Mirrored path first := by
        simp only [first, applied]
        exact mirrored_adopt keeps adopted
      have kept : Mirrored path second.2 := (obeys_changeList (mirroring_composes path).idle
        (adoptions_mirroring path) (fun _ _ _ => Request.leaves_of_updateMany) first).kept mirrored
      rw [kept.text, mirrored.text, settled.1]
    · rw [← counted]
      exact update.countP_revise_le documents

end

private def bob : Document :=
  [("id", .int32 1), ("name", .string "bob"), ("role", .string "admin")]

private def ann : Document :=
  [("id", .int32 2), ("role", .string "admin"), ("name", .string "ann")]

private def adminsStart : Store × Disk :=
  ({ collections := (∅ : Collections).insert "users" [bob, ann], file := some "/db.json" }, Disk.empty)

/-- The field that is set is one that the filter asks for, so that only one of two users is selected
again. -/
theorem repeated_update_of_administrators :
    let administrator := Predicate.fieldEquals "role" (.string "admin")
    let named := Predicate.fieldEquals "name" (.string "ann")
    let update : Update :=
      { filter := { alternatives := some [administrator, named] }, data := [("role", .string "user")] }
    let first := updateMany "users" update adminsStart
    let second := updateMany "users" update first.2
    first.1 = .ok 2 ∧ second.1 = .ok 1 ∧ second.2.1 = first.2.1 ∧
      Medium.read second.2.2 (Path.ofText "/db.json") =
        Medium.read first.2.2 (Path.ofText "/db.json") := by
  intro administrator named update first second
  have updated : first.1 = .ok 2 := rfl
  rcases repeated_update_changes_nothing updated with ⟨store, text, _, answers⟩
  exact ⟨updated, answers fun _ => rfl, store, text "/db.json" rfl⟩

end DocStore

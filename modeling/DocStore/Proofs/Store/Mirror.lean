import DocStore.Medium.Disk
import DocStore.Proofs.Medium.Faults
import DocStore.Proofs.Store.Transition

/-!
The snapshot mirrors the memory. A snapshot that could not be saved is the one from before, and then
the memory is as before too, so that neither runs ahead of the other, wherever saving fails.
-/

namespace DocStore

variable {σ : Type} [Medium σ]

namespace Snapshot

/-! ## Saving -/

variable [LawfulMedium σ]

theorem read_save (medium : σ) (path : String) (collections : Collections) :
    Medium.read (save medium path collections).2 (Path.ofText path) =
      match (save medium path collections).1 with
      | .ok _ => .text (render collections)
      | .error _ => Medium.read medium (Path.ofText path) := by
  unfold save
  generalize Path.ofText path = target
  generalize render collections = text
  have staged : (Medium.write medium target.staging text).1 = true →
      Medium.read (Medium.write medium target.staging text).2 target.staging = .text text :=
    LawfulMedium.read_write_self
  -- Even a write that fails spares the target, which is not where it is staged.
  have beside : Medium.read (Medium.write medium target.staging text).2 target =
      Medium.read medium target :=
    LawfulMedium.read_write_other (Path.place_staging_ne target).symm
  simp only
  generalize Medium.write medium target.staging text = written at staged beside ⊢
  rcases written with ⟨_ | _, medium⟩
  · exact beside
  · have moved : (Medium.move medium target.staging target).1 = true →
        Medium.read (Medium.move medium target.staging target).2 target =
          Medium.read medium target.staging :=
      LawfulMedium.read_move_target
    have unmoved : (Medium.move medium target.staging target).1 = false →
        Medium.read (Medium.move medium target.staging target).2 target =
          Medium.read medium target :=
      LawfulMedium.read_failed_move
    simp only
    generalize Medium.move medium target.staging target = result at moved unmoved ⊢
    rcases result with ⟨_ | _, medium⟩
    · exact (unmoved rfl).trans beside
    · exact (moved rfl).trans (staged rfl)

end Snapshot

/-! ## Mirroring -/

/-- The store keeps its snapshot at the path, and there is the text of its collections. -/
structure Mirrored (path : String) (state : Store × σ) : Prop where
  file : state.1.file = some path
  text : Medium.read state.2 (Path.ofText path) = .text (Snapshot.render state.1.collections)

/-- What a request does to a store that keeps a snapshot: it stays mirrored, and it comes to be
mirrored if the request succeeds in changing the collections. -/
structure Mirroring (path : String) (succeeded : Bool) (before after : Store × σ) : Prop where
  file : after.1.file = before.1.file
  kept : Mirrored path before → Mirrored path after
  restored : before.1.file = some path → succeeded = true →
    after.1.collections ≠ before.1.collections → Mirrored path after

theorem mirroring_composes (path : String) : Session.Composes (Mirroring (σ := σ) path) where
  idle _ _ := ⟨rfl, id, fun _ _ changed => absurd rfl changed⟩
  andThen {succeeded first second third} before after := by
    refine ⟨after.file.trans before.file, fun mirrored => after.kept (before.kept mirrored), ?_⟩
    intro keeps success changed
    by_cases sameFirst : second.1.collections = first.1.collections
    · rw [← sameFirst] at changed
      exact after.restored (before.file.trans keeps) success changed
    · exact after.kept (before.restored keeps rfl sameFirst)

variable [LawfulMedium σ]

theorem mirrored_adopt {α : Type} {value answer : α} {store : Store} {medium : σ}
    {next : Collections} {path : String} (keeps : store.file = some path)
    (adopted : (Store.adopt value next (store, medium)).1 = .ok answer) :
    Mirrored path (Store.adopt value next (store, medium)).2 := by
  rcases store with ⟨collections, file⟩
  cases keeps
  have read := Snapshot.read_save medium path next
  rw [Store.adopt_apply, Store.saving] at adopted ⊢
  generalize Snapshot.save medium path next = result at read adopted ⊢
  rcases result with ⟨cause | _, written⟩
  · cases adopted
  · exact ⟨rfl, read⟩

theorem adoptions_mirroring {follows : Collections → Collections → Prop} (path : String) :
    Store.AdoptionsObey (σ := σ) follows (Mirroring path) := by
  intro α value store medium next _
  rcases store with ⟨collections, file⟩
  rw [Store.adopt_apply]
  by_cases keeps : file = some path
  · subst keeps
    have read := Snapshot.read_save medium path next
    simp only [Store.saving]
    generalize Snapshot.save medium path next = saved at read ⊢
    rcases saved with ⟨cause | _, reached⟩
    · have kept (mirrored : Mirrored path (({ collections, file := some path } : Store), medium)) :
          Mirrored path (({ collections, file := some path } : Store), reached) :=
        ⟨rfl, read.trans mirrored.text⟩
      exact ⟨rfl, kept, fun _ success => nomatch success⟩
    · have mirrored : Mirrored path (({ collections := next, file := some path } : Store), reached) :=
        ⟨rfl, read⟩
      exact ⟨rfl, fun _ => mirrored, fun _ _ _ => mirrored⟩
  · generalize Store.saving medium file next = saved
    rcases saved with ⟨cause | _, reached⟩
    · exact ⟨rfl, fun mirrored => absurd mirrored.file keeps, fun same => absurd same keeps⟩
    · exact ⟨rfl, fun mirrored => absurd mirrored.file keeps, fun same => absurd same keeps⟩

namespace Request

theorem obeys_mirroring (path : String) (request : Request) :
    Session.Obeys (Mirroring (σ := σ) path) request.run :=
  obeys_run (mirroring_composes path) (adoptions_mirroring path) request

end Request

theorem file_of_mem_steps {path : String} {start : Store × σ} (keeps : start.1.file = some path)
    {requests : List Request} {step : Step σ} (member : step ∈ steps requests start) :
    step.before.1.file = some path := by
  have kept (request : Request) (state : Store × σ) (file : state.1.file = some path) :
      (request.step state).after.1.file = some path :=
    (request.obeys_mirroring path state).file.trans file
  exact (holds_throughout kept keeps step member).1

/-- A store that starts mirrored is mirrored after every request of a run. Every request keeps it
mirrored, succeeding or failing, and one that succeeds in changing the collections leaves it
mirrored whatever the snapshot was. -/
theorem snapshot_mirrors_collections {path : String} {start : Store × σ}
    (keeps : start.1.file = some path) (requests : List Request) :
    (Mirrored path start → ∀ step ∈ steps requests start, Mirrored path step.after) ∧
      ∀ step ∈ steps requests start,
        (Mirrored path step.before → Mirrored path step.after) ∧
          (step.succeeded = true → step.after.1.collections ≠ step.before.1.collections →
            Mirrored path step.after) := by
  constructor
  · intro mirrored step member
    have kept (request : Request) (state : Store × σ) := (request.obeys_mirroring path state).kept
    exact (holds_throughout kept mirrored step member).2
  · intro step member
    have mirroring := step.request.obeys_mirroring path step.before
    have keepsBefore := file_of_mem_steps keeps member
    rw [eq_step_of_mem_steps member]
    exact ⟨mirroring.kept, mirroring.restored keepsBefore⟩

private def unsavedStart : Store × Faulty Disk :=
  ({ file := some "/db.json" }, ⟨Disk.empty, [none, none, none, some .refused]⟩)

theorem mirrored_when_second_save_fails :
    let prepared := (Request.prepare ["users"]).step unsavedStart
    let removed := (Request.removeList "users").step prepared.after
    unsavedStart.1.file = some "/db.json" ∧ removed.succeeded = false ∧
      Mirrored "/db.json" prepared.after ∧ Mirrored "/db.json" removed.after := by
  intro prepared removed
  have file : unsavedStart.1.file = some "/db.json" := rfl
  have run := (snapshot_mirrors_collections file [.prepare ["users"], .removeList "users"]).2
  have changed : prepared.after.1.collections ≠ unsavedStart.1.collections := by
    intro same
    have known := congrArg (fun collections => Collections.knows collections "users") same
    exact absurd known (by decide)
  have first := (run prepared List.mem_cons_self).2 rfl changed
  have second := (run removed (List.mem_cons_of_mem prepared List.mem_cons_self)).1 first
  exact ⟨file, rfl, first, second⟩

end DocStore

import DocStore.Medium.Disk
import DocStore.Proofs.Store.Mirror

/-!
Snapshots beside each other. A store that keeps a snapshot on a disk changes the place of its snapshot,
and the one where the next snapshot is staged, and nothing else. Whatever snapshots are written there, what
is there can be loaded.
-/

namespace DocStore

namespace Snapshot

variable {σ : Type} [Medium σ]

/-! ## Saving -/

def stage (medium : σ) (path : String) (collections : Collections) : Bool × σ :=
  Medium.write medium (Path.ofText path).staging (render collections)

theorem save_cases (medium : σ) (path : String) (collections : Collections) :
    let staged := stage medium path collections
    let moved := Medium.move staged.2 (Path.ofText path).staging (Path.ofText path)
    (staged.1 = false ∧ save medium path collections = (.error (.persistence .write path), staged.2)) ∨
      (staged.1 = true ∧ moved.1 = false ∧
        save medium path collections = (.error (.persistence .replace path), moved.2)) ∨
      (staged.1 = true ∧ moved.1 = true ∧ save medium path collections = (.ok (), moved.2)) := by
  have staging : Medium.write medium (Path.ofText path).staging (render collections) =
      stage medium path collections := rfl
  dsimp only
  rw [save, staging]
  generalize stage medium path collections = staged
  rcases staged with ⟨_ | _, between⟩
  · exact .inl ⟨rfl, rfl⟩
  · dsimp only
    generalize Medium.move between (Path.ofText path).staging (Path.ofText path) = moved
    rcases moved with ⟨_ | _, reached⟩
    · exact .inr (.inl ⟨rfl, rfl, rfl⟩)
    · exact .inr (.inr ⟨rfl, rfl, rfl⟩)

theorem read_save_other [LawfulMedium σ] (medium : σ) (path : String) (collections : Collections)
    {other : Path} (apart : other.place ≠ (Path.ofText path).place)
    (unstaged : other.place ≠ (Path.ofText path).staging.place) :
    Medium.read (save medium path collections).2 other = Medium.read medium other := by
  have staged : Medium.read (stage medium path collections).2 other = Medium.read medium other :=
    LawfulMedium.read_write_other unstaged
  have moved : Medium.read (Medium.move (stage medium path collections).2
      (Path.ofText path).staging (Path.ofText path)).2 other =
        Medium.read (stage medium path collections).2 other :=
    LawfulMedium.read_move_other unstaged apart
  rcases save_cases medium path collections with ⟨_, saved⟩ | ⟨_, _, saved⟩ | ⟨_, _, saved⟩
  · rw [saved, staged]
  · rw [saved, moved, staged]
  · rw [saved, moved, staged]

end Snapshot

/-! ## Saving on a disk -/

namespace Disk

theorem accepts_congr {disk other : Disk} (directories : disk.hasDirectory = other.hasDirectory)
    (path : Path) : disk.accepts path = other.accepts path := by
  rw [accepts, accepts, reaches_congr directories, directories]

theorem hasDirectory_save (disk : Disk) (path : String) (collections : Collections) :
    (Snapshot.save disk path collections).2.hasDirectory = disk.hasDirectory := by
  have staged := disk.hasDirectory_write (Path.ofText path).staging (Snapshot.render collections)
  have moved := hasDirectory_move (Snapshot.stage disk path collections).2
    (Path.ofText path).staging (Path.ofText path)
  rcases Snapshot.save_cases disk path collections with ⟨_, saved⟩ | ⟨_, _, saved⟩ | ⟨_, _, saved⟩
  · exact (congrArg (fun result => result.2.hasDirectory) saved).trans staged
  · exact ((congrArg (fun result => result.2.hasDirectory) saved).trans moved).trans staged
  · exact ((congrArg (fun result => result.2.hasDirectory) saved).trans moved).trans staged

/-- Whether a snapshot can be put at a path. -/
def TakesSnapshot (disk : Disk) (path : String) : Prop :=
  disk.accepts (Path.ofText path).staging = true ∧ disk.accepts (Path.ofText path) = true

theorem takesSnapshot_congr {disk other : Disk} (directories : disk.hasDirectory = other.hasDirectory)
    (path : String) : disk.TakesSnapshot path ↔ other.TakesSnapshot path := by
  rw [TakesSnapshot, TakesSnapshot, accepts_congr directories, accepts_congr directories]

theorem write_fst (disk : Disk) (path : Path) (text : String) :
    (disk.write path text).1 = disk.accepts path := by
  rw [write]
  split
  · next accepted => exact accepted.symm
  · next refused => exact (Bool.eq_false_iff.mpr refused).symm

theorem move_fst_of_read {disk : Disk} {source target : Path} {text : String}
    (found : disk.read source = .text text) : (disk.move source target).1 = disk.accepts target := by
  rw [move, found]
  dsimp only
  split
  · next accepted => exact accepted.symm
  · next refused => exact (Bool.eq_false_iff.mpr refused).symm

theorem save_eq_ok_iff (disk : Disk) (path : String) (collections : Collections) :
    (Snapshot.save disk path collections).1 = .ok () ↔ disk.TakesSnapshot path := by
  have staged : (Snapshot.stage disk path collections).1 = disk.accepts (Path.ofText path).staging :=
    write_fst disk _ _
  have moved (success : (Snapshot.stage disk path collections).1 = true) :
      (Medium.move (Snapshot.stage disk path collections).2 (Path.ofText path).staging
        (Path.ofText path)).1 = disk.accepts (Path.ofText path) :=
    (move_fst_of_read (LawfulMedium.read_write_self success)).trans
      (accepts_congr (hasDirectory_write disk _ _) _)
  rw [TakesSnapshot, ← staged]
  rcases Snapshot.save_cases disk path collections with
    ⟨unstaged, saved⟩ | ⟨success, unmoved, saved⟩ | ⟨success, done, saved⟩
  · rw [saved, unstaged]
    exact ⟨nofun, fun taken => nomatch taken.1⟩
  · rw [saved, success, ← moved success, unmoved]
    exact ⟨nofun, fun taken => nomatch taken.2⟩
  · rw [saved, success, ← moved success, done]
    exact ⟨fun _ => ⟨rfl, rfl⟩, fun _ => rfl⟩

theorem entries_save {disk : Disk} {path : String} (taken : disk.TakesSnapshot path)
    (collections : Collections) :
    let entry := DiskEntry.file (Snapshot.render collections)
    let target := Path.ofText path
    (Snapshot.save disk path collections).2.entries =
      ((disk.entries.insert target.staging.place entry).erase target.staging.place).insert
        target.place entry := by
  intro entry target
  have written : disk.write target.staging (Snapshot.render collections) =
      (true, ⟨disk.entries.insert target.staging.place entry⟩) := by
    rw [write, if_pos taken.1]
  have staged : Snapshot.stage disk path collections =
      (true, ⟨disk.entries.insert target.staging.place entry⟩) := written
  have read : (Snapshot.stage disk path collections).2.read target.staging =
      .text (Snapshot.render collections) :=
    LawfulMedium.read_write_self (congrArg Prod.fst written)
  have accepted : (Snapshot.stage disk path collections).2.accepts target = true :=
    (accepts_congr (hasDirectory_write disk _ _) target).trans taken.2
  have moved : (Snapshot.stage disk path collections).2.move target.staging target =
      (true, ⟨((disk.entries.insert target.staging.place entry).erase target.staging.place).insert
        target.place entry⟩) := by
    rw [move, read]
    dsimp only
    rw [if_pos accepted, staged]
  rcases Snapshot.save_cases disk path collections with
    ⟨unstaged, _⟩ | ⟨_, unmoved, _⟩ | ⟨_, _, saved⟩
  · cases (congrArg Prod.fst staged).symm.trans unstaged
  · cases (congrArg Prod.fst moved).symm.trans unmoved
  · rw [saved]
    exact congrArg (fun result => result.2.entries) moved

theorem read_of_entry_none {disk : Disk} {path : Path} (absent : disk.entries[path.place]? = none) :
    Medium.read disk path = .missing := by
  change disk.read path = .missing
  rw [read, absent]
  exact ite_self _

theorem read_of_entry_file {disk : Disk} {path : Path} {text : String}
    (found : disk.entries[path.place]? = some (.file text)) :
    Medium.read disk path = .missing ∨ Medium.read disk path = .text text := by
  change disk.read path = .missing ∨ disk.read path = .text text
  rw [read, found]
  split
  · exact .inr rfl
  · exact .inl rfl

/-- What is at a path, if anything is, can be loaded. -/
def Loads (disk : Disk) (path : String) : Prop :=
  ∃ collections, Snapshot.load disk path = .ok collections

theorem loads_of_missing {disk : Disk} {path : String}
    (missing : Medium.read disk (Path.ofText path) = .missing) : disk.Loads path :=
  ⟨∅, by rw [Snapshot.load, missing]⟩

theorem loads_of_text {disk : Disk} {path text : String} {collections : Collections}
    (found : Medium.read disk (Path.ofText path) = .text text)
    (parsed : Snapshot.parse? text = some collections) : disk.Loads path :=
  ⟨collections, by rw [Snapshot.load, found]; dsimp only; rw [parsed]⟩

theorem Loads.save {disk : Disk} {path : String} {collections : Collections} {other : String}
    (taken : disk.TakesSnapshot path)
    (readable : ∃ reread, Snapshot.parse? (Snapshot.render collections) = some reread)
    (loads : disk.Loads other) : (Snapshot.save disk path collections).2.Loads other := by
  have entries := entries_save taken collections
  dsimp only at entries
  by_cases inPlace : (Path.ofText other).place = (Path.ofText path).place
  · have entry : (Snapshot.save disk path collections).2.entries[(Path.ofText other).place]? =
        some (.file (Snapshot.render collections)) := by
      rw [entries, inPlace, Std.ExtTreeMap.getElem?_insert_self]
    rcases readable with ⟨reread, parsed⟩
    rcases read_of_entry_file entry with missing | text
    · exact loads_of_missing missing
    · exact loads_of_text text parsed
  · by_cases whereStaged : (Path.ofText other).place = (Path.ofText path).staging.place
    · have entry : (Snapshot.save disk path collections).2.entries[(Path.ofText other).place]? =
          none := by
        rw [entries, Std.ExtTreeMap.getElem?_insert, if_neg (by simpa using Ne.symm inPlace),
          whereStaged, Std.ExtTreeMap.getElem?_erase_self]
      exact loads_of_missing (read_of_entry_none entry)
    · rcases loads with ⟨loaded, loads⟩
      refine ⟨loaded, ?_⟩
      rw [Snapshot.load, Snapshot.read_save_other disk path collections inPlace whereStaged]
      exact loads

end Disk

namespace Store

variable {α : Type} {store : Store} {disk : Disk} {path : String}

theorem disk_of_adopt (keeps : store.file = some path) (value : α) (next : Collections) :
    (adopt value next (store, disk)).2.2 = (Snapshot.save disk path next).2 := by
  rw [adopt_apply, keeps, saving]
  generalize Snapshot.save disk path next = result
  rcases result with ⟨cause | _, reached⟩
  · rfl
  · rfl

theorem isOk_adopt (keeps : store.file = some path) (taken : disk.TakesSnapshot path) (value : α)
    (next : Collections) : (adopt value next (store, disk)).1.isOk = true := by
  have saved : (saving disk store.file next).1 = .ok () := by
    rw [keeps]
    exact (disk.save_eq_ok_iff path next).mpr taken
  rw [(adopt_of_saved saved).1]
  rfl

theorem saved_of_adopt {value : α} {next : Collections} (keeps : store.file = some path)
    (done : (adopt value next (store, disk)).1.isOk = true) :
    let after := (adopt value next (store, disk)).2
    after.1 = { store with collections := next } ∧ Mirrored path after ∧ after.2.TakesSnapshot path := by
  cases outcome : (adopt value next (store, disk)).1 with
  | error cause =>
      rw [outcome] at done
      cases done
  | ok answer =>
      have saved := (saved_of_adopt_eq_ok outcome).1
      have taken : disk.TakesSnapshot path := by
        rw [keeps] at saved
        exact (disk.save_eq_ok_iff path next).mp saved
      refine ⟨(adopt_of_saved saved).2, mirrored_adopt keeps outcome, ?_⟩
      rw [disk_of_adopt keeps]
      exact (Disk.takesSnapshot_congr (disk.hasDirectory_save path next) path).mpr taken

end Store

/-! ## Requests -/

/-- The snapshot of a store stays at its path, and no directory comes or goes. -/
def Settled (_ : Bool) (before after : Store × Disk) : Prop :=
  after.1.file = before.1.file ∧ after.2.hasDirectory = before.2.hasDirectory

theorem settled_composes : Session.Composes Settled where
  idle _ _ := ⟨rfl, rfl⟩
  andThen before after := ⟨after.1.trans before.1, after.2.trans before.2⟩

theorem adoptions_settled {follows : Collections → Collections → Prop} :
    Store.AdoptionsObey follows Settled := by
  intro α value store disk next _
  rcases store with ⟨collections, file⟩
  have directories : (Store.saving disk file next).2.hasDirectory = disk.hasDirectory := by
    cases file with
    | none => rfl
    | some path => exact disk.hasDirectory_save path next
  rw [Store.adopt_apply]
  generalize Store.saving disk file next = saved at directories
  rcases saved with ⟨cause | _, reached⟩
  · exact ⟨rfl, directories⟩
  · exact ⟨rfl, directories⟩

theorem Request.obeys_settled (request : Request) : Session.Obeys Settled request.run :=
  obeys_run settled_composes adoptions_settled request

end DocStore

import DocStore.Proofs.Dispatch.Startup
import DocStore.Proofs.Store.Confinement
import DocStore.Proofs.Store.Durability
import DocStore.Proofs.Store.Restorable

/-!
Closing. A dispatcher whose stores all keep snapshots saves them once more when it is closed, in the order
of their names. As long as no store saves its snapshot over the one of a store before it, all snapshots are
on the disk in the end.
-/

namespace DocStore

/-! ## Where snapshots are kept -/

namespace Config

/-- The path at which a backend keeps its snapshot, if it is a store that is to keep one. -/
def snapshotOf? (config : Config) (name : String) : Option String :=
  config.backends[name]?.bind fun backend => (Store.fileOfSettings backend.settings).toOption.join

/-- All backends are to keep snapshots, and there are none yet. -/
def StartsFresh (config : Config) (disk : Disk) : Prop :=
  ∀ name ∈ config.backends, ∃ path, config.snapshotOf? name = some path ∧
    Medium.read disk (Path.ofText path) = .missing

/-- No store saves its snapshot, nor stages it, where a store before it that has lists keeps its own. -/
def KeepsApart (config : Config) : Prop :=
  ∀ name later path laterPath, config.snapshotOf? name = some path →
    config.snapshotOf? later = some laterPath → compare name later = .lt → config.listsFor name ≠ [] →
      (Path.ofText path).place ≠ (Path.ofText laterPath).place ∧
        (Path.ofText path).place ≠ (Path.ofText laterPath).staging.place

end Config

/-! ## Calls keep lists -/

def KeepsList {σ : Type} (list : String) (_ : Bool) (before after : Store × σ) : Prop :=
  before.1.collections.knows list = true → after.1.collections.knows list = true

theorem keepsList_composes {σ : Type} (list : String) :
    Session.Composes (KeepsList (σ := σ) list) where
  idle _ _ := id
  andThen before after := after ∘ before

theorem obeys_keepsList_changeList {σ α : Type} [Medium σ] (kept list : String)
    (decision : Collections → Except StoreError (Change α)) :
    Session.Obeys (KeepsList (σ := σ) kept) (Store.changeList list decision) := by
  let grows (before after : Collections) : Prop :=
    before.knows kept = true → after.knows kept = true
  have adoptions : Store.AdoptionsObey (σ := σ) grows (KeepsList kept) := by
    intro α value store medium next follows known
    exact Store.holds_adopt (fun collections => collections.knows kept = true) known (follows known)
  refine Store.obeys_changeList (keepsList_composes kept).idle adoptions ?_
  intro collections value documents _ known
  rw [Collections.knows, Std.ExtTreeMap.contains_insert, Bool.or_eq_true]
  exact .inr known

theorem Call.obeys_keepsList {σ : Type} [Medium σ] (kept : String) (call : Call) :
    Session.Obeys (KeepsList (σ := σ) kept) call.request.run := by
  have composes := keepsList_composes (σ := σ) kept
  cases call with
  | create ids list requested reply =>
      exact Session.obeys_map (Store.obeys_create composes
        (fun list documents => obeys_keepsList_changeList kept list _) ids list requested reply) _
  | find list query => exact Session.obeys_map (Store.obeys_answer composes.idle _) _
  | findOne list query => exact Session.obeys_map (Store.obeys_answer composes.idle _) _
  | update list change => exact Session.obeys_map (obeys_keepsList_changeList kept list _) _
  | updateOne list change => exact Session.obeys_map (obeys_keepsList_changeList kept list _) _
  | delete list filter => exact Session.obeys_map (obeys_keepsList_changeList kept list _) _

namespace Dispatcher

variable {config : Config} {dispatcher : Dispatcher Store} {name path : String} {store : Store}
  {disk reached : Disk}

/-! ## Stores that keep snapshots -/

/-- The store of a backend has its lists and can save a snapshot at the path, from which its documents can
be restored. -/
structure Kept (config : Config) (name path : String) (store : Store) (disk : Disk) : Prop where
  configured : config.snapshotOf? name = some path
  file : store.file = some path
  known : ∀ list ∈ config.listsFor name, store.collections.knows list = true
  restorable : store.collections.AllFit Document.IsRestorableField
  taken : disk.TakesSnapshot path

theorem Kept.of_directories (directories : reached.hasDirectory = disk.hasDirectory)
    (kept : Kept config name path store disk) : Kept config name path store reached :=
  { kept with taken := (Disk.takesSnapshot_congr directories path).mpr kept.taken }

theorem Kept.of_call {call : Call} (plain : ∀ document ∈ call.request.given, document.IsPlain)
    (kept : Kept config name path store disk) :
    Kept config name path (call.request.step (store, disk)).after.1
      (call.request.step (store, disk)).after.2 where
  configured := kept.configured
  file := (call.request.obeys_settled (store, disk)).1.trans kept.file
  known list handed := call.obeys_keepsList list (store, disk) (kept.known list handed)
  restorable := by
    refine Request.allFit_step Document.passesOn_isRestorableField (fun document given => ?_)
      kept.restorable
    exact Document.isRestorable_iff.mp (Document.isRestorable_of_isPlain (plain document given))
  taken := (Disk.takesSnapshot_congr (call.request.obeys_settled (store, disk)).2 path).mpr kept.taken

theorem Kept.isReadable (kept : Kept config name path store disk) :
    store.collections.Each fun documents => ∀ document ∈ documents, document.IsReadable :=
  fun list documents found document member => Document.isReadable_of_isRestorable
    (Document.isRestorable_iff.mpr (kept.restorable list documents found document member))

/-! ## Building -/

theorem builds_standard_iff {σ : Type} [Medium σ] {medium : σ} :
    Builds Registry.standard config medium name store ↔
      ∃ settings, config.backends[name]? = some settings ∧ settings.typeName = Store.typeName ∧
        Store.factory settings.settings medium = .ok store := by
  constructor
  · intro builds
    rcases builds with ⟨settings, factory, given, known, makes⟩
    rw [Registry.standard, Std.ExtTreeMap.getElem?_insert] at known
    split at known
    · next same =>
      cases known
      exact ⟨settings, given, (Std.compare_eq_iff_eq.mp same).symm, makes⟩
    · cases known
  · intro made
    rcases made with ⟨settings, given, memory, makes⟩
    refine ⟨settings, Store.factory, given, ?_, makes⟩
    rw [memory]
    exact Std.ExtTreeMap.getElem?_insert_self

theorem factory_eq_load {σ : Type} [Medium σ] {medium : σ} {settings : BackendConfig}
    (given : config.backends[name]? = some settings) (configured : config.snapshotOf? name = some path) :
    Store.factory settings.settings medium = Store.load medium (some path) := by
  rw [Config.snapshotOf?, given, Option.bind_some] at configured
  rw [Store.factory]
  cases file : Store.fileOfSettings settings.settings with
  | error cause =>
      rw [file] at configured
      cases configured
  | ok kept =>
      rw [file] at configured
      cases configured
      rfl

/-! ## Connecting for the first time -/

def IsFresh (config : Config) (name : String) (store : Store) (_ : Disk) : Prop :=
  ∃ path, config.snapshotOf? name = some path ∧ store = { file := some path }

theorem isFresh_of_builds {built : Store} (builds : Builds Registry.standard config disk name built)
    (fresh : config.StartsFresh disk) : IsFresh config name built disk := by
  rcases builds_standard_iff.mp builds with ⟨settings, given, _, makes⟩
  rcases fresh name (mem_iff_exists_getElem?.mpr ⟨settings, given⟩) with ⟨path, configured, missing⟩
  rw [factory_eq_load given configured, Store.load, Snapshot.load, missing] at makes
  cases makes
  exact ⟨path, configured, rfl⟩

def IsKept (config : Config) (name : String) (store : Store) (disk : Disk) : Prop :=
  ∃ path, Kept config name path store disk

theorem IsKept.of_directories (directories : reached.hasDirectory = disk.hasDirectory)
    (kept : IsKept config name store disk) : IsKept config name store reached := by
  rcases kept with ⟨path, kept⟩
  exact ⟨path, kept.of_directories directories⟩

theorem hasDirectory_prepare (lists : List String) (store : Store) (disk : Disk) :
    (Store.prepare lists (store, disk)).2.2.hasDirectory = disk.hasDirectory :=
  (Store.obeys_prepare adoptions_settled (store, disk)).2

theorem carries_first : Carries (IsFresh config) (IsKept config) fun name =>
    (Backend.prepare (config.listsFor name) : Session Store Disk Unit) where
  does := by
    intro name _ disk fresh prepared
    rcases fresh with ⟨path, configured, rfl⟩
    change (Store.prepare (config.listsFor name) ({ file := some path }, disk)).1.isOk = true at prepared
    change IsKept config name (Store.prepare (config.listsFor name) ({ file := some path }, disk)).2.1
      (Store.prepare (config.listsFor name) ({ file := some path }, disk)).2.2
    rw [Store.prepare_apply] at prepared ⊢
    rcases Store.saved_of_adopt rfl prepared with ⟨store, _, taken⟩
    rw [store]
    refine ⟨path, configured, rfl, fun list handed => ?_, ?_, taken⟩
    · rw [Collections.knows_withLists_iff]
      exact .inl (List.mem_filter.mpr ⟨handed, rfl⟩)
    · exact Collections.each_withLists Collections.each_empty (fun _ member => nomatch member) _
  sparesLater _ _ fresh := fresh
  sparesEarlier _ _ kept := kept.of_directories (hasDirectory_prepare _ _ _)

/-! ## Calls -/

structure Persisted (config : Config) (state : Dispatcher Store × Disk) : Prop where
  routes : Routes config state.1
  names : ∀ name, name ∈ state.1.backends ↔ name ∈ config.backends
  kept : ∀ {name store}, state.1.backends[name]? = some store → IsKept config name store state.2

theorem persisted_of_connect {opened : Disk} (fresh : config.StartsFresh disk)
    (connects : connect Registry.standard config disk = (.ok dispatcher, opened)) :
    Persisted config (dispatcher, opened) where
  routes := (isConnected_of_connect connects).routes_config
  names := (isConnected_of_connect connects).names
  kept := after_of_connect carries_first (fun _ _ builds => isFresh_of_builds builds fresh) connects

theorem persisted_serve {state : Dispatcher Store × Disk} {call : Call}
    (plain : ∀ document ∈ call.request.given, document.IsPlain) (persisted : Persisted config state) :
    Persisted config (serve state call).after := by
  rcases state with ⟨dispatcher, disk⟩
  rcases serve_cases persisted.routes call disk with ⟨_, served⟩ | ⟨name, store, _, found, served⟩
  · rw [served]
    exact persisted
  · have settled := call.request.obeys_settled (store, disk)
    rw [served]
    refine ⟨persisted.routes.withBackend name _, fun other => ?_, fun {other} backend there => ?_⟩
    · rw [← persisted.names other]
      refine Std.ExtTreeMap.mem_insert.trans (or_iff_right_of_imp fun same => ?_)
      exact Std.compare_eq_iff_eq.mp same ▸ mem_iff_exists_getElem?.mpr ⟨store, found⟩
    · rw [getElem?_withBackend] at there
      split at there
      · next same =>
        cases there
        cases same
        rcases persisted.kept found with ⟨path, kept⟩
        exact ⟨path, kept.of_call plain⟩
      · exact (persisted.kept there).of_directories settled.2

theorem persisted_final {calls : List Call}
    (plain : ∀ call ∈ calls, ∀ document ∈ call.request.given, document.IsPlain)
    {start : Dispatcher Store × Disk} (persisted : Persisted config start) :
    Persisted config (final calls start) :=
  holds_final (fun call member _ => persisted_serve (plain call member)) persisted

/-! ## Closing -/

/-- No store has a snapshot that is nested too deeply to be read. -/
def IsShallow (dispatcher : Dispatcher Store) : Prop :=
  ∀ (name : String) (store : Store), dispatcher.backends[name]? = some store →
    (Snapshot.toJson store.collections).depth ≤ Json.nestingLimit

structure IsOpen (config : Config) (dispatcher : Dispatcher Store) (name : String) (store : Store)
    (disk : Disk) : Prop where
  found : dispatcher.backends[name]? = some store
  kept : IsKept config name store disk

/-- The snapshot of a store that has lists is on the disk. Where one without any keeps its own, there is
nothing that could not be loaded. -/
structure Saved (config : Config) (dispatcher : Dispatcher Store) (name path : String) (store : Store)
    (disk : Disk) : Prop where
  kept : Kept config name path store disk
  mirrored : config.listsFor name ≠ [] → Mirrored path (store, disk)
  loads : dispatcher.IsShallow → disk.Loads path

structure IsClosed (config : Config) (dispatcher : Dispatcher Store) (name : String) (store : Store)
    (disk : Disk) : Prop where
  found : dispatcher.backends[name]? = some store
  saved : ∃ path, Saved config dispatcher name path store disk

theorem parse?_of_kept (shallow : dispatcher.IsShallow) (found : dispatcher.backends[name]? = some store)
    (kept : Kept config name path store disk) :
    Snapshot.parse? (Snapshot.render store.collections) = some store.collections.reloaded :=
  Snapshot.parse?_render kept.isReadable (shallow name store found)

theorem Saved.of_save {later laterPath : String} {laterStore : Store} (apart : config.KeepsApart)
    (before : compare name later = .lt) (found : dispatcher.backends[later]? = some laterStore)
    (kept : Kept config later laterPath laterStore disk)
    (saved : Saved config dispatcher name path store disk) :
    Saved config dispatcher name path store
      (Snapshot.save disk laterPath laterStore.collections).2 where
  kept := saved.kept.of_directories (disk.hasDirectory_save laterPath laterStore.collections)
  mirrored lists := by
    have places := apart name later path laterPath saved.kept.configured kept.configured before lists
    have spared := Snapshot.read_save_other disk laterPath laterStore.collections places.1 places.2
    exact ⟨saved.kept.file, spared.trans (saved.mirrored lists).text⟩
  loads shallow := (saved.loads shallow).save kept.taken ⟨_, parse?_of_kept shallow found kept⟩

theorem carries_close (apart : config.KeepsApart) (dispatcher : Dispatcher Store) :
    Carries (IsOpen config dispatcher) (IsClosed config dispatcher) fun _ =>
      (Backend.close : Session Store Disk Bool) := by
  have medium {name path : String} {store : Store} {disk : Disk}
      (kept : Kept config name path store disk) :
      (Store.close (store, disk)).2.2 = (Snapshot.save disk path store.collections).2 := by
    rw [Store.close_apply]
    exact Store.disk_of_adopt kept.file true store.collections
  refine ⟨fun {name store disk} here done => ?_, fun {name store disk later left} _ here there => ?_,
    fun {name store disk earlier worked} before here there => ?_⟩
  · rcases here.kept with ⟨path, kept⟩
    change (Store.close (store, disk)).1.isOk = true at done
    change IsClosed config dispatcher name (Store.close (store, disk)).2.1
      (Store.close (store, disk)).2.2
    rw [Store.close_apply] at done ⊢
    rcases Store.saved_of_adopt kept.file done with ⟨same, mirrored, taken⟩
    generalize Store.adopt true store.collections (store, disk) = result at same mirrored taken ⊢
    rcases result with ⟨outcome, left, reached⟩
    cases same
    exact ⟨here.found, path, { kept with taken }, fun _ => mirrored, fun shallow =>
      Disk.loads_of_text mirrored.text (parse?_of_kept shallow here.found kept)⟩
  · rcases here.kept with ⟨path, kept⟩
    exact ⟨there.found, there.kept.of_directories ((congrArg Disk.hasDirectory (medium kept)).trans
      (disk.hasDirectory_save path store.collections))⟩
  · rcases here.kept with ⟨path, kept⟩
    rcases there.saved with ⟨earlierPath, saved⟩
    refine ⟨there.found, earlierPath, ?_⟩
    change Saved config dispatcher earlier earlierPath worked (Store.close (store, disk)).2.2
    rw [medium kept]
    exact saved.of_save apart before here.found kept

theorem exists_saved_of_close (apart : config.KeepsApart)
    (persisted : Persisted config (dispatcher, disk)) {answer : Bool} {closed : Dispatcher Store}
    (closes : close (dispatcher, disk) = (.ok answer, closed, reached))
    (found : dispatcher.backends[name]? = some store) :
    ∃ path, Saved config dispatcher name path store reached := by
  have carried := (onEach_carries (carries_close apart dispatcher)
    fun name store there => ⟨there, persisted.kept there⟩).1
  rw [close, bind_pure_comp, Session.map_apply] at closes
  rcases worked : onEach (fun _ => (Backend.close : Session Store Disk Bool)) (dispatcher, disk) with
    ⟨cause | answers, left, final⟩
  · rw [worked] at closes
    cases closes
  · rw [worked] at closes carried
    cases closes
    rcases exists_of_onEach worked with ⟨results, replaces, rfl⟩
    rcases replaces.exists_of_found dispatcher.backends found with ⟨last, there, _⟩
    rcases carried rfl name last there with ⟨same, saved⟩
    cases same.symm.trans found
    exact saved

end Dispatcher

end DocStore

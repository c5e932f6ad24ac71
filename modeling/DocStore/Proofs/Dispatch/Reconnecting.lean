import DocStore.Proofs.Dispatch.Closing

/-!
Reconnecting. A dispatcher whose stores all keep snapshots is closed and connected again with the same
configuration. Every list that is configured then holds what it held, apart from the types of integers,
unless a store saves its snapshot over the one of a store before it.
-/

namespace DocStore.Dispatcher

variable {config : Config} {dispatcher : Dispatcher Store} {name path : String} {store : Store}
  {disk reached : Disk}

/-! ## Connecting again -/

theorem knows_reloaded (collections : Collections) (list : String) :
    collections.reloaded.knows list = collections.knows list := by
  rw [Collections.knows, Collections.reloaded, Std.ExtTreeMap.contains_map, Collections.knows]

theorem prepare_of_known {lists : List String}
    (known : ∀ list ∈ lists, store.collections.knows list = true) (disk : Disk) :
    Store.prepare lists (store, disk) = Store.adopt () store.collections (store, disk) := by
  have nothing : store.collections.missing lists = [] :=
    List.filter_eq_nil_iff.mpr fun list handed => by rw [known list handed]; decide
  rw [Store.prepare_apply, nothing]
  rfl

/-- The store of a backend as it is built after another one was closed. -/
structure IsReloaded (config : Config) (stores : Std.ExtTreeMap String Store) (name : String)
    (store : Store) (disk : Disk) : Prop where
  collections : config.listsFor name ≠ [] →
    ∃ saved, stores[name]? = some saved ∧ store.collections = saved.collections.reloaded
  known : ∀ list ∈ config.listsFor name, store.collections.knows list = true
  taken : ∃ path, store.file = some path ∧ disk.TakesSnapshot path

theorem isOk_prepare_again {stores : Std.ExtTreeMap String Store}
    (reloaded : IsReloaded config stores name store disk) :
    (Store.prepare (config.listsFor name) (store, disk)).1.isOk = true := by
  rcases reloaded.taken with ⟨path, keeps, taken⟩
  rw [prepare_of_known reloaded.known]
  exact Store.isOk_adopt keeps taken () _

theorem IsReloaded.of_directories {stores : Std.ExtTreeMap String Store}
    (directories : reached.hasDirectory = disk.hasDirectory)
    (reloaded : IsReloaded config stores name store disk) : IsReloaded config stores name store reached := by
  rcases reloaded.taken with ⟨path, keeps, taken⟩
  have takenAgain := (Disk.takesSnapshot_congr directories path).mpr taken
  exact { reloaded with taken := ⟨path, keeps, takenAgain⟩ }

theorem carries_again (stores : Std.ExtTreeMap String Store) :
    Carries (IsReloaded config stores) (IsReloaded config stores) fun name =>
      (Backend.prepare (config.listsFor name) : Session Store Disk Unit) where
  does := by
    intro name store disk here done
    rcases here.taken with ⟨path, keeps, _⟩
    have same : (Store.prepare (config.listsFor name) (store, disk)).2.1 = store := by
      change (Store.prepare (config.listsFor name) (store, disk)).1.isOk = true at done
      rw [prepare_of_known here.known] at done ⊢
      exact (Store.saved_of_adopt keeps done).1
    change IsReloaded config stores name (Store.prepare (config.listsFor name) (store, disk)).2.1 _
    rw [same]
    exact here.of_directories (hasDirectory_prepare _ _ _)
  sparesLater _ _ there := there.of_directories (hasDirectory_prepare _ _ _)
  sparesEarlier _ _ there := there.of_directories (hasDirectory_prepare _ _ _)

theorem isReloaded_of_load (shallow : dispatcher.IsShallow)
    (found : dispatcher.backends[name]? = some store)
    (saved : Saved config dispatcher name path store disk) {built : Store}
    (loads : Store.load disk (some path) = .ok built) :
    IsReloaded config dispatcher.backends name built disk := by
  have reloaded (lists : config.listsFor name ≠ []) :
      built = { collections := store.collections.reloaded, file := some path } := by
    have loaded := load_of_mirrored (saved.mirrored lists) saved.kept.isReadable (shallow name store found)
    cases loads.symm.trans loaded
    rfl
  rcases loadsAgain : Snapshot.load disk path with cause | loaded
  · rw [Store.load, loadsAgain] at loads
    cases loads
  · rw [Store.load, loadsAgain] at loads
    cases loads
    refine ⟨fun lists => ⟨store, found, congrArg Store.collections (reloaded lists)⟩,
      fun list handed => ?_, path, rfl, saved.kept.taken⟩
    rw [reloaded (List.ne_nil_of_mem handed), knows_reloaded]
    exact saved.kept.known list handed

theorem exists_reconnected (valid : config.validate = .ok ())
    (typed : ∀ (name : String) (settings : BackendConfig), config.backends[name]? = some settings →
      settings.typeName = Store.typeName)
    (shallow : dispatcher.IsShallow)
    (closed : ∀ name ∈ config.backends, ∃ store path, dispatcher.backends[name]? = some store ∧
      Saved config dispatcher name path store disk) :
    ∃ again reopened, connect Registry.standard config disk = (.ok again, reopened) ∧
      ∀ {name store}, again.backends[name]? = some store →
        IsReloaded config dispatcher.backends name store reopened := by
  have builds (name : String) (built : Store)
      (builds : Builds Registry.standard config disk name built) :
      IsReloaded config dispatcher.backends name built disk := by
    rcases builds_standard_iff.mp builds with ⟨settings, given, _, makes⟩
    rcases closed name (mem_iff_exists_getElem?.mpr ⟨settings, given⟩) with ⟨store, path, found, saved⟩
    rw [factory_eq_load given saved.kept.configured] at makes
    exact isReloaded_of_load shallow found saved makes
  have buildable (name : String) (settings : BackendConfig)
      (given : config.backends[name]? = some settings) :
      ∃ built, Builds Registry.standard config disk name built := by
    rcases closed name (mem_iff_exists_getElem?.mpr ⟨settings, given⟩) with ⟨store, path, _, saved⟩
    rcases saved.loads shallow with ⟨collections, loads⟩
    have makes : Store.factory settings.settings disk = Store.load disk (some path) :=
      factory_eq_load given saved.kept.configured
    rw [Store.load, loads] at makes
    exact ⟨_, builds_standard_iff.mpr ⟨settings, given, typed name settings given, makes⟩⟩
  have carries : Carries (IsReloaded config dispatcher.backends) (IsReloaded config dispatcher.backends)
      fun name => (Backend.prepare (config.listsFor name) : Session Store Disk Unit) :=
    carries_again dispatcher.backends
  rcases exists_connect carries builds valid buildable fun _ _ _ => isOk_prepare_again with
    ⟨again, reopened, connects⟩
  exact ⟨again, reopened, connects, fun found => after_of_connect carries builds connects found⟩

theorem connect_ne_ok_of_unreadable (apart : config.KeepsApart)
    (persisted : Persisted config (dispatcher, disk)) {answer : Bool} {closed : Dispatcher Store}
    (closes : close (dispatcher, disk) = (.ok answer, closed, reached))
    (found : dispatcher.backends[name]? = some store) (lists : config.listsFor name ≠ [])
    (unreadable : Snapshot.parse? (Snapshot.render store.collections) = none) (again : Dispatcher Store)
    (reopened : Disk) : connect Registry.standard config reached ≠ (.ok again, reopened) := by
  intro connects
  have connected := isConnected_of_connect connects
  rcases exists_saved_of_close apart persisted closes found with ⟨path, saved⟩
  have configured := (persisted.names name).mp (mem_iff_exists_getElem?.mpr ⟨store, found⟩)
  rcases mem_iff_exists_getElem?.mp ((connected.names name).mpr configured) with ⟨restored, there⟩
  rcases connected.prepared there with ⟨built, builds, _⟩
  rcases builds_standard_iff.mp builds with ⟨settings, given, _, makes⟩
  rw [factory_eq_load given saved.kept.configured, Store.load, Snapshot.load,
    (saved.mirrored lists).text] at makes
  dsimp only at makes
  rw [unreadable] at makes
  cases makes

theorem IsConnected.typeName_eq {σ : Type} [Medium σ] {medium : σ} {settings : BackendConfig}
    (connected : IsConnected Registry.standard config medium dispatcher)
    (given : config.backends[name]? = some settings) : settings.typeName = Store.typeName := by
  have configured := mem_iff_exists_getElem?.mpr ⟨settings, given⟩
  rcases mem_iff_exists_getElem?.mp ((connected.names name).mpr configured) with ⟨store, found⟩
  rcases connected.prepared found with ⟨built, builds, _⟩
  rcases builds_standard_iff.mp builds with ⟨same, givenAgain, memory, _⟩
  cases given.symm.trans givenAgain
  exact memory

theorem widened_reloaded_of_kept (kept : Kept config name path store disk) {list : String}
    {documents : List Document} (found : store.collections[list]? = some documents) :
    (documents.map Document.reloaded).map Document.widened = documents.map Document.widened := by
  rw [List.map_map]
  refine List.map_congr_left fun document member => Document.widened_reloaded ?_
  exact Document.isRestorable_iff.mpr (kept.restorable list documents found document member)

/-- Stores that keep snapshots, and start without any, serve calls that bring along plain documents, and
are closed. If no store saves its snapshot over the one of a store before it, and no snapshot is nested
too deeply to be read, then connecting again succeeds, and every list that is configured is routed to
the same backend as before and holds the same documents in the same order, apart from the types of
integers. -/
theorem reconnecting_restores_lists {opened : Disk} {calls : List Call} {answer : Bool}
    {closed : Dispatcher Store}
    (fresh : config.StartsFresh disk) (apart : config.KeepsApart)
    (connects : connect Registry.standard config disk = (.ok dispatcher, opened))
    (plain : ∀ call ∈ calls, ∀ document ∈ call.request.given, document.IsPlain)
    (shallow : (final calls (dispatcher, opened)).1.IsShallow)
    (closes : close (final calls (dispatcher, opened)) = (.ok answer, closed, reached)) :
    ∃ again reopened, connect Registry.standard config reached = (.ok again, reopened) ∧
      ∀ list ∈ config.lists, ∃ name store restored documents reread,
        (final calls (dispatcher, opened)).1.backendFor list = .ok (name, store) ∧
          again.backendFor list = .ok (name, restored) ∧
          store.collections[list]? = some documents ∧ restored.collections[list]? = some reread ∧
          reread.map Document.widened = documents.map Document.widened := by
  have connected := isConnected_of_connect connects
  have last := persisted_final plain (persisted_of_connect fresh connects)
  have saved : ∀ name ∈ config.backends, ∃ store path,
      (final calls (dispatcher, opened)).1.backends[name]? = some store ∧
        Saved config (final calls (dispatcher, opened)).1 name path store reached := by
    intro name configured
    rcases mem_iff_exists_getElem?.mp ((last.names name).mpr configured) with ⟨store, found⟩
    rcases exists_saved_of_close apart last closes found with ⟨path, saved⟩
    exact ⟨store, path, found, saved⟩
  rcases exists_reconnected connected.valid (fun _ _ => connected.typeName_eq) shallow saved with
    ⟨again, reopened, reconnects, reloaded⟩
  have connectedAgain := isConnected_of_connect reconnects
  refine ⟨again, reopened, reconnects, fun list listed => ?_⟩
  rcases Config.exists_owner? connected.valid listed with ⟨name, owned⟩
  have configured := Config.mem_backends_of_owner? connected.valid owned
  rcases saved name configured with ⟨store, path, found, saved⟩
  rcases mem_iff_exists_getElem?.mp ((connectedAgain.names name).mpr configured) with ⟨restored, there⟩
  have handed := (Config.mem_listsFor_iff configured).mpr ⟨listed, owned⟩
  rcases (reloaded there).collections (List.ne_nil_of_mem handed) with ⟨source, sourceFound, collections⟩
  cases sourceFound.symm.trans found
  rcases Collections.knows_iff_exists_found.mp (saved.kept.known list handed) with ⟨documents, holds⟩
  have reread : restored.collections[list]? = some (documents.map Document.reloaded) := by
    rw [collections, Collections.reloaded, Std.ExtTreeMap.getElem?_map, holds]
    rfl
  exact ⟨name, store, restored, documents, _, last.routes.backendFor_eq_ok owned found,
    connectedAgain.routes_config.backendFor_eq_ok owned there, holds, reread,
    widened_reloaded_of_kept saved.kept holds⟩

/-! Two stores, of which each keeps a snapshot. -/

private def twoSnapshots (first second : String) : Config :=
  (((({} : Config).withBackend "main" Store.typeName (.object [("file", .string first)])).withBackend
    "other" Store.typeName (.object [("file", .string second)])).withList "users" (some "main")).withList
      "actions" (some "other")

private theorem snapshotOf?_twoSnapshots {first second name path : String} :
    (twoSnapshots first second).snapshotOf? name = some path ↔
      name = "main" ∧ path = first ∨ name = "other" ∧ path = second := by
  have found : (twoSnapshots first second).backends[name]? =
      if "other" = name then some ⟨Store.typeName, .object [("file", .string second)]⟩
      else if "main" = name then some ⟨Store.typeName, .object [("file", .string first)]⟩ else none := by
    simp [twoSnapshots, Config.withBackend, Config.withList, Std.ExtTreeMap.getElem?_insert]
  have reads (text : String) :
      (Store.fileOfSettings (.object [("file", .string text)])).toOption.join = some text := rfl
  rw [Config.snapshotOf?, found]
  by_cases other : "other" = name
  · simp [← other, reads, eq_comm]
  · by_cases main : "main" = name
    · simp [← main, reads, eq_comm]
    · simp [other, main, Ne.symm other, Ne.symm main]

private theorem keepsApart_twoSnapshots {first second : String}
    (places : (Path.ofText first).place ≠ (Path.ofText second).place)
    (staged : (Path.ofText first).place ≠ (Path.ofText second).staging.place) :
    (twoSnapshots first second).KeepsApart := by
  intro name later path laterPath configured laterConfigured before _
  rcases snapshotOf?_twoSnapshots.mp configured with ⟨rfl, rfl⟩ | ⟨rfl, rfl⟩
  · rcases snapshotOf?_twoSnapshots.mp laterConfigured with ⟨rfl, rfl⟩ | ⟨rfl, rfl⟩
    · cases before
    · exact ⟨places, staged⟩
  · rcases snapshotOf?_twoSnapshots.mp laterConfigured with ⟨rfl, rfl⟩ | ⟨rfl, rfl⟩
    · cases before
    · cases before

private theorem startsFresh_twoSnapshots {first second : String}
    (firstMissing : Medium.read Disk.empty (Path.ofText first) = .missing)
    (secondMissing : Medium.read Disk.empty (Path.ofText second) = .missing) :
    (twoSnapshots first second).StartsFresh Disk.empty := by
  intro name member
  have names : "other" = name ∨ "main" = name := by
    simpa [twoSnapshots, Config.withBackend, Config.withList, Std.ExtTreeMap.mem_insert] using member
  rcases names with rfl | rfl
  · exact ⟨second, snapshotOf?_twoSnapshots.mpr (.inr ⟨rfl, rfl⟩), secondMissing⟩
  · exact ⟨first, snapshotOf?_twoSnapshots.mpr (.inl ⟨rfl, rfl⟩), firstMissing⟩

private def userAndAction : List Call :=
  [.create (.seeded 0) "users" (.one [("id", .int64 7), ("name", .string "jane doe")]) .documents,
    .create (.seeded 1) "actions" (.one [("id", .int32 1)]) .documents,
    .update "actions" { data := [("done", .bool true)] }]

private def opened (config : Config) : Dispatcher Store × Disk :=
  match connect Registry.standard config Disk.empty with
  | (.ok dispatcher, disk) => (dispatcher, disk)
  | (.error _, disk) => (unprepared config ∅, disk)

private theorem connect_eq_opened {config : Config}
    (connects : (connect Registry.standard config Disk.empty).1.isOk = true) :
    connect Registry.standard config Disk.empty = (.ok (opened config).1, (opened config).2) := by
  rw [opened]
  generalize connect Registry.standard config Disk.empty = result at connects ⊢
  rcases result with ⟨cause | dispatcher, disk⟩
  · cases connects
  · rfl

private theorem exists_close_eq {state : Dispatcher Store × Disk}
    (closes : (close state : Except StoreError Bool × Dispatcher Store × Disk).1.toOption = some true) :
    ∃ closed reached, close state = (.ok true, closed, reached) := by
  generalize (close state : Except StoreError Bool × Dispatcher Store × Disk) = result at closes ⊢
  rcases result with ⟨cause | answer, closed, reached⟩
  · cases closes
  · cases closes
    exact ⟨closed, reached, rfl⟩

private theorem isShallow_of_toList {dispatcher : Dispatcher Store}
    (shallow : ∀ entry ∈ dispatcher.backends.toList,
      (Snapshot.toJson entry.2.collections).depth ≤ Json.nestingLimit) : dispatcher.IsShallow :=
  fun name store found =>
    shallow (name, store) (Std.ExtTreeMap.mem_toList_iff_getElem?_eq_some.mpr found)

theorem user_and_action_after_reconnecting :
    let config := twoSnapshots "/main.json" "/other.json"
    let before := final userAndAction (opened config)
    ∃ closed reached again reopened,
      connect Registry.standard config Disk.empty = (.ok (opened config).1, (opened config).2) ∧
        close before = (.ok true, closed, reached) ∧
        connect Registry.standard config reached = (.ok again, reopened) ∧
        ∀ list ∈ config.lists, ∃ name store restored documents reread,
          before.1.backendFor list = .ok (name, store) ∧
            again.backendFor list = .ok (name, restored) ∧
            store.collections[list]? = some documents ∧ restored.collections[list]? = some reread ∧
            reread.map Document.widened = documents.map Document.widened := by
  intro config before
  have connects : connect Registry.standard config Disk.empty =
      (.ok (opened config).1, (opened config).2) := connect_eq_opened (by decide +kernel)
  have closes : ∃ closed reached, close before = (.ok true, closed, reached) :=
    exists_close_eq (by decide +kernel)
  rcases closes with ⟨closed, reached, closes⟩
  have shallow : before.1.IsShallow := isShallow_of_toList (by decide +kernel)
  have plain : ∀ call ∈ userAndAction, ∀ document ∈ call.request.given, document.IsPlain := by
    decide +kernel
  have apart : config.KeepsApart :=
    keepsApart_twoSnapshots (by decide +kernel) (by decide +kernel)
  have fresh : config.StartsFresh Disk.empty :=
    startsFresh_twoSnapshots (by decide +kernel) (by decide +kernel)
  rcases reconnecting_restores_lists fresh apart connects plain shallow closes with
    ⟨again, reopened, reconnects, restored⟩
  exact ⟨closed, reached, again, reopened, connects, closes, reconnects, restored⟩

private def user : Document :=
  [("id", .int64 7), ("name", .string "jane doe")]

private def nested : (levels : Nat) → Value
  | 0 => .null
  | levels + 1 => .array [nested levels]

private def nestedUser : Document :=
  [("id", .int64 7), ("name", nested 124)]

private theorem exists_empty_again {config : Config} {state : Dispatcher Store × Disk} {list : String}
    (closes : (close state : Except StoreError Bool × Dispatcher Store × Disk).1.toOption = some true)
    (empty : (match connect Registry.standard config
        (close state : Except StoreError Bool × Dispatcher Store × Disk).2.2 with
      | (.ok again, reopened) => (find list {} (again, reopened)).1.toOption.any List.isEmpty
      | (.error _, _) => false) = true) :
    ∃ closed reached again reopened, close state = (.ok true, closed, reached) ∧
      connect Registry.standard config reached = (.ok again, reopened) ∧
        (find list {} (again, reopened)).1 = .ok [] := by
  generalize (close state : Except StoreError Bool × Dispatcher Store × Disk) = result at closes empty ⊢
  rcases result with ⟨cause | answer, closed, reached⟩
  · cases closes
  cases closes
  rcases connects : connect Registry.standard config reached with ⟨cause | again, reopened⟩
  · rw [connects] at empty
    cases empty
  rw [connects] at empty
  dsimp only at empty
  refine ⟨closed, reached, again, reopened, rfl, connects, ?_⟩
  generalize (find list {} (again, reopened)).1 = outcome at empty ⊢
  rcases outcome with cause | documents
  · cases empty
  · exact congrArg Except.ok (List.isEmpty_iff.mp empty)

private theorem exists_refused_again {config : Config} {state : Dispatcher Store × Disk} {name : String}
    (apart : config.KeepsApart) (persisted : Persisted config state) (lists : config.listsFor name ≠ [])
    (closes : (close state : Except StoreError Bool × Dispatcher Store × Disk).1.toOption = some true)
    (refused : (state.1.backends[name]?.any fun store => (Snapshot.ofJson?
      ((Snapshot.toJson store.collections).reread.within Json.nestingLimit)).isNone) = true) :
    ∃ closed reached, close state = (.ok true, closed, reached) ∧
      ∀ again reopened, connect Registry.standard config reached ≠ (.ok again, reopened) := by
  rcases exists_close_eq closes with ⟨closed, reached, closes⟩
  rcases (Option.any_eq_true _ _).mp refused with ⟨store, found, refused⟩
  have unreadable : Snapshot.parse? (Snapshot.render store.collections) = none := by
    rw [Snapshot.parse?, Snapshot.render, Json.read?, Json.parse?_render]
    exact Option.isNone_iff_eq_none.mp refused
  exact ⟨closed, reached, closes, connect_ne_ok_of_unreadable apart persisted closes found lists unreadable⟩

set_option maxRecDepth 4000 in
/-- A user is lost where another store saves its snapshot in the same place, or stages it there. A user
that is nested too deeply is saved, but the snapshot is refused. -/
theorem users_lost_or_refused_on_reconnecting :
    user.IsPlain ∧ nestedUser.IsPlain ∧
      (∀ file ∈ ["/db.json", "/db.json.tmp"],
        let config := twoSnapshots file "/db.json"
        let before := final [.create (.seeded 0) "users" (.one user) .documents] (opened config)
        connect Registry.standard config Disk.empty = (.ok (opened config).1, (opened config).2) ∧
          (find "users" {} before).1 = .ok [user] ∧
          ∃ closed reached again reopened, close before = (.ok true, closed, reached) ∧
            connect Registry.standard config reached = (.ok again, reopened) ∧
              (find "users" {} (again, reopened)).1 = .ok []) ∧
      let config := twoSnapshots "/main.json" "/other.json"
      let before := final [.create (.seeded 0) "users" (.one nestedUser) .documents] (opened config)
      connect Registry.standard config Disk.empty = (.ok (opened config).1, (opened config).2) ∧
        (find "users" {} before).1 = .ok [nestedUser] ∧
        ∃ closed reached, close before = (.ok true, closed, reached) ∧
          ∀ again reopened, connect Registry.standard config reached ≠ (.ok again, reopened) := by
  refine ⟨by decide, by decide +kernel, fun file member => ?_, ?_⟩
  · rcases List.mem_pair.mp member with rfl | rfl
    · exact ⟨connect_eq_opened (by decide +kernel), by with_unfolding_all rfl,
        exists_empty_again (by decide +kernel) (by decide +kernel)⟩
    · exact ⟨connect_eq_opened (by decide +kernel), by with_unfolding_all rfl,
        exists_empty_again (by decide +kernel) (by decide +kernel)⟩
  · intro config before
    have connects : connect Registry.standard config Disk.empty =
        (.ok (opened config).1, (opened config).2) := connect_eq_opened (by decide +kernel)
    have plain : ∀ call ∈ [Call.create (.seeded 0) "users" (.one nestedUser) .documents],
        ∀ document ∈ call.request.given, document.IsPlain := by decide +kernel
    have fresh : config.StartsFresh Disk.empty :=
      startsFresh_twoSnapshots (by decide +kernel) (by decide +kernel)
    have persisted : Persisted config before :=
      persisted_final plain (persisted_of_connect fresh connects)
    have apart : config.KeepsApart :=
      keepsApart_twoSnapshots (by decide +kernel) (by decide +kernel)
    have lists : config.listsFor "main" ≠ [] := by decide +kernel
    exact ⟨connects, by with_unfolding_all rfl, exists_refused_again apart persisted lists
      (by decide +kernel) (by decide +kernel)⟩

end DocStore.Dispatcher

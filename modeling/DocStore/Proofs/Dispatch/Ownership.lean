import DocStore.Medium.Disk
import DocStore.Proofs.Dispatch.Connecting
import DocStore.Proofs.Store.Saving

/-!
Ownership. Checking a configuration, handing out its lists to the backends and routing each decide on
their own which backend a list belongs to. They agree, since all of them follow the owner of the list.
-/

namespace DocStore

namespace Config

variable {config : Config} {list name : String}

/-! ## The only backend -/

theorem sole?_eq_some_iff : config.sole? = some name ↔ config.backends.keys = [name] := by
  rw [sole?]
  split
  · next only keys => rw [keys, Option.some.injEq, List.singleton_inj]
  · next several => exact ⟨nofun, fun single => absurd single (several name)⟩

theorem mem_backends_of_sole? (sole : config.sole? = some name) (other : String) :
    other ∈ config.backends ↔ other = name := by
  rw [← Std.ExtTreeMap.mem_keys, sole?_eq_some_iff.mp sole, List.mem_singleton]

theorem sole?_eq_none_iff : config.sole? = none ↔ config.backends.size ≠ 1 := by
  rw [← Std.ExtTreeMap.length_keys, Ne, List.length_eq_one_iff, not_exists,
    Option.eq_none_iff_forall_ne_some]
  exact forall_congr' fun name => not_congr sole?_eq_some_iff

/-! ## Owners -/

/-- The owner of a list: the only backend, or else the one that the list names. -/
def owner? (config : Config) (list : String) : Option String :=
  config.sole?.or config.lists[list]?.join

theorem owner?_of_sole (sole : config.sole? = some name) : config.owner? list = some name := by
  rw [owner?, sole]
  rfl

theorem owner?_of_several (several : config.sole? = none) :
    config.owner? list = config.lists[list]?.join := by
  rw [owner?, several]
  rfl

theorem mem_listsFor_iff (configured : name ∈ config.backends) :
    list ∈ config.listsFor name ↔ list ∈ config.lists ∧ config.owner? list = some name := by
  rw [listsFor]
  cases sole : config.sole? with
  | some only =>
      -- The only backend is handed all lists, whether they name it or not.
      have same : name = only := (mem_backends_of_sole? sole name).mp configured
      rw [if_pos (congrArg some same.symm), Std.ExtTreeMap.mem_keys, owner?_of_sole sole, same]
      exact (and_iff_left rfl).symm
  | none =>
      rw [if_neg nofun, owner?_of_several sole, List.mem_filterMap, Option.join_eq_some_iff]
      constructor
      · rintro ⟨⟨other, owner⟩, member, chosen⟩
        rcases Option.ite_none_right_eq_some.mp chosen with ⟨rfl, same⟩
        cases same
        have named := Std.ExtTreeMap.mem_toList_iff_getElem?_eq_some.mp member
        exact ⟨mem_iff_exists_getElem?.mpr ⟨some name, named⟩, named⟩
      · rintro ⟨_, named⟩
        exact ⟨(list, some name), Std.ExtTreeMap.mem_toList_iff_getElem?_eq_some.mpr named, if_pos rfl⟩

theorem validate_eq_ok_iff : config.validate = .ok () ↔ config.backends.isEmpty = false ∧
    ∀ list owner, config.lists[list]? = some owner → config.checkList list owner = .ok () := by
  rw [validate]
  cases config.backends.isEmpty with
  | true => simp [throw, throwThe, MonadExceptOf.throw, bind, Except.bind]
  | false =>
      refine (Outcome.forM_eq_ok_iff.trans ?_).trans (and_iff_right rfl).symm
      simp only [Prod.forall, Std.ExtTreeMap.mem_toList_iff_getElem?_eq_some]

theorem mem_backends_of_owner? (valid : config.validate = .ok ())
    (owned : config.owner? list = some name) : name ∈ config.backends := by
  cases sole : config.sole? with
  | some only =>
      rw [owner?_of_sole sole] at owned
      exact (mem_backends_of_sole? sole name).mpr (Option.some.inj owned.symm)
  | none =>
      rw [owner?_of_several sole, Option.join_eq_some_iff] at owned
      have checked := (validate_eq_ok_iff.mp valid).2 list (some name) owned
      rw [checkList] at checked
      split at checked
      · next known => exact Std.ExtTreeMap.mem_iff_contains.mpr known
      · cases checked

theorem exists_owner? (valid : config.validate = .ok ()) (listed : list ∈ config.lists) :
    ∃ name, config.owner? list = some name := by
  cases sole : config.sole? with
  | some only => exact ⟨only, owner?_of_sole sole⟩
  | none =>
      rcases mem_iff_exists_getElem?.mp listed with ⟨owner, named⟩
      rw [owner?_of_several sole, named]
      cases owner with
      | some name => exact ⟨name, rfl⟩
      | none =>
          have accepted := validate_eq_ok_iff.mp valid
          have several : 1 < config.backends.size := by
            have notOne := sole?_eq_none_iff.mp sole
            have notEmpty : config.backends.size ≠ 0 := by
              simpa [Std.ExtTreeMap.isEmpty_eq_size_beq_zero] using accepted.1
            omega
          have checked := accepted.2 list none named
          rw [checkList, if_pos several] at checked
          cases checked

theorem pairwise_disjoint_listsFor : config.backends.keys.Pairwise fun left right =>
    (config.listsFor left).Disjoint (config.listsFor right) := by
  have distinct : config.backends.keys.Pairwise (· ≠ ·) := Std.ExtTreeMap.nodup_keys
  refine distinct.imp_of_mem fun {left right} atLeft atRight different list inLeft inRight => ?_
  have ownedLeft := ((mem_listsFor_iff (Std.ExtTreeMap.mem_keys.mp atLeft)).mp inLeft).2
  have ownedRight := ((mem_listsFor_iff (Std.ExtTreeMap.mem_keys.mp atRight)).mp inRight).2
  exact different (Option.some.inj (ownedLeft.symm.trans ownedRight))

theorem mem_lists_iff (valid : config.validate = .ok ()) :
    list ∈ config.lists ↔ ∃ name ∈ config.backends, list ∈ config.listsFor name := by
  constructor
  · intro listed
    rcases exists_owner? valid listed with ⟨name, owned⟩
    have configured := mem_backends_of_owner? valid owned
    exact ⟨name, configured, (mem_listsFor_iff configured).mpr ⟨listed, owned⟩⟩
  · rintro ⟨name, configured, handed⟩
    exact ((mem_listsFor_iff configured).mp handed).1

end Config

namespace Dispatcher

variable {β σ : Type} [Backend β σ] {registry : Registry β σ} {config : Config} {medium : σ}
  {dispatcher : Dispatcher β} {list name : String}

/-! ## Routing -/

theorem owner_eq (connected : IsConnected registry config medium dispatcher) (list : String) :
    dispatcher.owner list =
      match config.owner? list with
      | some name => .ok name
      | none => .error (.unroutedList list) := by
  rw [owner, connected.sole, connected.routes, Std.ExtTreeMap.getElem?_filterMap]
  cases sole : config.sole? with
  | some only => rw [Config.owner?_of_sole sole]
  | none =>
      rw [Config.owner?_of_several sole]
      cases config.lists[list]? with
      | none => rfl
      | some owner => cases owner <;> rfl

theorem backendFor_eq_ok_iff (connected : IsConnected registry config medium dispatcher)
    {backend : β} : dispatcher.backendFor list = .ok (name, backend) ↔
      config.owner? list = some name ∧ dispatcher.backends[name]? = some backend := by
  rw [backendFor, owner_eq connected]
  cases config.owner? list with
  | none => simp [Except.mapError, bind, Except.bind]
  | some owner =>
      simp only [Except.mapError, bind, Except.bind, Option.some.injEq]
      constructor
      · intro routed
        split at routed
        · next kept found =>
          cases routed
          exact ⟨rfl, found⟩
        · cases routed
      · rintro ⟨rfl, found⟩
        rw [found]
        rfl

/-- A list is routed to a backend of the configuration, which is as its preparation left it. -/
def RoutesTo (registry : Registry β σ) (config : Config) (medium : σ) (dispatcher : Dispatcher β)
    (list name : String) : Prop :=
  ∃ backend, dispatcher.backendFor list = .ok (name, backend) ∧
    IsPrepared registry config medium name backend

theorem routesTo_owner (connected : IsConnected registry config medium dispatcher)
    (owned : config.owner? list = some name) :
    RoutesTo registry config medium dispatcher list name := by
  have configured := Config.mem_backends_of_owner? connected.valid owned
  rcases mem_iff_exists_getElem?.mp ((connected.names name).mpr configured) with ⟨backend, found⟩
  exact ⟨backend, (backendFor_eq_ok_iff connected).mpr ⟨owned, found⟩, connected.prepared found⟩

theorem backendFor_eq_error (connected : IsConnected registry config medium dispatcher)
    (free : config.owner? list = none) :
    dispatcher.backendFor list = .error (.configuration (.unroutedList list)) := by
  rw [backendFor, owner_eq connected, free]
  rfl

theorem backendFor_ne_missingBackend (connected : IsConnected registry config medium dispatcher)
    (list name : String) :
    dispatcher.backendFor list ≠ .error (.configuration (.missingBackend name)) := by
  cases owned : config.owner? list with
  | none =>
      rw [backendFor_eq_error connected owned]
      simp
  | some owner =>
      rcases routesTo_owner connected owned with ⟨backend, routed, _⟩
      rw [routed]
      simp

/-! ## Fresh stores -/

theorem eq_empty_of_builds {σ : Type} [Medium σ] {medium : σ} {built : Store}
    (unsaved : ∀ (name : String) (settings : BackendConfig), config.backends[name]? = some settings →
      Store.fileOfSettings settings.settings = .ok none)
    (builds : Builds Registry.standard config medium name built) : built = {} := by
  rcases builds with ⟨settings, factory, given, known, makes⟩
  rw [Registry.standard, Std.ExtTreeMap.getElem?_insert] at known
  split at known
  · cases known
    rw [Store.factory, unsaved name settings given] at makes
    cases makes
    rfl
  · cases known

theorem knows_iff_of_leaves {σ : Type} [Medium σ] {lists : List String} {store : Store}
    (leaves : Leaves (Store.prepare lists : Session Store σ Unit) {} store) :
    store.collections.knows list = true ↔ list ∈ lists := by
  rcases leaves with ⟨before, value, after, done⟩
  rw [Store.prepare_apply] at done
  cases done
  rw [Collections.knows_withLists_iff, Collections.missing]
  simp [Collections.knows]

theorem knows_iff_backendFor {σ : Type} [Medium σ] {registry : Registry Store σ} {medium : σ}
    {dispatcher : Dispatcher Store} (connected : IsConnected registry config medium dispatcher)
    (fresh : ∀ name built, Builds registry config medium name built → built = {})
    (listed : list ∈ config.lists) {store : Store} (found : dispatcher.backends[name]? = some store) :
    store.collections.knows list = true ↔ dispatcher.backendFor list = .ok (name, store) := by
  rcases connected.prepared found with ⟨built, builds, leaves⟩
  cases fresh name built builds
  have configured := (connected.names name).mp (mem_iff_exists_getElem?.mpr ⟨store, found⟩)
  rw [knows_iff_of_leaves leaves, Config.mem_listsFor_iff configured, and_iff_right listed,
    backendFor_eq_ok_iff connected, and_iff_left found]

/-- Every list that is configured has exactly one owner: the lists that are handed to the backends are
disjoint, and together they are those of the configuration. A dispatcher that is connected routes each
of them to the backend that it was handed to, which has been prepared for it; if the backends were
fresh stores, no other backend has it. Any other list is routed to the only backend, if there is
exactly one. -/
theorem every_list_has_one_owner (valid : config.validate = .ok ()) :
    (config.backends.keys.Pairwise fun left right =>
        (config.listsFor left).Disjoint (config.listsFor right)) ∧
      (∀ list, list ∈ config.lists ↔ ∃ name ∈ config.backends, list ∈ config.listsFor name) ∧
      (∀ {β σ : Type} [Backend β σ] {registry : Registry β σ} {medium reached : σ}
        {dispatcher : Dispatcher β},
        connect registry config medium = (.ok dispatcher, reached) →
          (∀ list ∈ config.lists, ∃ name ∈ config.backends, list ∈ config.listsFor name ∧
              RoutesTo registry config medium dispatcher list name) ∧
            (∀ list, list ∉ config.lists →
              (∀ name, config.backends.keys = [name] →
                  RoutesTo registry config medium dispatcher list name) ∧
                (config.backends.size ≠ 1 →
                  dispatcher.backendFor list = .error (.configuration (.unroutedList list)))) ∧
            ∀ list name,
              dispatcher.backendFor list ≠ .error (.configuration (.missingBackend name))) ∧
      ∀ {σ : Type} [Medium σ] {registry : Registry Store σ} {medium reached : σ}
        {dispatcher : Dispatcher Store},
        connect registry config medium = (.ok dispatcher, reached) →
          (∀ name built, Builds registry config medium name built → built = {}) →
            ∀ list ∈ config.lists, ∀ name store, dispatcher.backends[name]? = some store →
              (store.collections.knows list = true ↔
                dispatcher.backendFor list = .ok (name, store)) := by
  refine ⟨Config.pairwise_disjoint_listsFor, fun list => Config.mem_lists_iff valid, ?_, ?_⟩
  · intro β σ _ registry medium reached dispatcher connects
    have connected := isConnected_of_connect connects
    refine ⟨?_, ?_, backendFor_ne_missingBackend connected⟩
    · intro list listed
      rcases Config.exists_owner? valid listed with ⟨name, owned⟩
      have configured := Config.mem_backends_of_owner? valid owned
      exact ⟨name, configured, (Config.mem_listsFor_iff configured).mpr ⟨listed, owned⟩,
        routesTo_owner connected owned⟩
    · intro list unlisted
      constructor
      · intro name only
        exact routesTo_owner connected (Config.owner?_of_sole (Config.sole?_eq_some_iff.mpr only))
      · intro several
        apply backendFor_eq_error connected
        rw [Config.owner?_of_several (Config.sole?_eq_none_iff.mpr several),
          Std.ExtTreeMap.getElem?_eq_none unlisted]
        rfl
  · intro σ _ registry medium reached dispatcher connects fresh list listed name store found
    exact knows_iff_backendFor (isConnected_of_connect connects) fresh listed found

/-! Two backends with lists of their own. -/

private def twoBackends : Config :=
  ((((({} : Config).withBackend "main" Store.typeName .null).withBackend "audit" Store.typeName
    .null).withList "messages" (some "main")).withList "users" (some "main")).withList "actions"
      (some "audit")

theorem messages_and_actions_have_one_owner :
    twoBackends.validate = .ok () ∧ twoBackends.listsFor "audit" = ["actions"] ∧
      twoBackends.listsFor "main" = ["messages", "users"] ∧
      ∃ dispatcher, connect Registry.standard twoBackends Disk.empty = (.ok dispatcher, Disk.empty) ∧
        (∀ list ∈ twoBackends.lists, ∃ name ∈ twoBackends.backends,
          list ∈ twoBackends.listsFor name ∧
            RoutesTo Registry.standard twoBackends Disk.empty dispatcher list name) ∧
        dispatcher.backendFor "notes" = .error (.configuration (.unroutedList "notes")) ∧
        ∀ list ∈ twoBackends.lists, ∀ name store, dispatcher.backends[name]? = some store →
          (store.collections.knows list = true ↔ dispatcher.backendFor list = .ok (name, store)) := by
  have valid : twoBackends.validate = .ok () := rfl
  have owners := every_list_has_one_owner valid
  have connects : ∃ dispatcher,
      connect Registry.standard twoBackends Disk.empty = (.ok dispatcher, Disk.empty) := ⟨_, rfl⟩
  rcases connects with ⟨dispatcher, connects⟩
  have routing := owners.2.2.1 connects
  have unlisted : "notes" ∉ twoBackends.lists := by decide
  have several : twoBackends.backends.size ≠ 1 := by decide
  have unsaved : ∀ (name : String) (settings : BackendConfig),
      twoBackends.backends[name]? = some settings →
        Store.fileOfSettings settings.settings = .ok none := by
    intro name settings given
    have member := Std.ExtTreeMap.mem_toList_iff_getElem?_eq_some.mpr given
    have entries : twoBackends.backends.toList =
      [("audit", ⟨Store.typeName, .null⟩), ("main", ⟨Store.typeName, .null⟩)] := rfl
    simp only [entries, List.mem_cons, List.not_mem_nil, or_false, Prod.mk.injEq] at member
    rcases member with ⟨_, rfl⟩ | ⟨_, rfl⟩
    · rfl
    · rfl
  exact ⟨valid, rfl, rfl, dispatcher, connects, routing.1, (routing.2.1 "notes" unlisted).2 several,
    owners.2.2.2 connects fun name built => eq_empty_of_builds unsaved⟩

end Dispatcher

end DocStore

import DocStore.Dispatch.Dispatcher
import DocStore.Proofs.Outcome
import DocStore.Proofs.Session

/-!
Work on all backends, and connecting. A dispatcher that is connected has the backends of its
configuration, each as it was built and then prepared for its lists.
-/

namespace DocStore

/-! ## Entries that are replaced -/

section

variable {α β : Type} {made : String → α → β → Prop}

theorem mem_iff_exists_getElem? {entries : Std.ExtTreeMap String α} {name : String} :
    name ∈ entries ↔ ∃ entry, entries[name]? = some entry :=
  Std.ExtTreeMap.mem_iff_isSome_getElem?.trans Option.isSome_iff_exists

/-- The results have the names of the entries, and each is made of the entry of its name. -/
def Replaces (made : String → α → β → Prop) (entries : List (String × α))
    (results : List (String × β)) : Prop :=
  List.Forall₂ (fun entry result => result.1 = entry.1 ∧ made entry.1 entry.2 result.2)
    entries results

theorem Replaces.names {entries : List (String × α)} {results : List (String × β)}
    (replaces : Replaces made entries results) :
    results.map Prod.fst = entries.map Prod.fst := by
  induction replaces with
  | nil => rfl
  | cons here _ induction => rw [List.map_cons, List.map_cons, here.1, induction]

variable {source : Std.ExtTreeMap String α} {results : List (String × β)}

theorem Replaces.mem_insertMany (replaces : Replaces made source.toList results)
    (target : Std.ExtTreeMap String β) (name : String) :
    name ∈ target.insertMany results ↔ name ∈ target ∨ name ∈ source := by
  rw [Std.ExtTreeMap.mem_insertMany_list, replaces.names, Std.ExtTreeMap.map_fst_toList_eq_keys,
    List.contains_iff_mem, Std.ExtTreeMap.mem_keys]

theorem Replaces.exists_of_found (replaces : Replaces made source.toList results)
    (target : Std.ExtTreeMap String β) {name : String} {entry : α}
    (found : source[name]? = some entry) :
    ∃ result, (target.insertMany results)[name]? = some result ∧ made name entry result := by
  have member := Std.ExtTreeMap.mem_toList_iff_getElem?_eq_some.mpr found
  rcases Outcome.exists_mem_of_forall₂ replaces member with ⟨⟨_, result⟩, present, rfl, holds⟩
  have distinct : (results.map Prod.fst).Pairwise fun left right => ¬compare left right = .eq := by
    rw [replaces.names, Std.ExtTreeMap.map_fst_toList_eq_keys]
    exact Std.ExtTreeMap.distinct_keys
  exact ⟨result, Std.ExtTreeMap.getElem?_insertMany_list_of_mem Std.ReflCmp.compare_self
    (List.pairwise_map.mp distinct) present, holds⟩

end

namespace Dispatcher

variable {β σ α : Type}

/-! ## Work on all backends -/

/-- The work leaves a backend as given when it is done, on whatever medium. -/
def Leaves (work : Session β σ α) (backend left : β) : Prop :=
  ∃ before value after, work (backend, before) = (.ok value, left, after)

theorem Leaves.of_adapt {work : Session β σ α} {change : StoreError → StoreError} {backend left : β}
    (leaves : Leaves (ExceptT.adapt change work : Session β σ α) backend left) :
    Leaves work backend left := by
  rcases leaves with ⟨before, value, after, done⟩
  rw [Session.adapt_apply, Prod.mk.injEq, Outcome.mapError_eq_ok_iff] at done
  exact ⟨before, value, after, Prod.ext done.1 done.2⟩

variable {work : (name : String) → Session β σ α} {dispatcher reached : Dispatcher β}
  {medium after : σ} {values : List α}

theorem exists_of_onBackends {entries : List (String × β)}
    (worked : (entries.mapM fun (name, backend) => onBackend name backend (work name))
      (dispatcher, medium) = (.ok values, reached, after)) :
    ∃ results, Replaces (fun name => Leaves (work name)) entries results ∧
      reached = { dispatcher with backends := dispatcher.backends.insertMany results } := by
  induction entries generalizing dispatcher medium values with
  | nil =>
      cases worked
      exact ⟨[], .nil, by rw [Std.ExtTreeMap.insertMany_nil]⟩
  | cons entry entries induction =>
      rcases entry with ⟨name, backend⟩
      rw [List.mapM_cons, Session.bind_apply] at worked
      simp only [onBackend] at worked
      rcases done : work name (backend, medium) with ⟨_ | value, left, between⟩
      · rw [done] at worked
        cases worked
      · rw [done] at worked
        simp only [bind_pure_comp, Session.map_apply] at worked
        rcases rest : (entries.mapM fun (name, backend) => onBackend name backend (work name))
          ({ dispatcher with backends := dispatcher.backends.insert name left }, between)
          with ⟨_ | others, last, final⟩
        · rw [rest] at worked
          cases worked
        · rw [rest] at worked
          cases worked
          -- The others were worked on when the first one was already kept under its name.
          rcases induction rest with ⟨results, replaces, rfl⟩
          exact ⟨(name, left) :: results, .cons ⟨rfl, medium, value, between, done⟩ replaces,
            by rw [Std.ExtTreeMap.insertMany_cons]⟩

theorem exists_of_onEach (worked : onEach work (dispatcher, medium) = (.ok values, reached, after)) :
    ∃ results, Replaces (fun name => Leaves (work name)) dispatcher.backends.toList results ∧
      reached = { dispatcher with backends := dispatcher.backends.insertMany results } :=
  exists_of_onBackends worked

/-! ## Building -/

def Builds (registry : Registry β σ) (config : Config) (medium : σ) (name : String)
    (backend : β) : Prop :=
  ∃ settings factory, config.backends[name]? = some settings ∧
    registry[settings.typeName]? = some factory ∧ factory settings.settings medium = .ok backend

theorem exists_of_foldlM_insert {γ ε : Type} {make : String × γ → Except ε β}
    {inputs : List (String × γ)} {backends built : Std.ExtTreeMap String β}
    (worked : inputs.foldlM (fun backends input => do return backends.insert input.1 (← make input))
      backends = .ok built) :
    ∃ results, Replaces (fun name input backend => make (name, input) = .ok backend) inputs results ∧
      built = backends.insertMany results := by
  induction inputs generalizing backends with
  | nil =>
      cases worked
      exact ⟨[], .nil, by rw [Std.ExtTreeMap.insertMany_nil]⟩
  | cons input inputs induction =>
      rw [List.foldlM_cons, Outcome.bind_eq_ok_iff] at worked
      rcases worked with ⟨_, step, rest⟩
      rcases Outcome.bind_eq_ok_iff.mp step with ⟨backend, here, kept⟩
      cases kept
      rcases induction rest with ⟨results, replaces, rfl⟩
      exact ⟨(input.1, backend) :: results, .cons ⟨rfl, here⟩ replaces,
        by rw [Std.ExtTreeMap.insertMany_cons]⟩

variable {registry : Registry β σ} {config : Config}

theorem exists_of_build {backends : Std.ExtTreeMap String β}
    (built : build registry config medium = .ok backends) :
    ∃ results, Replaces (fun _ settings backend => ∃ factory,
        registry[settings.typeName]? = some factory ∧
          factory settings.settings medium = .ok backend) config.backends.toList results ∧
      backends = (∅ : Std.ExtTreeMap String β).insertMany results := by
  rcases Outcome.bind_eq_ok_iff.mp built with ⟨factories, known, made⟩
  rcases exists_of_foldlM_insert made with ⟨results, replaces, rfl⟩
  refine ⟨results, ?_, rfl⟩
  refine Outcome.forall₂_trans ?_ (Outcome.mapM_eq_ok_iff_forall₂.mp known) replaces
  rintro ⟨name, settings⟩ ⟨_, build⟩ ⟨_, backend⟩ chosen ⟨rfl, makes⟩
  cases found : registry[settings.typeName]? with
  | none => simp [found] at chosen
  | some factory =>
      simp only [found, Except.ok.injEq, Prod.mk.injEq] at chosen
      rcases chosen with ⟨rfl, rfl⟩
      exact ⟨rfl, factory, found, Outcome.mapError_eq_ok_iff.mp makes⟩

/-! ## Connecting -/

variable [Backend β σ]

def IsPrepared (registry : Registry β σ) (config : Config) (medium : σ) (name : String)
    (backend : β) : Prop :=
  ∃ built, Builds registry config medium name built ∧
    Leaves (Backend.prepare (config.listsFor name) : Session β σ Unit) built backend

/-- What a dispatcher is that is connected. -/
structure IsConnected (registry : Registry β σ) (config : Config) (medium : σ)
    (dispatcher : Dispatcher β) : Prop where
  valid : config.validate = .ok ()
  routes : dispatcher.routes = config.lists.filterMap fun _ owner => owner
  sole : dispatcher.sole = config.sole?
  names : ∀ name, name ∈ dispatcher.backends ↔ name ∈ config.backends
  prepared : ∀ {name backend}, dispatcher.backends[name]? = some backend →
    IsPrepared registry config medium name backend

theorem isConnected_of_connect (connected : connect registry config medium = (.ok reached, after)) :
    IsConnected registry config medium reached := by
  rw [connect] at connected
  split at connected
  · cases connected
  · next first built =>
    rcases Outcome.bind_eq_ok_iff.mp built with ⟨_, checked, rest⟩
    rcases Outcome.bind_eq_ok_iff.mp rest with ⟨backends, made, kept⟩
    cases kept
    simp only at connected
    split at connected
    · next values left final prepared =>
      cases connected
      rcases exists_of_build made with ⟨builtEntries, builds, rfl⟩
      rcases exists_of_onEach prepared with ⟨preparedEntries, prepares, rfl⟩
      have names (name : String) : name ∈ ((∅ : Std.ExtTreeMap String β).insertMany
          builtEntries).insertMany preparedEntries ↔ name ∈ config.backends := by
        simp [prepares.mem_insertMany, builds.mem_insertMany]
      refine ⟨Outcome.mapError_eq_ok_iff.mp checked, rfl, rfl, names, ?_⟩
      intro name backend found
      have configured := (names name).mp (mem_iff_exists_getElem?.mpr ⟨backend, found⟩)
      rcases mem_iff_exists_getElem?.mp configured with ⟨settings, given⟩
      rcases builds.exists_of_found ∅ given with ⟨built, kept, factory, known, makes⟩
      rcases prepares.exists_of_found _ kept with ⟨left, last, leaves⟩
      cases last.symm.trans found
      exact ⟨built, ⟨settings, factory, given, known, makes⟩, leaves.of_adapt⟩
    · cases connected

end Dispatcher

end DocStore

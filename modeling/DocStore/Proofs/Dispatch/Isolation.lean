import DocStore.Proofs.Dispatch.Actions
import DocStore.Proofs.Store.Transition

/-!
Isolation. The stores behind one dispatcher do not influence each other: each of them answers, and ends,
as if it had been given the calls on its own lists and no others.
-/

namespace DocStore

variable {σ : Type}

/-! ## Calls on the lists of one backend -/

namespace Dispatcher

variable {config : Config} {name : String}

def asks (config : Config) (name : String) (call : Call) : Bool :=
  config.owner? call.list = some name

/-- The calls on lists of a backend, as requests to it. -/
def requestsTo (config : Config) (name : String) (calls : List Call) : List Request :=
  (calls.filter (asks config name)).map Call.request

def outcomesOf {β : Type} (config : Config) (name : String) (run : List (Served β σ)) :
    List (Except StoreError Answer) :=
  (run.filter fun served => asks config name served.call).map Served.outcome

theorem requestsTo_cons (call : Call) (calls : List Call) :
    requestsTo config name (call :: calls) =
      if asks config name call then call.request :: requestsTo config name calls
      else requestsTo config name calls := by
  rw [requestsTo, List.filter_cons]
  split
  · rfl
  · rfl

theorem outcomesOf_cons {β : Type} (served : Served β σ) (run : List (Served β σ)) :
    outcomesOf config name (served :: run) =
      if asks config name served.call then served.outcome :: outcomesOf config name run
      else outcomesOf config name run := by
  rw [outcomesOf, List.filter_cons]
  split
  · rfl
  · rfl

end Dispatcher

/-! ## Stores without a snapshot -/

def StaysInMemory (_ : Bool) (before after : Store × σ) : Prop :=
  before.1.file = none → after.1.file = none ∧ after.2 = before.2

theorem staysInMemory_composes : Session.Composes (StaysInMemory (σ := σ)) where
  idle _ _ unsaved := ⟨unsaved, rfl⟩
  andThen before after unsaved :=
    have between := before unsaved
    have rest := after between.1
    ⟨rest.1, rest.2.trans between.2⟩

variable [Medium σ]

theorem adoptions_stayInMemory {follows : Collections → Collections → Prop} :
    Store.AdoptionsObey (σ := σ) follows StaysInMemory := by
  intro α value store medium next _ unsaved
  rcases store with ⟨collections, file⟩
  cases unsaved
  exact ⟨rfl, rfl⟩

theorem Request.obeys_staysInMemory (request : Request) :
    Session.Obeys (StaysInMemory (σ := σ)) request.run :=
  obeys_run staysInMemory_composes adoptions_stayInMemory request

namespace Dispatcher

variable {config : Config} {dispatcher : Dispatcher Store} {name : String} {store : Store} {medium : σ}

/-! ## One call -/

/-- The dispatcher routes as the configuration says, to stores that keep no snapshot. -/
structure InMemory (config : Config) (dispatcher : Dispatcher Store) : Prop where
  routes : Routes config dispatcher
  unsaved : ∀ {name : String} {store : Store}, dispatcher.backends[name]? = some store → store.file = none

theorem IsConnected.inMemory {registry : Registry Store σ}
    (connected : IsConnected registry config medium dispatcher)
    (unsaved : ∀ name built, Builds registry config medium name built → built.file = none) :
    InMemory config dispatcher where
  routes := connected.routes_config
  unsaved {name store} found := by
    rcases connected.prepared found with ⟨built, builds, before, value, after, prepares⟩
    have stays : StaysInMemory _ (built, before) (Store.prepare (config.listsFor name) (built, before)).2 :=
      Store.obeys_prepare adoptions_stayInMemory (built, before)
    have left : (Store.prepare (config.listsFor name) (built, before)).2.1 = store :=
      congrArg (fun result => result.2.1) prepares
    exact left ▸ (stays (unsaved name built builds)).1

theorem serve_inMemory (inMemory : InMemory config dispatcher)
    (found : dispatcher.backends[name]? = some store) (medium : σ) (call : Call) :
    let after := (serve (dispatcher, medium) call).after
    let step := call.request.step (store, medium)
    InMemory config after.1 ∧ after.2 = medium ∧
      (config.owner? call.list = some name →
        (serve (dispatcher, medium) call).outcome = step.outcome ∧
          step.after = (step.after.1, medium) ∧ after.1.backends[name]? = some step.after.1) ∧
      (config.owner? call.list ≠ some name → after.1.backends[name]? = some store) := by
  intro after step
  rcases serve_cases inMemory.routes call medium with
    ⟨free, served⟩ | ⟨owner, owning, owned, present, served⟩
  · have same : after = (dispatcher, medium) := congrArg Served.after served
    rw [same]
    exact ⟨inMemory, rfl, fun here => absurd (free.symm.trans here) nofun, fun _ => found⟩
  · have stays := call.request.obeys_staysInMemory (owning, medium) (inMemory.unsaved present)
    have same : after = (dispatcher.withBackend owner (call.request.step (owning, medium)).after.1,
        (call.request.step (owning, medium)).after.2) := congrArg Served.after served
    have kept : InMemory config after.1 := by
      rw [same]
      refine ⟨inMemory.routes.withBackend owner _, fun {other} backend there => ?_⟩
      rw [getElem?_withBackend] at there
      split at there
      · cases there
        exact stays.1
      · exact inMemory.unsaved there
    refine ⟨kept, (congrArg Prod.snd same).trans stays.2, fun here => ?_, fun elsewhere => ?_⟩
    · cases owned.symm.trans here
      cases present.symm.trans found
      refine ⟨congrArg Served.outcome served, Prod.ext rfl stays.2, ?_⟩
      rw [same, getElem?_withBackend, if_pos rfl]
    · have different : owner ≠ name := fun equal => elsewhere (equal ▸ owned)
      rw [same, getElem?_withBackend, if_neg different]
      exact found

/-! ## Runs -/

theorem isolated (inMemory : InMemory config dispatcher)
    (found : dispatcher.backends[name]? = some store) (medium : σ) (calls : List Call) :
    outcomesOf config name (served calls (dispatcher, medium)) =
        (steps (requestsTo config name calls) (store, medium)).map Step.outcome ∧
      (final calls (dispatcher, medium)).1.backends[name]? =
        some (reached (requestsTo config name calls) (store, medium)).1 := by
  induction calls generalizing dispatcher store with
  | nil => exact ⟨rfl, found⟩
  | cons call calls induction =>
      have here := serve_inMemory inMemory found medium call
      have state : (serve (dispatcher, medium) call).after =
          ((serve (dispatcher, medium) call).after.1, medium) := Prod.ext rfl here.2.1
      have same : (serve (dispatcher, medium) call).call = call := rfl
      rw [served, final, state, requestsTo_cons, outcomesOf_cons, same]
      cases asked : asks config name call with
      | true =>
          rcases here.2.2.1 (of_decide_eq_true asked) with ⟨answered, stays, kept⟩
          have rest := induction here.1 kept
          rw [if_pos rfl, if_pos rfl, steps, reached, stays, List.map_cons, answered, rest.1]
          exact ⟨rfl, rest.2⟩
      | false =>
          rw [if_neg Bool.false_ne_true, if_neg Bool.false_ne_true]
          exact induction here.1 (here.2.2.2 (of_decide_eq_false asked))

/-- The stores behind a connected dispatcher, none of which keeps a snapshot, do not influence each other.
Whatever calls are made, on any lists, what comes of those on the lists of one store, and what that
store holds in the end, are as if the store had been given just their requests, in their order. Calls
on lists without an owner are refused, and leave everything as it was. -/
theorem stores_do_not_interfere {registry : Registry Store σ} {medium reached : σ}
    (connects : connect registry config medium = (.ok dispatcher, reached))
    (unsaved : ∀ name built, Builds registry config medium name built → built.file = none)
    (calls : List Call) :
    (∀ name store, dispatcher.backends[name]? = some store →
      let requests := requestsTo config name calls
      outcomesOf config name (served calls (dispatcher, reached)) =
          (steps requests (store, reached)).map Step.outcome ∧
        (final calls (dispatcher, reached)).1.backends[name]? =
          some (DocStore.reached requests (store, reached)).1) ∧
      ∀ entry ∈ served calls (dispatcher, reached), config.owner? entry.call.list = none →
        entry.outcome = .error (.configuration (.unroutedList entry.call.list)) ∧
          entry.after = entry.before := by
  have connected := isConnected_of_connect connects
  have inMemory := connected.inMemory unsaved
  refine ⟨fun name store found => ?_, outcome_of_unrouted inMemory.routes⟩
  exact isolated inMemory found reached calls

/-! Calls on lists of two stores, in turn. A field that is named after a list of the other store holds no
children. -/

private def twoStores : Config :=
  (((({} : Config).withBackend "main" Store.typeName .null).withBackend "audit" Store.typeName
    .null).withList "users" (some "main")).withList "actions" (some "audit")

private def mixedCalls : List Call :=
  [.create (.seeded 0) "users" (.one [("id", .int32 1)]) .documents,
    .create (.seeded 1) "actions" (.one [("id", .int32 1), ("users", .array [.int32 2])]) .documents,
    .create (.seeded 2) "notes" (.one [("id", .int32 1)]) .documents,
    .delete "users" {},
    .find "actions" {}]

theorem actions_do_not_interfere_with_users :
    ∃ dispatcher, connect Registry.standard twoStores Disk.empty = (.ok dispatcher, Disk.empty) ∧
      (∀ name built, Builds Registry.standard twoStores Disk.empty name built → built.file = none) ∧
      (requestsTo twoStores "audit" mixedCalls).length = 2 ∧
      ∀ name store, dispatcher.backends[name]? = some store →
        outcomesOf twoStores name (served mixedCalls (dispatcher, Disk.empty)) =
          (steps (requestsTo twoStores name mixedCalls) (store, Disk.empty)).map Step.outcome := by
  have connects : ∃ dispatcher,
      connect Registry.standard twoStores Disk.empty = (.ok dispatcher, Disk.empty) := ⟨_, rfl⟩
  have unsaved : ∀ name built, Builds Registry.standard twoStores Disk.empty name built →
      built.file = none := by
    intro name built builds
    rw [eq_empty_of_builds (fun other settings given => ?_) builds]
    have member := Std.ExtTreeMap.mem_toList_iff_getElem?_eq_some.mpr given
    have entries : twoStores.backends.toList =
      [("audit", ⟨Store.typeName, .null⟩), ("main", ⟨Store.typeName, .null⟩)] := rfl
    simp only [entries, List.mem_cons, List.not_mem_nil, or_false, Prod.mk.injEq] at member
    rcases member with ⟨_, rfl⟩ | ⟨_, rfl⟩
    · rfl
    · rfl
  rcases connects with ⟨dispatcher, connects⟩
  have isolation := stores_do_not_interfere connects unsaved mixedCalls
  exact ⟨dispatcher, connects, unsaved, rfl, fun name store found => (isolation.1 name store found).1⟩

end Dispatcher

end DocStore

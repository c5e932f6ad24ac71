import DocStore.Proofs.Dispatch.Ownership
import DocStore.Proofs.Store.Request

/-!
Runs of a dispatcher. A call to a dispatcher that keeps stores is a request to the store that owns its
list, or a fault that leaves everything as it was.
-/

namespace DocStore

inductive Call where
  | create (ids : IdSupply) (list : String) (requested : NewDocuments) (reply : Reply)
  | find (list : String) (query : Query)
  | findOne (list : String) (query : Query)
  | update (list : String) (change : Update)
  | updateOne (list : String) (change : Update)
  | delete (list : String) (filter : Predicate)

namespace Call

def list : Call → String
  | create _ list _ _ | find list _ | findOne list _ | update list _ | updateOne list _
  | delete list _ => list

def request : Call → Request
  | create ids list requested reply => .create ids list requested reply
  | find list query => .find list query
  | findOne list query => .findOne list query
  | update list change => .updateMany list change
  | updateOne list change => .updateOne list change
  | delete list filter => .delete list filter

def run {β σ : Type} [Backend β σ] : Call → Session (Dispatcher β) σ Answer
  | create ids list requested reply => .created <$> Dispatcher.create ids list requested reply
  | find list query => .documents <$> Dispatcher.find list query
  | findOne list query => .document <$> Dispatcher.findOne list query
  | update list change => .count <$> Dispatcher.update list change
  | updateOne list change => .document <$> Dispatcher.updateOne list change
  | delete list filter => .count <$> Dispatcher.delete list filter

end Call

namespace Dispatcher

variable {β σ α γ : Type}

/-! ## Runs -/

structure Served (β σ : Type) where
  call : Call
  before : Dispatcher β × σ
  outcome : Except StoreError Answer
  after : Dispatcher β × σ

section

variable [Backend β σ]

def serve (state : Dispatcher β × σ) (call : Call) : Served β σ where
  call
  before := state
  outcome := (call.run state).1
  after := (call.run state).2

def served : List Call → Dispatcher β × σ → List (Served β σ)
  | [], _ => []
  | call :: calls, state => serve state call :: served calls (serve state call).after

def final : List Call → Dispatcher β × σ → Dispatcher β × σ
  | [], state => state
  | call :: calls, state => final calls (serve state call).after

variable {holds : Dispatcher β × σ → Prop} {calls : List Call} {start : Dispatcher β × σ}

theorem holds_final (kept : ∀ call ∈ calls, ∀ state, holds state → holds (serve state call).after)
    (first : holds start) : holds (final calls start) := by
  induction calls generalizing start with
  | nil => exact first
  | cons call calls induction =>
      have next := kept call List.mem_cons_self start first
      exact induction (fun other later => kept other (List.mem_cons_of_mem call later)) next

theorem holds_at_served (kept : ∀ call ∈ calls, ∀ state, holds state → holds (serve state call).after)
    (first : holds start) :
    ∀ entry ∈ served calls start, holds entry.before ∧ entry = serve entry.before entry.call := by
  induction calls generalizing start with
  | nil =>
      intro entry member
      cases member
  | cons call calls induction =>
      intro entry member
      have next := kept call List.mem_cons_self start first
      rcases List.mem_cons.mp member with rfl | later
      · exact ⟨first, rfl⟩
      · exact induction (fun other inRest => kept other (List.mem_cons_of_mem call inRest)) next entry
          later

end

/-! ## Work on the owner -/

/-- The dispatcher with another backend under a name. -/
def withBackend (dispatcher : Dispatcher β) (name : String) (backend : β) : Dispatcher β :=
  { dispatcher with backends := dispatcher.backends.insert name backend }

theorem getElem?_withBackend (dispatcher : Dispatcher β) (name other : String) (backend : β) :
    (dispatcher.withBackend name backend).backends[other]? =
      if name = other then some backend else dispatcher.backends[other]? := by
  simp [withBackend, Std.ExtTreeMap.getElem?_insert]

variable {dispatcher : Dispatcher β} {list name : String} {backend : β}

theorem onOwner_eq_of_routed (routed : dispatcher.backendFor list = .ok (name, backend))
    (work : Session β σ α) (medium : σ) :
    onOwner list work (dispatcher, medium) =
      ((work (backend, medium)).1, dispatcher.withBackend name (work (backend, medium)).2.1,
        (work (backend, medium)).2.2) := by
  have opened : onOwner list work (dispatcher, medium) =
      (MonadExcept.ofExcept (dispatcher.backendFor list) >>= fun owner =>
        onBackend owner.1 owner.2 work : Session (Dispatcher β) σ α) (dispatcher, medium) := rfl
  rw [opened, routed]
  rfl

theorem onOwner_eq_of_refused {cause : StoreError} (refused : dispatcher.backendFor list = .error cause)
    (work : Session β σ α) (medium : σ) :
    onOwner list work (dispatcher, medium) = (.error cause, dispatcher, medium) := by
  have opened : onOwner list work (dispatcher, medium) =
      (MonadExcept.ofExcept (dispatcher.backendFor list) >>= fun owner =>
        onBackend owner.1 owner.2 work : Session (Dispatcher β) σ α) (dispatcher, medium) := rfl
  rw [opened, refused]
  rfl

theorem map_onOwner (change : α → γ) (list : String) (work : Session β σ α) :
    change <$> onOwner list work = onOwner list (change <$> work) := by
  funext state
  rcases state with ⟨dispatcher, medium⟩
  rw [Session.map_apply]
  rcases routed : dispatcher.backendFor list with cause | ⟨name, backend⟩
  · rw [onOwner_eq_of_refused routed, onOwner_eq_of_refused routed]
    rfl
  · rw [onOwner_eq_of_routed routed, onOwner_eq_of_routed routed, Session.map_apply]

end Dispatcher

namespace Call

open Dispatcher

theorem run_eq_onOwner {σ : Type} [Medium σ] (call : Call) :
    (call.run : Session (Dispatcher Store) σ Answer) = onOwner call.list call.request.run := by
  cases call with
  | create ids list requested reply => exact map_onOwner Answer.created list _
  | find list query => exact map_onOwner Answer.documents list _
  | findOne list query => exact map_onOwner Answer.document list _
  | update list change => exact map_onOwner Answer.count list _
  | updateOne list change => exact map_onOwner Answer.document list _
  | delete list filter => exact map_onOwner Answer.count list _

end Call

namespace Dispatcher

variable {σ : Type} [Medium σ] {config : Config} {dispatcher : Dispatcher Store} {name : String}

/-! ## Routing in a run -/

/-- The dispatcher routes as the configuration says, and has all owners. -/
structure Routes {β : Type} (config : Config) (dispatcher : Dispatcher β) : Prop where
  owner : ∀ list, dispatcher.owner list =
    match config.owner? list with
    | some name => .ok name
    | none => .error (.unroutedList list)
  present : ∀ {list name}, config.owner? list = some name → name ∈ dispatcher.backends

theorem IsConnected.routes_config {registry : Registry Store σ} {medium : σ}
    (connected : IsConnected registry config medium dispatcher) : Routes config dispatcher where
  owner := owner_eq connected
  present owned := (connected.names _).mpr (Config.mem_backends_of_owner? connected.valid owned)

theorem Routes.withBackend (routes : Routes config dispatcher) (name : String) (store : Store) :
    Routes config (dispatcher.withBackend name store) where
  owner := routes.owner
  present owned := Std.ExtTreeMap.mem_insert.mpr (.inr (routes.present owned))

theorem Routes.backendFor_eq_ok (routes : Routes config dispatcher) {list : String} {store : Store}
    (owned : config.owner? list = some name) (found : dispatcher.backends[name]? = some store) :
    dispatcher.backendFor list = .ok (name, store) := by
  rw [backendFor, routes.owner, owned]
  simp only [Except.mapError, bind, Except.bind, found]
  rfl

/-- A call is a request to the owner of its list; one on a list without an owner is refused. -/
theorem serve_cases (routes : Routes config dispatcher) (call : Call) (medium : σ) :
    (config.owner? call.list = none ∧ serve (dispatcher, medium) call =
        { call, before := (dispatcher, medium)
          outcome := .error (.configuration (.unroutedList call.list))
          after := (dispatcher, medium) }) ∨
      ∃ name store, config.owner? call.list = some name ∧ dispatcher.backends[name]? = some store ∧
        let step := call.request.step (store, medium)
        serve (dispatcher, medium) call =
          { call, before := (dispatcher, medium), outcome := step.outcome
            after := (dispatcher.withBackend name step.after.1, step.after.2) } := by
  cases owned : config.owner? call.list with
  | none =>
      have refused : dispatcher.backendFor call.list =
          .error (.configuration (.unroutedList call.list)) := by
        rw [backendFor, routes.owner, owned]
        rfl
      refine .inl ⟨rfl, ?_⟩
      rw [serve, call.run_eq_onOwner, onOwner_eq_of_refused refused]
  | some name =>
      rcases mem_iff_exists_getElem?.mp (routes.present owned) with ⟨store, found⟩
      refine .inr ⟨name, store, rfl, found, ?_⟩
      rw [serve, call.run_eq_onOwner, onOwner_eq_of_routed (routes.backendFor_eq_ok owned found)]
      rfl

theorem routes_after_serve {state : Dispatcher Store × σ} (routes : Routes config state.1)
    (call : Call) : Routes config (serve state call).after.1 := by
  rcases state with ⟨dispatcher, medium⟩
  rcases serve_cases routes call medium with ⟨_, served⟩ | ⟨name, store, _, _, served⟩
  · rw [served]
    exact routes
  · rw [served]
    exact routes.withBackend name _

theorem outcome_of_unrouted {calls : List Call} {start : Dispatcher Store × σ}
    (routes : Routes config start.1) :
    ∀ entry ∈ served calls start, config.owner? entry.call.list = none →
      entry.outcome = .error (.configuration (.unroutedList entry.call.list)) ∧
        entry.after = entry.before := by
  intro entry member free
  have kept (call : Call) (state : Dispatcher Store × σ) (routes : Routes config state.1) :=
    routes_after_serve routes call
  rcases holds_at_served (fun call _ => kept call) routes entry member with ⟨routesThere, serves⟩
  rcases serve_cases routesThere entry.call entry.before.2 with ⟨_, served⟩ | ⟨name, _, owned, _⟩
  · have refused := serves.trans served
    exact ⟨congrArg Served.outcome refused, congrArg Served.after refused⟩
  · cases free.symm.trans owned

end Dispatcher

end DocStore

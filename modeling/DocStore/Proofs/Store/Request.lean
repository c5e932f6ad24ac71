import DocStore.Proofs.Store.Saving

/-!
Requests to a store, and runs of them: each request starts from the state that the one before it
left, whether that one succeeded or not.
-/

namespace DocStore

inductive Request where
  | prepare (lists : List String)
  | createList (ids : IdSupply) (list : String) (documents : List Document)
  | removeList (list : String)
  | listNames
  | create (ids : IdSupply) (list : String) (requested : NewDocuments) (reply : Reply)
  | find (list : String) (query : Query)
  | findOne (list : String) (query : Query)
  | updateOne (list : String) (update : Update)
  | updateMany (list : String) (update : Update)
  | delete (list : String) (filter : Predicate)
  | close

inductive Answer where
  | done
  | names (lists : List String)
  | created (created : Created)
  | documents (documents : List Document)
  | document (document : Option Document)
  | count (count : Nat)
  | closed (closed : Bool)

structure Step (σ : Type) where
  request : Request
  before : Store × σ
  outcome : Except StoreError Answer
  after : Store × σ

variable {σ : Type} [Medium σ]

namespace Request

def run : Request → Session Store σ Answer
  | prepare lists => (fun _ => .done) <$> Store.prepare lists
  | createList ids list documents => (fun _ => .done) <$> Store.createList ids list documents
  | removeList list => (fun _ => .done) <$> Store.removeList list
  | listNames => .names <$> Store.listNames
  | create ids list requested reply => .created <$> Store.create ids list requested reply
  | find list query => .documents <$> Store.find list query
  | findOne list query => .document <$> Store.findOne list query
  | updateOne list update => .document <$> Store.updateOne list update
  | updateMany list update => .count <$> Store.updateMany list update
  | delete list filter => .count <$> Store.delete list filter
  | close => .closed <$> Store.close

def step (request : Request) (state : Store × σ) : Step σ where
  request
  before := state
  outcome := (request.run state).1
  after := (request.run state).2

end Request

namespace Step

def succeeded (step : Step σ) : Bool :=
  step.outcome.isOk

end Step

def steps : List Request → Store × σ → List (Step σ)
  | [], _ => []
  | request :: requests, state => request.step state :: steps requests (request.step state).after

/-- The state at the end of a run. -/
def reached : List Request → Store × σ → Store × σ
  | [], state => state
  | request :: requests, state => reached requests (request.step state).after

/-- What holds at the start of a run and is kept by each of its steps holds throughout. -/
theorem holds_at_steps (holds : Store × σ → Prop) {requests : List Request} {start : Store × σ}
    (kept : ∀ step ∈ steps requests start, holds step.before → holds step.after)
    (first : holds start) :
    ∀ step ∈ steps requests start, holds step.before ∧ holds step.after := by
  induction requests generalizing start with
  | nil =>
      intro step member
      cases member
  | cons request requests induction =>
      intro step member
      have next := kept _ List.mem_cons_self first
      rcases List.mem_cons.mp member with rfl | later
      · exact ⟨first, next⟩
      · have rest : ∀ other ∈ steps requests _, holds other.before → holds other.after :=
          fun other inRest => kept other (List.mem_cons_of_mem _ inRest)
        exact induction rest next step later

theorem holds_reached (holds : Store × σ → Prop) {requests : List Request} {start : Store × σ}
    (kept : ∀ step ∈ steps requests start, holds step.before → holds step.after)
    (first : holds start) : holds (reached requests start) := by
  induction requests generalizing start with
  | nil => exact first
  | cons request requests induction =>
      have next := kept _ List.mem_cons_self first
      exact induction (fun other later => kept other (List.mem_cons_of_mem _ later)) next

theorem eq_step_of_mem_steps {requests : List Request} {start : Store × σ} {step : Step σ}
    (member : step ∈ steps requests start) : step = step.request.step step.before := by
  induction requests generalizing start with
  | nil => cases member
  | cons request requests induction =>
      rcases List.mem_cons.mp member with rfl | later
      · rfl
      · exact induction later

theorem holds_throughout {holds : Store × σ → Prop} {requests : List Request} {start : Store × σ}
    (kept : ∀ (request : Request) state, holds state → holds (request.step state).after)
    (first : holds start) :
    ∀ step ∈ steps requests start, holds step.before ∧ holds step.after := by
  refine holds_at_steps holds (fun step member before => ?_) first
  rw [eq_step_of_mem_steps member]
  exact kept step.request step.before before

end DocStore

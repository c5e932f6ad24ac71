import DocStore.Session

/-!
Sessions step by step, and what holds of a session because it holds of its steps. Work that recurses
may come to a list of steps.
-/

namespace DocStore.Session

variable {β σ α γ : Type}

theorem bind_apply (work : Session β σ α) (next : α → Session β σ γ) (state : β × σ) :
    (work >>= next) state =
      match work state with
      | (.ok value, reached) => next value reached
      | (.error cause, reached) => (.error cause, reached) := by
  simp only [bind, ExceptT.bind, ExceptT.mk, StateT.bind]
  rcases work state with ⟨outcome | outcome, reached⟩
  · rfl
  · rfl

theorem tryCatch_apply (work : Session β σ α) (rescue : StoreError → Session β σ α)
    (state : β × σ) :
    (tryCatch work rescue) state =
      match work state with
      | (.ok value, reached) => (.ok value, reached)
      | (.error cause, reached) => rescue cause reached := by
  simp only [tryCatch, tryCatchThe, MonadExceptOf.tryCatch, ExceptT.tryCatch, ExceptT.mk, bind,
    StateT.bind]
  rcases work state with ⟨outcome | outcome, reached⟩
  · rfl
  · rfl

theorem map_apply (change : α → γ) (work : Session β σ α) (state : β × σ) :
    (change <$> work) state = ((work state).1.map change, (work state).2) := by
  rw [← bind_pure_comp, bind_apply]
  rcases work state with ⟨cause | value, reached⟩
  · rfl
  · rfl

theorem adapt_apply (change : StoreError → StoreError) (work : Session β σ α) (state : β × σ) :
    (ExceptT.adapt change work : Session β σ α) state =
      ((work state).1.mapError change, (work state).2) := rfl

theorem mapM_eq_pure {inputs : List α} {work : α → Session β σ γ} {value : α → γ}
    (each : ∀ input ∈ inputs, work input = pure (value input)) :
    inputs.mapM work = pure (inputs.map value) := by
  induction inputs with
  | nil => rfl
  | cons input inputs induction =>
      have rest := induction fun other member => each other (List.mem_cons_of_mem input member)
      rw [List.mapM_cons, each input List.mem_cons_self, rest, pure_bind, pure_bind, List.map_cons]

theorem mapM_congr {inputs : List α} {work other : α → Session β σ γ}
    (same : ∀ input ∈ inputs, work input = other input) : inputs.mapM work = inputs.mapM other := by
  induction inputs with
  | nil => rfl
  | cons input inputs induction =>
      have rest := induction fun later member => same later (List.mem_cons_of_mem input member)
      rw [List.mapM_cons, List.mapM_cons, same input List.mem_cons_self, rest]

/-! ## Relations between the state before and after -/

/-- Steps can be put together whose states are related; all but the last one have succeeded. -/
structure Composes (related : (succeeded : Bool) → (before after : β × σ) → Prop) : Prop where
  idle : ∀ succeeded state, related succeeded state state
  andThen : ∀ {succeeded first second third}, related true first second →
    related succeeded second third → related succeeded first third

/-- The states before and after the work are related, from wherever it starts. -/
def Obeys (related : (succeeded : Bool) → (before after : β × σ) → Prop)
    (work : Session β σ α) : Prop :=
  ∀ state, related (work state).1.isOk state (work state).2

variable {related : (succeeded : Bool) → (before after : β × σ) → Prop}

theorem obeys_pure (composes : Composes related) (value : α) :
    Obeys related (pure value : Session β σ α) :=
  fun state => composes.idle true state

theorem obeys_ofExcept (composes : Composes related) (outcome : Except StoreError α) :
    Obeys related (MonadExcept.ofExcept outcome : Session β σ α) := by
  intro state
  cases outcome with
  | error cause => exact composes.idle false state
  | ok value => exact composes.idle true state

theorem related_map {work : Session β σ α} {state : β × σ}
    (before : related (work state).1.isOk state (work state).2) (change : α → γ) :
    related ((change <$> work) state).1.isOk state ((change <$> work) state).2 := by
  rw [map_apply]
  generalize work state = result at before ⊢
  rcases result with ⟨cause | value, reached⟩
  · exact before
  · exact before

theorem obeys_map {work : Session β σ α} (obeys : Obeys related work) (change : α → γ) :
    Obeys related (change <$> work) := by
  intro state
  exact related_map (obeys state) change

theorem obeys_bind (composes : Composes related) {work : Session β σ α}
    {next : α → Session β σ γ} (first : Obeys related work)
    (rest : ∀ value, Obeys related (next value)) : Obeys related (work >>= next) := by
  intro state
  have before := first state
  rw [bind_apply]
  generalize work state = result at before ⊢
  rcases result with ⟨cause | value, reached⟩
  · exact before
  · exact composes.andThen before (rest value reached)

theorem obeys_mapM (composes : Composes related) {inputs : List α} {work : α → Session β σ γ}
    (each : ∀ input ∈ inputs, Obeys related (work input)) :
    Obeys related (inputs.mapM work) := by
  induction inputs with
  | nil => exact obeys_pure composes []
  | cons input inputs induction =>
      rw [List.mapM_cons]
      have rest := induction fun other member => each other (List.mem_cons_of_mem input member)
      apply obeys_bind composes (each input List.mem_cons_self)
      intro output
      apply obeys_bind composes rest
      intro outputs
      exact obeys_pure composes (output :: outputs)

/-! ## Steps one after another -/

variable {δ : Type}

theorem exists_of_forM_eq_error {steps : List δ} {step : δ → Session β σ Unit}
    {state reached : β × σ} {cause : StoreError}
    (failed : forM steps step state = (.error cause, reached)) :
    ∃ done failing rest middle, steps = done ++ failing :: rest ∧
      forM done step state = (.ok (), middle) ∧ step failing middle = (.error cause, reached) := by
  induction steps generalizing state with
  | nil => cases failed
  | cons first steps induction =>
      rw [List.forM_cons, bind_apply] at failed
      rcases worked : step first state with ⟨here | _, middle⟩
      · rw [worked] at failed
        exact ⟨[], first, steps, state, rfl, rfl, worked.trans failed⟩
      · rw [worked] at failed
        rcases induction failed with ⟨done, failing, rest, last, split, before, fails⟩
        refine ⟨first :: done, failing, rest, last, by rw [split]; rfl, ?_, fails⟩
        rw [List.forM_cons, bind_apply, worked]
        exact before

theorem holds_forM {holds : β × σ → Prop} {steps : List δ} {step : δ → Session β σ Unit}
    (kept : ∀ member ∈ steps, ∀ state, holds state → holds (step member state).2)
    {state : β × σ} (first : holds state) : holds (forM steps step state).2 := by
  induction steps generalizing state with
  | nil => exact first
  | cons member steps induction =>
      have next := kept member List.mem_cons_self state first
      rw [List.forM_cons, bind_apply]
      generalize step member state = result at next ⊢
      rcases result with ⟨cause | _, reached⟩
      · exact next
      · exact induction (fun other later => kept other (List.mem_cons_of_mem member later)) next

/-- The work is steps one after another, from every state of a kind. -/
def RunsAs (holds : β × σ → Prop) (work : Session β σ γ) (step : δ → Session β σ Unit)
    (steps : List δ) (value : γ) : Prop :=
  ∀ state, holds state → work state = (do forM steps step; return value : Session β σ γ) state

variable {holds : β × σ → Prop} {step : δ → Session β σ Unit}

theorem RunsAs.map {work : Session β σ α} {steps : List δ} {value : α}
    (runs : RunsAs holds work step steps value) (change : α → γ) :
    RunsAs holds (do return change (← work)) step steps (change value) := by
  intro state first
  rw [bind_apply, runs state first, bind_apply, bind_apply]
  rcases forM steps step state with ⟨cause | _, reached⟩
  · rfl
  · rfl

theorem RunsAs.mapM {inputs : List α} {work : α → Session β σ γ} {steps : α → List δ}
    {value : α → γ}
    (each : ∀ input ∈ inputs, RunsAs holds (work input) step (steps input) (value input))
    (kept : ∀ input ∈ inputs, ∀ member ∈ steps input, ∀ state, holds state →
      holds (step member state).2) :
    RunsAs holds (inputs.mapM work) step (inputs.flatMap steps) (inputs.map value) := by
  induction inputs with
  | nil =>
      intro state _
      rfl
  | cons input inputs induction =>
      intro state first
      have rest := induction (fun other later => each other (List.mem_cons_of_mem input later))
        (fun other later => kept other (List.mem_cons_of_mem input later))
      have next := holds_forM (kept input List.mem_cons_self) first
      rw [List.mapM_cons, bind_apply, each input List.mem_cons_self state first, bind_apply,
        List.flatMap_cons, List.forM_append, bind_assoc, bind_apply]
      generalize forM (steps input) step state = result at next ⊢
      rcases result with ⟨cause | _, reached⟩
      · rfl
      · exact rest.map (fun values => value input :: values) reached next

end DocStore.Session

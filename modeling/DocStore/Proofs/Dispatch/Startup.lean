import DocStore.Proofs.Dispatch.Actions

/-!
Start-up. The backends of a dispatcher share a medium, and are worked on in the order of their names. If the
work on each of them spares what holds of the others, then what it makes of each holds of all of them in the
end.
-/

namespace DocStore.Dispatcher

variable {β σ α : Type}

/-! ## Work on all backends -/

/-- The work on a backend makes what holds after of what holds before. It spares what holds before of
the backends that come later, and what holds after of those that come earlier. -/
structure Carries (before after : String → β → σ → Prop)
    (work : (name : String) → Session β σ α) : Prop where
  does : ∀ {name backend medium}, before name backend medium →
    (work name (backend, medium)).1.isOk = true →
      after name (work name (backend, medium)).2.1 (work name (backend, medium)).2.2
  sparesLater : ∀ {name backend medium later unworked}, compare name later = .lt →
    before name backend medium → before later unworked medium →
      before later unworked (work name (backend, medium)).2.2
  sparesEarlier : ∀ {name backend medium earlier worked}, compare earlier name = .lt →
    before name backend medium → after earlier worked medium →
      after earlier worked (work name (backend, medium)).2.2

variable {before after : String → β → σ → Prop} {work : (name : String) → Session β σ α}
  {dispatcher : Dispatcher β} {medium : σ}

/-- Work on all backends with some of them left, in the order of their names. -/
structure Underway (before after : String → β → σ → Prop) (entries : List (String × β))
    (dispatcher : Dispatcher β) (medium : σ) : Prop where
  ordered : entries.Pairwise fun entry later => compare entry.1 later.1 = .lt
  waiting : ∀ entry ∈ entries, before entry.1 entry.2 medium
  done : ∀ name backend, name ∉ entries.map Prod.fst → dispatcher.backends[name]? = some backend →
    after name backend medium ∧ ∀ entry ∈ entries, compare name entry.1 = .lt

theorem Underway.next {entries : List (String × β)} {name : String} {backend : β}
    (underway : Underway before after ((name, backend) :: entries) dispatcher medium)
    (carries : Carries before after work)
    (succeeded : (work name (backend, medium)).1.isOk = true) :
    Underway before after entries (dispatcher.withBackend name (work name (backend, medium)).2.1)
      (work name (backend, medium)).2.2 := by
  have here := underway.waiting (name, backend) List.mem_cons_self
  have ordered := List.pairwise_cons.mp underway.ordered
  refine ⟨ordered.2, fun entry member => ?_, fun other left absent found => ?_⟩
  · exact carries.sparesLater (ordered.1 entry member) here
      (underway.waiting entry (List.mem_cons_of_mem _ member))
  · rw [getElem?_withBackend] at found
    split at found
    · next same =>
      cases found
      exact ⟨same ▸ carries.does here succeeded, same ▸ ordered.1⟩
    · next different =>
      have behind : other ∉ ((name, backend) :: entries).map Prod.fst :=
        List.not_mem_cons_of_ne_of_not_mem (Ne.symm different) absent
      rcases underway.done other left behind found with ⟨holds, earlier⟩
      have first := earlier (name, backend) List.mem_cons_self
      exact ⟨carries.sparesEarlier first here holds, fun entry member =>
        earlier entry (List.mem_cons_of_mem _ member)⟩

theorem onBackends_carries (carries : Carries before after work) {entries : List (String × β)}
    (underway : Underway before after entries dispatcher medium) :
    let result := (entries.mapM fun (name, backend) => onBackend name backend (work name))
      (dispatcher, medium)
    (result.1.isOk = true → ∀ name backend, result.2.1.backends[name]? = some backend →
        after name backend result.2.2) ∧
      ((∀ name backend medium, before name backend medium →
          (work name (backend, medium)).1.isOk = true) → result.1.isOk = true) := by
  induction entries generalizing dispatcher medium with
  | nil =>
      exact ⟨fun _ name backend found => (underway.done name backend List.not_mem_nil found).1,
        fun _ => rfl⟩
  | cons entry entries induction =>
      rcases entry with ⟨name, backend⟩
      have next := underway.next carries
      rw [List.mapM_cons, Session.bind_apply]
      simp only [onBackend]
      rcases worked : work name (backend, medium) with ⟨cause | value, left, between⟩
      · constructor
        · intro done
          cases done
        · intro succeeds
          have succeeded := succeeds name backend medium (underway.waiting _ List.mem_cons_self)
          rw [worked] at succeeded
          cases succeeded
      · rw [worked] at next
        have rest := induction (next rfl)
        dsimp only at rest
        simp only [bind_pure_comp, Session.map_apply]
        have state : ({ dispatcher with backends := dispatcher.backends.insert name left } :
            Dispatcher β) = dispatcher.withBackend name left := rfl
        rw [state]
        generalize (entries.mapM fun (name, backend) => onBackend name backend (work name))
          (dispatcher.withBackend name left, between) = result at rest ⊢
        rcases result with ⟨cause | values, reached⟩
        · exact rest
        · exact rest

theorem onEach_carries (carries : Carries before after work)
    (waiting : ∀ name backend, dispatcher.backends[name]? = some backend → before name backend medium) :
    let result := onEach work (dispatcher, medium)
    (result.1.isOk = true → ∀ name backend, result.2.1.backends[name]? = some backend →
        after name backend result.2.2) ∧
      ((∀ name backend medium, before name backend medium →
          (work name (backend, medium)).1.isOk = true) → result.1.isOk = true) := by
  refine onBackends_carries carries ⟨Std.ExtTreeMap.ordered_keys_toList, ?_,
    fun name backend absent found => ?_⟩
  · intro entry member
    exact waiting entry.1 entry.2 (Std.ExtTreeMap.mem_toList_iff_getElem?_eq_some.mp member)
  · have member := Std.ExtTreeMap.mem_toList_iff_getElem?_eq_some.mpr found
    exact absurd (List.mem_map.mpr ⟨(name, backend), member, rfl⟩) absent

theorem isOk_mapError {ε δ : Type} (change : ε → δ) (outcome : Except ε α) :
    (outcome.mapError change).isOk = outcome.isOk := by
  cases outcome with
  | error cause => rfl
  | ok value => rfl

theorem Carries.adapt (carries : Carries before after work)
    (change : (name : String) → StoreError → StoreError) :
    Carries before after fun name => (ExceptT.adapt (change name) (work name) : Session β σ α) where
  does here done := carries.does here ((isOk_mapError _ _).symm.trans done)
  sparesLater := carries.sparesLater
  sparesEarlier := carries.sparesEarlier

/-! ## Building -/

theorem exists_foldlM_insert {γ ε : Type} {make : String × γ → Except ε β}
    {inputs : List (String × γ)} (each : ∀ input ∈ inputs, ∃ backend, make input = .ok backend)
    (backends : Std.ExtTreeMap String β) :
    ∃ built, inputs.foldlM (fun backends input => do return backends.insert input.1 (← make input))
      backends = .ok built := by
  induction inputs generalizing backends with
  | nil => exact ⟨backends, rfl⟩
  | cons input inputs induction =>
      rcases each input List.mem_cons_self with ⟨backend, made⟩
      have later := induction (fun other member => each other (List.mem_cons_of_mem input member))
        (backends.insert input.1 backend)
      rw [List.foldlM_cons, made]
      exact later

theorem exists_mapM_foldlM_insert {γ δ ε : Type} {inputs : List γ}
    (choose : γ → Except ε (String × δ)) (make : String × δ → Except ε β)
    (each : ∀ input ∈ inputs, ∃ made, choose input = .ok made ∧ ∃ backend, make made = .ok backend) :
    ∃ built, (inputs.mapM choose >>= fun chosen => chosen.foldlM
      (fun (backends : Std.ExtTreeMap String β) made => do return backends.insert made.1 (← make made))
      ∅) = .ok built := by
  rcases Outcome.exists_forall₂_iff.mpr each with ⟨chosen, pairs⟩
  have chooses := Outcome.mapM_eq_ok_iff_forall₂.mpr (pairs.imp fun _ _ both => both.1)
  have makes : ∀ made ∈ chosen, ∃ backend, make made = .ok backend := by
    intro made member
    rcases Outcome.exists_mem_of_forall₂ pairs.flip member with ⟨_, _, _, succeeds⟩
    exact succeeds
  rcases exists_foldlM_insert makes ∅ with ⟨built, folded⟩
  exact ⟨built, Outcome.bind_eq_ok_iff.mpr ⟨chosen, chooses, folded⟩⟩

variable {registry : Registry β σ} {config : Config}

theorem exists_build (buildable : ∀ name settings, config.backends[name]? = some settings →
      ∃ backend, Builds registry config medium name backend) :
    ∃ backends, build registry config medium = .ok backends := by
  let make (made : String × (σ → Except StoreError β)) : Except StoreError β :=
    (made.2 medium).mapError (.startup made.1)
  refine exists_mapM_foldlM_insert _ make fun entry member => ?_
  rcases entry with ⟨name, settings⟩
  rcases buildable name settings (Std.ExtTreeMap.mem_toList_iff_getElem?_eq_some.mp member) with
    ⟨backend, _, factory, given, found, makes⟩
  cases given.symm.trans (Std.ExtTreeMap.mem_toList_iff_getElem?_eq_some.mp member)
  exact ⟨(name, factory settings.settings), by simp only [found], backend,
    Outcome.mapError_eq_ok_iff.mpr makes⟩

theorem builds_of_build {backends : Std.ExtTreeMap String β} {name : String} {backend : β}
    (built : build registry config medium = .ok backends) (found : backends[name]? = some backend) :
    Builds registry config medium name backend := by
  rcases exists_of_build built with ⟨entries, builds, rfl⟩
  have configured : name ∈ config.backends := by
    have member := mem_iff_exists_getElem?.mpr ⟨backend, found⟩
    rw [builds.mem_insertMany] at member
    exact member.resolve_left Std.ExtTreeMap.not_mem_empty
  rcases mem_iff_exists_getElem?.mp configured with ⟨settings, given⟩
  rcases builds.exists_of_found ∅ given with ⟨_, kept, factory, known, makes⟩
  cases kept.symm.trans found
  exact ⟨settings, factory, given, known, makes⟩

/-! ## Connecting -/

variable [Backend β σ]

def unprepared (config : Config) (backends : Std.ExtTreeMap String β) : Dispatcher β where
  backends
  routes := config.lists.filterMap fun _ owner => owner
  sole := config.sole?

def preparing (config : Config) (name : String) : Session β σ Unit :=
  ExceptT.adapt (StoreError.startup name) (Backend.prepare (config.listsFor name))

theorem connect_eq (valid : config.validate = .ok ()) {backends : Std.ExtTreeMap String β}
    (built : build registry config medium = .ok backends) :
    connect registry config medium =
      match onEach (preparing config) (unprepared config backends, medium) with
      | (.ok _, dispatcher, medium) => (.ok dispatcher, medium)
      | (.error cause, _, medium) => (.error cause, medium) := by
  rw [connect, valid, built]
  rfl

variable (carries : Carries before after fun name =>
    (Backend.prepare (config.listsFor name) : Session β σ Unit))
  (waiting : ∀ name built, Builds registry config medium name built → before name built medium)

include carries waiting

theorem preparing_carries {backends : Std.ExtTreeMap String β}
    (built : build registry config medium = .ok backends) :
    let result := onEach (preparing config) (unprepared config backends, medium)
    (result.1.isOk = true → ∀ name backend, result.2.1.backends[name]? = some backend →
        after name backend result.2.2) ∧
      ((∀ name backend medium, before name backend medium →
          (preparing config name (backend, medium)).1.isOk = true) → result.1.isOk = true) :=
  onEach_carries (carries.adapt StoreError.startup) fun name backend found =>
    waiting name backend (builds_of_build built found)

theorem after_of_connect {reached : σ}
    (connects : connect registry config medium = (.ok dispatcher, reached)) {name : String} {backend : β}
    (found : dispatcher.backends[name]? = some backend) : after name backend reached := by
  have valid := (isConnected_of_connect connects).valid
  cases built : build registry config medium with
  | error cause =>
      rw [connect, valid, built] at connects
      cases connects
  | ok backends =>
      have prepared := (preparing_carries carries waiting built).1
      rw [connect_eq valid built] at connects
      rcases outcome : onEach (preparing config) (unprepared config backends, medium) with
        ⟨cause | values, left, final⟩
      · rw [outcome] at connects
        cases connects
      · rw [outcome] at connects prepared
        cases connects
        exact prepared rfl name backend found

theorem exists_connect (valid : config.validate = .ok ())
    (buildable : ∀ name settings, config.backends[name]? = some settings →
      ∃ backend, Builds registry config medium name backend)
    (succeeds : ∀ name backend medium, before name backend medium →
      ((Backend.prepare (config.listsFor name) : Session β σ Unit) (backend, medium)).1.isOk = true) :
    ∃ dispatcher reached, connect registry config medium = (.ok dispatcher, reached) := by
  rcases exists_build buildable with ⟨backends, built⟩
  have prepared := (preparing_carries carries waiting built).2 fun name backend medium here =>
    (isOk_mapError _ _).trans (succeeds name backend medium here)
  rw [connect_eq valid built]
  rcases outcome : onEach (preparing config) (unprepared config backends, medium) with
    ⟨cause | values, left, final⟩
  · rw [outcome] at prepared
    cases prepared
  · exact ⟨left, final, rfl⟩

end DocStore.Dispatcher

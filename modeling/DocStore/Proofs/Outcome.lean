import Mathlib.Data.List.Forall2

/-!
Outcomes that succeed, and lists that are related member by member. A sequence of steps succeeds
exactly if each step does.
-/

namespace DocStore.Outcome

variable {ε α β : Type}

/-! ## Lists related member by member -/

theorem exists_forall₂_iff {related : α → β → Prop} {inputs : List α} :
    (∃ outputs, List.Forall₂ related inputs outputs) ↔
      ∀ input ∈ inputs, ∃ output, related input output := by
  induction inputs with
  | nil => exact ⟨fun _ _ => nofun, fun _ => ⟨[], .nil⟩⟩
  | cons input inputs induction =>
      rw [List.forall_mem_cons, ← induction]
      constructor
      · rintro ⟨_, here | ⟨here, later⟩⟩
        exact ⟨⟨_, here⟩, ⟨_, later⟩⟩
      · rintro ⟨⟨output, here⟩, ⟨outputs, later⟩⟩
        exact ⟨output :: outputs, .cons here later⟩

theorem exists_mem_of_forall₂ {related : α → β → Prop} {inputs : List α} {outputs : List β}
    (all : List.Forall₂ related inputs outputs) {input : α} (member : input ∈ inputs) :
    ∃ output ∈ outputs, related input output := by
  induction all with
  | nil => cases member
  | cons here _ induction =>
      rcases List.mem_cons.mp member with rfl | later
      · exact ⟨_, List.mem_cons_self, here⟩
      · rcases induction later with ⟨output, present, holds⟩
        exact ⟨output, List.mem_cons_of_mem _ present, holds⟩

theorem forall₂_trans {γ : Type} {first : α → β → Prop} {second : β → γ → Prop}
    {related : α → γ → Prop}
    (compose : ∀ {input middle output}, first input middle → second middle output →
      related input output)
    {inputs : List α} {middles : List β} {outputs : List γ} (before : List.Forall₂ first inputs middles)
    (after : List.Forall₂ second middles outputs) : List.Forall₂ related inputs outputs := by
  induction before generalizing outputs with
  | nil =>
      cases after
      exact .nil
  | cons here _ induction =>
      rcases after with _ | ⟨there, rest⟩
      exact .cons (compose here there) (induction rest)

theorem forall₂_comp_iff {γ : Type} {first : α → β → Prop} {second : β → γ → Prop} {inputs : List α}
    {outputs : List γ} :
    List.Forall₂ (fun input output => ∃ middle, first input middle ∧ second middle output) inputs
        outputs ↔
      ∃ middles, List.Forall₂ first inputs middles ∧ List.Forall₂ second middles outputs := by
  constructor
  · intro all
    induction all with
    | nil => exact ⟨[], .nil, .nil⟩
    | cons here _ induction =>
        rcases here with ⟨middle, before, after⟩
        rcases induction with ⟨middles, allBefore, allAfter⟩
        exact ⟨middle :: middles, .cons before allBefore, .cons after allAfter⟩
  · rintro ⟨middles, before, after⟩
    exact forall₂_trans (fun here there => ⟨_, here, there⟩) before after

/-! ## Steps one after another -/

theorem bind_eq_ok_iff {first : Except ε α} {next : α → Except ε β} {result : β} :
    (first >>= next) = .ok result ↔ ∃ value, first = .ok value ∧ next value = .ok result := by
  cases first with
  | error cause => simp [bind, Except.bind]
  | ok value => simp [bind, Except.bind]

theorem pure_eq_ok_iff {value result : α} :
    (pure value : Except ε α) = .ok result ↔ value = result := by
  simp [pure, Except.pure]

theorem mapError_eq_ok_iff {δ : Type} {change : ε → δ} {outcome : Except ε α} {result : α} :
    outcome.mapError change = .ok result ↔ outcome = .ok result := by
  cases outcome with
  | error cause => simp [Except.mapError]
  | ok value => simp [Except.mapError]

theorem mapM_cons_eq_ok_iff {work : α → Except ε β} {input : α} {inputs : List α}
    {result : List β} :
    (input :: inputs).mapM work = .ok result ↔
      ∃ output outputs, work input = .ok output ∧ inputs.mapM work = .ok outputs ∧
        result = output :: outputs := by
  rw [List.mapM_cons]
  simp only [bind_eq_ok_iff, pure_eq_ok_iff]
  constructor
  · rintro ⟨output, worked, outputs, rest, equal⟩
    exact ⟨output, outputs, worked, rest, equal.symm⟩
  · rintro ⟨output, outputs, worked, rest, equal⟩
    exact ⟨output, worked, outputs, rest, equal.symm⟩

theorem mapM_eq_ok_iff_forall₂ {work : α → Except ε β} {inputs : List α} {outputs : List β} :
    inputs.mapM work = .ok outputs ↔
      List.Forall₂ (fun input output => work input = .ok output) inputs outputs := by
  induction inputs generalizing outputs with
  | nil => exact (pure_eq_ok_iff.trans eq_comm).trans List.forall₂_nil_left_iff.symm
  | cons input inputs induction =>
      rw [mapM_cons_eq_ok_iff, List.forall₂_cons_left_iff]
      constructor
      · rintro ⟨output, rest, worked, remaining, equal⟩
        exact ⟨output, rest, worked, induction.mp remaining, equal⟩
      · rintro ⟨output, rest, worked, remaining, equal⟩
        exact ⟨output, rest, worked, induction.mpr remaining, equal⟩

theorem mapM_append_eq_ok_iff {work : α → Except ε β} {left right : List α}
    {result : List β} :
    (left ++ right).mapM work = .ok result ↔
      ∃ first second, left.mapM work = .ok first ∧ right.mapM work = .ok second ∧
        result = first ++ second := by
  rw [List.mapM_append]
  simp only [bind_eq_ok_iff, pure_eq_ok_iff]
  constructor
  · rintro ⟨first, worked, second, rest, equal⟩
    exact ⟨first, second, worked, rest, equal.symm⟩
  · rintro ⟨first, second, worked, rest, equal⟩
    exact ⟨first, worked, second, rest, equal.symm⟩

theorem length_eq_of_mapM_eq_ok {work : α → Except ε β} {inputs : List α} {outputs : List β}
    (worked : inputs.mapM work = .ok outputs) : outputs.length = inputs.length := by
  induction inputs generalizing outputs with
  | nil =>
      cases worked
      rfl
  | cons input inputs induction =>
      rcases mapM_cons_eq_ok_iff.mp worked with ⟨output, rest, _, remaining, rfl⟩
      simp [induction remaining]

theorem forM_eq_ok_iff {work : α → Except ε Unit} {inputs : List α} :
    inputs.forM work = .ok () ↔ ∀ input ∈ inputs, work input = .ok () := by
  induction inputs with
  | nil => simp [pure, Except.pure]
  | cons input inputs induction =>
      change (work input >>= fun _ => inputs.forM work) = .ok () ↔ _
      rw [bind_eq_ok_iff, induction, List.forall_mem_cons]
      constructor
      · rintro ⟨⟨⟩, first, rest⟩
        exact ⟨first, rest⟩
      · rintro ⟨first, rest⟩
        exact ⟨(), first, rest⟩

end DocStore.Outcome

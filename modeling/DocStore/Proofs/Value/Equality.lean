import DocStore.Proofs.Fields
import DocStore.Proofs.Number.Comparison
import DocStore.Proofs.Value.Induction
import DocStore.Value.Equality
import Mathlib.Data.List.Forall2

/-!
Equality of values by their parts: arrays are equal position by position, and documents if what they
have under each key is equal. It is the same from either side, and what equals the same is equal.
-/

namespace DocStore.Value

variable {numbers : NumberEquality}

/-! ## Documents -/

theorem keysInclude_iff {fields others : Document} :
    keysInclude fields others = true ↔
      ∀ key, (Fields.get? others key).isSome = true → (Fields.get? fields key).isSome = true := by
  simp only [keysInclude, List.all_eq_true, Fields.contains_eq_isSome_get?]
  constructor
  · intro included key found
    rcases Option.isSome_iff_exists.mp found with ⟨other, found⟩
    exact included (key, other) (Fields.mem_of_get?_eq_some found)
  · rintro included ⟨key, other⟩ member
    apply included
    rw [← Fields.contains_eq_isSome_get?]
    exact List.any_eq_true.mpr ⟨(key, other), member, beq_self_eq_true key⟩

theorem fieldsAgree_iff {seen : List String} {fields others : Document} :
    fieldsAgree numbers seen fields others = true ↔
      ∀ key value, key ∉ seen → Fields.get? fields key = some value →
        ∃ other, Fields.get? others key = some other ∧ agrees numbers value other = true := by
  induction fields generalizing seen with
  | nil => simp [fieldsAgree, Fields.get?_nil]
  | cons field fields induction =>
      rcases field with ⟨first, held⟩
      rw [fieldsAgree, Bool.and_eq_true, Bool.or_eq_true, induction, List.contains_iff_mem]
      constructor
      · rintro ⟨here, later⟩ key value unseen found
        rw [Fields.get?_cons] at found
        split at found
        · next same =>
          subst same
          cases found
          have agreed := here.resolve_left unseen
          split at agreed
          · next other present => exact ⟨other, present, agreed⟩
          · cases agreed
        · next different =>
          apply later key value _ found
          simp [unseen, Ne.symm different]
      · intro agreed
        refine ⟨?_, fun key value unseen found => agreed key value ?_ ?_⟩
        · by_cases known : first ∈ seen
          · exact .inl known
          · rcases agreed first held known (by simp [Fields.get?_cons]) with ⟨other, present, same⟩
            simp only [present]
            exact .inr same
        · exact fun known => unseen (List.mem_cons_of_mem first known)
        · have different : first ≠ key := by
            rintro rfl
            exact unseen List.mem_cons_self
          rw [Fields.get?_cons, if_neg different]
          exact found

theorem agrees_document_iff {fields others : Document} :
    (fieldsAgree numbers [] fields others && keysInclude fields others) = true ↔
      ∀ key, Option.Rel (fun value other => agrees numbers value other = true)
        (Fields.get? fields key) (Fields.get? others key) := by
  rw [Bool.and_eq_true, fieldsAgree_iff, keysInclude_iff]
  constructor
  · rintro ⟨agreed, included⟩ key
    cases found : Fields.get? fields key with
    | none =>
        cases present : Fields.get? others key with
        | none => exact .none
        | some other =>
            have known := included key (by rw [present]; rfl)
            rw [found] at known
            cases known
    | some value =>
        rcases agreed key value List.not_mem_nil found with ⟨other, present, same⟩
        rw [present]
        exact .some same
  · intro each
    constructor
    · intro key value _ found
      have here := each key
      rw [found] at here
      generalize Fields.get? others key = other at here ⊢
      cases here with
      | some same => exact ⟨_, rfl, same⟩
    · intro key present
      have here := each key
      generalize Fields.get? others key = other at here present
      generalize Fields.get? fields key = value at here ⊢
      cases here with
      | none => exact present
      | some same => rfl

/-! ## Arrays -/

theorem itemsAgree_iff_forall₂ {items others : List Value} :
    itemsAgree numbers items others = true ↔
      List.Forall₂ (fun item other => agrees numbers item other = true) items others := by
  induction items generalizing others with
  | nil => rw [itemsAgree, List.isEmpty_iff, List.forall₂_nil_left_iff]
  | cons item items induction =>
      cases others with
      | nil => simp [itemsAgree]
      | cons other others => rw [itemsAgree, Bool.and_eq_true, List.forall₂_cons, induction]

/-! ## Symmetry -/

theorem sameLeaf_symm {left right : Value} (same : sameLeaf left right = true) :
    sameLeaf right left = true := by
  unfold sameLeaf at same
  split at same
  case h_5 left right => exact (Double.equals_comm right left).trans same
  case h_19 => cases same
  all_goals
    simp only [Bool.and_eq_true, beq_iff_eq] at same
    simp [sameLeaf, same]

theorem leafAgrees_symm {left right : Value} (agreed : leafAgrees numbers left right = true) :
    leafAgrees numbers right left = true := by
  unfold leafAgrees at agreed ⊢
  split at agreed
  · next first second left right =>
    simp only [left, right]
    exact (Number.equals_comm _ _).trans agreed
  · next noNumbers =>
    split
    · next first second right left => exact absurd left (noNumbers _ _ rfl · right)
    · exact sameLeaf_symm agreed

theorem leafAgrees_of_hasParts {left right : Value} (parts : left.hasParts = true) :
    leafAgrees numbers left right = false := by
  cases left with
  | array items => simp [leafAgrees, number?, sameLeaf]
  | document fields => simp [leafAgrees, number?, sameLeaf]
  | scopedCode source scope => simp [leafAgrees, number?, sameLeaf]
  | _ => cases parts

theorem hasParts_of_leafAgrees {left right : Value}
    (agreed : leafAgrees numbers left right = true) : right.hasParts = false := by
  rw [Bool.eq_false_iff]
  intro parts
  have flipped := leafAgrees_symm agreed
  rw [leafAgrees_of_hasParts parts] at flipped
  cases flipped

theorem agrees_of_leaf {left right : Value} (leaf : left.hasParts = false) :
    agrees numbers left right = leafAgrees numbers left right := by
  cases left with
  | array items => cases leaf
  | document fields => cases leaf
  | scopedCode source scope => cases leaf
  | _ => rfl

theorem itemsAgree_symm {items others : List Value}
    (each : ∀ item ∈ items, ∀ other,
      agrees numbers item other = true → agrees numbers other item = true)
    (agreed : itemsAgree numbers items others = true) :
    itemsAgree numbers others items = true := by
  induction items generalizing others with
  | nil =>
      rw [List.isEmpty_iff.mp agreed]
      rfl
  | cons item items induction =>
      cases others with
      | nil => cases agreed
      | cons other others =>
          rw [itemsAgree, Bool.and_eq_true] at agreed ⊢
          have first := each item List.mem_cons_self other agreed.1
          have rest := induction (fun item member => each item (List.mem_cons_of_mem _ member))
            agreed.2
          exact ⟨first, rest⟩

theorem fields_symm {fields others : Document}
    (each : ∀ field ∈ fields, ∀ other,
      agrees numbers field.2 other = true → agrees numbers other field.2 = true)
    (agreed : (fieldsAgree numbers [] fields others && keysInclude fields others) = true) :
    (fieldsAgree numbers [] others fields && keysInclude others fields) = true := by
  rw [agrees_document_iff] at agreed ⊢
  intro key
  have here := agreed key
  generalize found : Fields.get? fields key = value at here ⊢
  generalize Fields.get? others key = other at here ⊢
  cases here with
  | none => exact .none
  | some same => exact .some (each _ (Fields.mem_of_get?_eq_some found) _ same)

theorem agrees_symm {left right : Value} (agreed : agrees numbers left right = true) :
    agrees numbers right left = true := by
  induction left using induction_on_parts generalizing numbers right with
  | array items each =>
      cases right with
      | array others => exact itemsAgree_symm (fun item member _ => each item member) agreed
      | _ => cases agreed
  | document fields each =>
      cases right with
      | document others => exact fields_symm (fun field member _ => each field member) agreed
      | _ => cases agreed
  | scopedCode source scope each =>
      cases right with
      | scopedCode otherSource others =>
          rw [agrees, Bool.and_assoc, Bool.and_eq_true] at agreed ⊢
          have sources : otherSource == source := BEq.symm agreed.1
          exact ⟨sources, fields_symm (fun field member _ => each field member) agreed.2⟩
      | _ => cases agreed
  | leaf left leaf =>
      rw [agrees_of_leaf leaf] at agreed
      exact (agrees_of_leaf (hasParts_of_leafAgrees agreed)).trans (leafAgrees_symm agreed)

theorem equals_comm (left right : Value) : left.equals right = right.equals left :=
  Bool.eq_iff_iff.mpr ⟨agrees_symm, agrees_symm⟩

/-! ## Transitivity -/

theorem eq_or_double_of_sameLeaf {left right : Value} (same : sameLeaf left right = true) :
    left = right ∨
      ∃ first second, left = .double first ∧ right = .double second ∧ first.equals second = true := by
  unfold sameLeaf at same
  split at same
  case h_5 left right => exact .inr ⟨left, right, rfl, rfl, same⟩
  case h_19 => cases same
  all_goals
    simp only [Bool.and_eq_true, beq_iff_eq] at same
    simp [same]

theorem sameLeaf_trans {left middle right : Value} (first : sameLeaf left middle = true)
    (second : sameLeaf middle right = true) : sameLeaf left right = true := by
  rcases eq_or_double_of_sameLeaf first with rfl | ⟨a, b, rfl, rfl, ab⟩
  · exact second
  rcases eq_or_double_of_sameLeaf second with rfl | ⟨b', c, same, rfl, bc⟩
  · exact first
  cases same
  have first : (Number.double a).equals (.double b) = true := ab
  have second : (Number.double b).equals (.double c) = true := bc
  exact Number.equals_trans first second

theorem isSome_number?_of_sameLeaf {left right : Value} (same : sameLeaf left right = true) :
    left.number?.isSome = right.number?.isSome := by
  rcases eq_or_double_of_sameLeaf same with rfl | ⟨a, b, rfl, rfl, _⟩
  · rfl
  · rfl

theorem leafAgrees_byValue_iff {left right : Value} :
    leafAgrees .byValue left right = true ↔
      (∃ first second, left.number? = some first ∧ right.number? = some second ∧
          first.equals second = true) ∨
        (left.number? = none ∧ right.number? = none ∧ sameLeaf left right = true) := by
  unfold leafAgrees
  have sides : sameLeaf left right = true → left.number?.isSome = right.number?.isSome :=
    isSome_number?_of_sameLeaf
  cases first : left.number? with
  | some number =>
      cases second : right.number? with
      | some other => simp
      | none => simpa [first, second] using sides
  | none =>
      cases second : right.number? with
      | some other => simpa [first, second] using sides
      | none => simp

theorem hasParts_of_number? {value : Value} {number : Number} (held : value.number? = some number) :
    value.hasParts = false := by
  cases value with
  | array | document | scopedCode => cases held
  | _ => rfl

theorem equals_of_number? {left right : Value} {first second : Number}
    (isFirst : left.number? = some first) (isSecond : right.number? = some second) :
    left.equals right = first.equals second := by
  rw [equals, agrees_of_leaf (hasParts_of_number? isFirst)]
  simp only [leafAgrees, isFirst, isSecond]

theorem leafAgrees_trans {left middle right : Value}
    (first : leafAgrees numbers left middle = true)
    (second : leafAgrees numbers middle right = true) : leafAgrees numbers left right = true := by
  cases numbers with
  | byType => exact sameLeaf_trans first second
  | byValue =>
      rw [leafAgrees_byValue_iff] at first second ⊢
      rcases first with ⟨a, b, isA, isB, ab⟩ | ⟨noLeft, noMiddle, first⟩
      · rcases second with ⟨b', c, isB', isC, bc⟩ | ⟨noMiddle, _, _⟩
        · cases isB.symm.trans isB'
          exact .inl ⟨a, c, isA, isC, Number.equals_trans ab bc⟩
        · cases isB.symm.trans noMiddle
      · rcases second with ⟨b, c, isB, isC, bc⟩ | ⟨_, noRight, second⟩
        · cases isB.symm.trans noMiddle
        · exact .inr ⟨noLeft, noRight, sameLeaf_trans first second⟩

theorem itemsAgree_trans {items others thirds : List Value}
    (each : ∀ item ∈ items, ∀ other third, agrees numbers item other = true →
      agrees numbers other third = true → agrees numbers item third = true)
    (first : itemsAgree numbers items others = true)
    (second : itemsAgree numbers others thirds = true) :
    itemsAgree numbers items thirds = true := by
  induction items generalizing others thirds with
  | nil =>
      rw [List.isEmpty_iff.mp first] at second
      exact second
  | cons item items induction =>
      rcases others with _ | ⟨other, others⟩
      · cases first
      rcases thirds with _ | ⟨third, thirds⟩
      · cases second
      rw [itemsAgree, Bool.and_eq_true] at first second ⊢
      have here := each item List.mem_cons_self other third first.1 second.1
      have later := induction (fun item member => each item (List.mem_cons_of_mem _ member))
        first.2 second.2
      exact ⟨here, later⟩

theorem fields_trans {fields others thirds : Document}
    (each : ∀ field ∈ fields, ∀ other third, agrees numbers field.2 other = true →
      agrees numbers other third = true → agrees numbers field.2 third = true)
    (first : (fieldsAgree numbers [] fields others && keysInclude fields others) = true)
    (second : (fieldsAgree numbers [] others thirds && keysInclude others thirds) = true) :
    (fieldsAgree numbers [] fields thirds && keysInclude fields thirds) = true := by
  rw [agrees_document_iff] at first second ⊢
  intro key
  have here := first key
  have next := second key
  generalize found : Fields.get? fields key = value at here ⊢
  generalize Fields.get? others key = other at here next
  generalize Fields.get? thirds key = third at next ⊢
  cases here with
  | none => exact next
  | some same =>
      cases next with
      | some also => exact .some (each _ (Fields.mem_of_get?_eq_some found) _ _ same also)

/-- What equals the same is equal, at every depth. -/
theorem agrees_trans {left middle right : Value} (first : agrees numbers left middle = true)
    (second : agrees numbers middle right = true) : agrees numbers left right = true := by
  induction left using induction_on_parts generalizing numbers middle right with
  | array items each =>
      cases middle with
      | array others =>
          cases right with
          | array thirds =>
              exact itemsAgree_trans (fun item member _ _ => each item member) first second
          | _ => cases second
      | _ => cases first
  | document fields each =>
      cases middle with
      | document others =>
          cases right with
          | document thirds =>
              exact fields_trans (fun field member _ _ => each field member) first second
          | _ => cases second
      | _ => cases first
  | scopedCode source scope each =>
      cases middle with
      | scopedCode otherSource others =>
          cases right with
          | scopedCode thirdSource thirds =>
              rw [agrees, Bool.and_assoc, Bool.and_eq_true] at first second ⊢
              rw [beq_iff_eq] at first second ⊢
              have fields := fields_trans (fun field member _ _ => each field member) first.2 second.2
              exact ⟨first.1.trans second.1, fields⟩
          | _ => cases second
      | _ => cases first
  | leaf left leaf =>
      rw [agrees_of_leaf leaf] at first ⊢
      rw [agrees_of_leaf (hasParts_of_leafAgrees first)] at second
      exact leafAgrees_trans first second

theorem equals_trans {left middle right : Value} (first : left.equals middle = true)
    (second : middle.equals right = true) : left.equals right = true :=
  agrees_trans first second

/-! ## Equality with itself -/

def isNaN : Value → Bool
  | .double value => value.isNaN
  | _ => false

/-- Wherever there is a double in a value, it is a number. -/
def FreeOfNaN (value : Value) : Prop :=
  value.everywhere (!·.isNaN) = true

instance (value : Value) : Decidable value.FreeOfNaN :=
  inferInstanceAs (Decidable (_ = true))

theorem isNaN_of_number? {value : Value} {number : Number} (held : value.number? = some number) :
    number.isNaN = value.isNaN := by
  cases value with
  | int32 | int64 | double =>
      cases held
      rfl
  | _ => cases held

theorem sameLeaf_self {value : Value} (leaf : value.hasParts = false) :
    sameLeaf value value = !value.isNaN := by
  cases value with
  | array | document | scopedCode => cases leaf
  | double value => exact Number.equals_self (.double value)
  | _ => simp [sameLeaf, isNaN]

theorem leafAgrees_self {value : Value} (leaf : value.hasParts = false) :
    leafAgrees numbers value value = !value.isNaN := by
  cases numbers with
  | byType => exact sameLeaf_self leaf
  | byValue =>
      unfold leafAgrees
      cases held : value.number? with
      | none => exact sameLeaf_self leaf
      | some number => exact isNaN_of_number? held ▸ number.equals_self

theorem fieldsAgree_self_iff {fields : Document} :
    (fieldsAgree numbers [] fields fields && keysInclude fields fields) = true ↔
      ∀ key value, fields.get? key = some value → agrees numbers value value = true := by
  rw [agrees_document_iff]
  constructor
  · intro each key value found
    have here := each key
    rw [found] at here
    cases here with
    | some same => exact same
  · intro each key
    cases found : Fields.get? fields key with
    | none => exact .none
    | some value => exact .some (each key value found)

theorem fieldsAgree_self_iff_occursIn {fields : Document}
    (each : ∀ field ∈ fields, agrees numbers field.2 field.2 = true ↔
      ∀ number, OccursIn (.double number) field.2 → number.isNaN = false) :
    (fieldsAgree numbers [] fields fields && keysInclude fields fields) = true ↔
      ∀ number key value, fields.get? key = some value → OccursIn (.double number) value →
        number.isNaN = false := by
  rw [fieldsAgree_self_iff]
  constructor
  · intro all number key value found
    exact (each _ (Fields.mem_of_get?_eq_some found)).mp (all key value found) number
  · intro none key value found
    exact (each _ (Fields.mem_of_get?_eq_some found)).mpr fun number =>
      none number key value found

theorem agrees_self_iff {value : Value} :
    agrees numbers value value = true ↔
      ∀ number, OccursIn (.double number) value → number.isNaN = false := by
  induction value using induction_on_parts generalizing numbers with
  | array items each =>
      have parts : agrees numbers (.array items) (.array items) = true ↔
          ∀ item ∈ items, agrees numbers item item = true :=
        itemsAgree_iff_forall₂.trans List.forall₂_same
      rw [parts]
      constructor
      · intro all number occurs
        cases occurs with
        | item member inside => exact (each _ member).mp (all _ member) number inside
      · intro none item member
        exact (each item member).mpr fun number inside => none number (.item member inside)
  | document fields each =>
      refine (fieldsAgree_self_iff_occursIn fun field member => each field member).trans ?_
      constructor
      · intro none number occurs
        cases occurs with
        | field found inside => exact none number _ _ found inside
      · intro none number key value found inside
        exact none number (.field found inside)
  | scopedCode source scope each =>
      rw [agrees, beq_self_eq_true, Bool.true_and,
        fieldsAgree_self_iff_occursIn fun field member => each field member]
      constructor
      · intro none number occurs
        cases occurs with
        | scope found inside => exact none number _ _ found inside
      · intro none number key value found inside
        exact none number (.scope found inside)
  | leaf value leaf =>
      rw [agrees_of_leaf leaf, leafAgrees_self leaf, Bool.not_eq_true']
      constructor
      · intro free number occurs
        have same := occurs.eq_of_leaf leaf
        subst same
        exact free
      · intro none
        cases value with
        | double number => exact none number .here
        | _ => rfl

theorem agrees_self {value : Value} (free : value.FreeOfNaN) : agrees numbers value value = true := by
  rw [agrees_self_iff]
  intro number occurs
  exact (Bool.not_eq_true' _).mp (occurs.of_everywhere free)

theorem equals_self {value : Value} (free : value.FreeOfNaN) : value.equals value = true :=
  agrees_self free

end DocStore.Value

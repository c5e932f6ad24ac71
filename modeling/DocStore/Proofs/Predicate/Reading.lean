import DocStore.Predicate.Parser
import DocStore.Proofs.Fields
import DocStore.Proofs.Outcome
import DocStore.Proofs.Value.Induction

/-!
What is read of where-clauses. A clause is read if each of its entries is, and its predicate is made
of what is read of them; each part of the parser is described by one statement about what it accepts.
-/

namespace DocStore

/-! ## Operators -/

inductive Operator.Takes : Operator → Value → Prop
  | like (pattern : String) : Takes .like (.string pattern)
  | notLike (pattern : String) : Takes .notLike (.string pattern)
  | gt (bound : Value) : Takes .gt bound
  | gte (bound : Value) : Takes .gte bound
  | lt (bound : Value) : Takes .lt bound
  | lte (bound : Value) : Takes .lte bound
  | oneOf (candidates : List Value) : Takes .oneOf (.array candidates)

namespace Operator

theorem ofName?_name (operator : Operator) : ofName? operator.name = some operator := by
  cases operator with
  | _ => decide

theorem ofName?_eq_some_iff {name : String} {operator : Operator} :
    ofName? name = some operator ↔ operator.name = name := by
  constructor
  · intro known
    have found := @List.find?_some _ (fun operator : Operator => operator.name == name) _ _ known
    exact beq_iff_eq.mp found
  · rintro rfl
    exact ofName?_name operator

theorem name_injective {left right : Operator} (same : left.name = right.name) : left = right := by
  rw [← Option.some_inj, ← ofName?_name left, same, ofName?_name]

theorem isOperatorKey_name (operator : Operator) : isOperatorKey operator.name = true := by
  cases operator with
  | _ => decide

end Operator

theorem Condition.ofOperator_eq_ok_iff {field name : String} {argument : Value}
    {condition : Condition} :
    ofOperator field name argument = .ok condition ↔
      ∃ operator : Operator, operator.name = name ∧ operator.Takes argument ∧
        condition = .compare operator argument := by
  constructor
  · intro read
    unfold ofOperator at read
    cases known : Operator.ofName? name with
    | none =>
        rw [known] at read
        cases read
    | some operator =>
        refine ⟨operator, Operator.ofName?_eq_some_iff.mp known, ?_⟩
        rw [known] at read
        cases operator with
        | like =>
            cases argument with
            | string pattern => exact ⟨.like pattern, (Except.ok.inj read).symm⟩
            | _ => cases read
        | notLike =>
            cases argument with
            | string pattern => exact ⟨.notLike pattern, (Except.ok.inj read).symm⟩
            | _ => cases read
        | oneOf =>
            cases argument with
            | array candidates => exact ⟨.oneOf candidates, (Except.ok.inj read).symm⟩
            | _ => cases read
        | gt => exact ⟨.gt argument, (Except.ok.inj read).symm⟩
        | gte => exact ⟨.gte argument, (Except.ok.inj read).symm⟩
        | lt => exact ⟨.lt argument, (Except.ok.inj read).symm⟩
        | lte => exact ⟨.lte argument, (Except.ok.inj read).symm⟩
  · rintro ⟨operator, rfl, takes, rfl⟩
    unfold ofOperator
    rw [Operator.ofName?_name]
    cases takes with
    | _ => rfl

/-! ## Constraints on a field -/

namespace Predicate

/-- Whether a value under a field is a document of operators. -/
def hasOperators : Value → Bool
  | .document entries => entries.any (isOperatorKey ·.1)
  | _ => false

def ReadsAs (field : String) (entry : String × Value) (condition : String × Condition) : Prop :=
  ∃ operator : Operator, operator.name = entry.1 ∧ operator.Takes entry.2 ∧
    condition = (field, .compare operator entry.2)

theorem ofOperator_readsAs {field : String} {entry : String × Value}
    {condition : String × Condition} :
    (do return (field, ← Condition.ofOperator field entry.1 entry.2)) = .ok condition ↔
      ReadsAs field entry condition := by
  simp only [Outcome.bind_eq_ok_iff, Outcome.pure_eq_ok_iff, Condition.ofOperator_eq_ok_iff]
  constructor
  · rintro ⟨_, ⟨operator, name, takes, rfl⟩, rfl⟩
    exact ⟨operator, name, takes, rfl⟩
  · rintro ⟨operator, name, takes, rfl⟩
    exact ⟨_, ⟨operator, name, takes, rfl⟩, rfl⟩

theorem isOperatorKey_of_reads {field : String} {entries : Document}
    {conditions : List (String × Condition)} (reads : List.Forall₂ (ReadsAs field) entries conditions)
    {entry : String × Value} (member : entry ∈ entries) : isOperatorKey entry.1 = true := by
  rcases Outcome.exists_mem_of_forall₂ reads member with ⟨_, _, operator, name, _⟩
  rw [← name]
  exact operator.isOperatorKey_name

theorem hasOperators_of_reads {field : String} {entries : Document}
    {conditions : List (String × Condition)} (nonempty : entries ≠ [])
    (reads : List.Forall₂ (ReadsAs field) entries conditions) :
    hasOperators (.document entries) = true := by
  rcases List.exists_mem_of_ne_nil entries nonempty with ⟨entry, member⟩
  exact List.any_eq_true.mpr ⟨entry, member, isOperatorKey_of_reads reads member⟩

theorem conditionsOf_eq_ok_iff {field : String} {value : Value}
    {conditions : List (String × Condition)} :
    conditionsOf field value = .ok conditions ↔
      (hasOperators value = false ∧ conditions = [(field, .equal value)]) ∨
        ∃ entries, value = .document entries ∧ entries ≠ [] ∧
          List.Forall₂ (ReadsAs field) entries conditions := by
  cases value with
  | document entries =>
      have reads : (entries.mapM fun entry => do
            return (field, ← Condition.ofOperator field entry.1 entry.2)) = .ok conditions ↔
          List.Forall₂ (ReadsAs field) entries conditions := by
        simp only [Outcome.mapM_eq_ok_iff_forall₂, ofOperator_readsAs]
      constructor
      · intro read
        rw [conditionsOf] at read
        split at read
        · next some =>
          split at read
          · refine .inr ⟨entries, rfl, ?_, reads.mp read⟩
            rintro rfl
            cases some
          · cases read
        · next none => exact .inl ⟨Bool.not_eq_true _ ▸ none, (Except.ok.inj read).symm⟩
      · rintro (⟨none, rfl⟩ | ⟨_, ⟨⟩, nonempty, read⟩)
        · rw [hasOperators] at none
          rw [conditionsOf, none]
          rfl
        · have all : entries.all (isOperatorKey ·.1) = true :=
            List.all_eq_true.mpr fun entry member => isOperatorKey_of_reads read member
          have some : entries.any (isOperatorKey ·.1) = true := hasOperators_of_reads nonempty read
          rw [conditionsOf, if_pos some, if_pos all]
          exact reads.mpr read
  | _ =>
      constructor
      · intro read
        exact .inl ⟨rfl, (Except.ok.inj read).symm⟩
      · rintro (⟨_, rfl⟩ | ⟨_, ⟨⟩, _⟩)
        rfl

/-! ## Entries -/

theorem ofAlternatives_eq_mapM (items : List Value) :
    ofAlternatives items = items.mapM ofAlternative := by
  induction items with
  | nil => rfl
  | cons item items induction =>
      rw [ofAlternatives, List.mapM_cons, induction]
      cases ofAlternative item with
      | error cause => rfl
      | ok predicate =>
          cases items.mapM ofAlternative with
          | error cause => rfl
          | ok predicates => rfl

theorem ofAlternative_eq_ok_iff {item : Value} {predicate : Predicate} :
    ofAlternative item = .ok predicate ↔
      ∃ clause, item = .document clause ∧ ofDocument clause = .ok predicate := by
  cases item with
  | document clause =>
      constructor
      · intro read
        exact ⟨clause, rfl, read⟩
      · rintro ⟨_, ⟨⟩, read⟩
        exact read
  | _ =>
      constructor
      · intro read
        cases read
      · rintro ⟨_, ⟨⟩, _⟩

theorem ofAlternatives_eq_ok_iff {items : List Value} {predicates : List Predicate} :
    ofAlternatives items = .ok predicates ↔
      ∃ clauses : List Document, items = clauses.map .document ∧
        List.Forall₂ (fun clause predicate => ofDocument clause = .ok predicate) clauses predicates := by
  rw [ofAlternatives_eq_mapM, Outcome.mapM_eq_ok_iff_forall₂]
  constructor
  · intro read
    induction read with
    | nil => exact ⟨[], rfl, .nil⟩
    | cons here _ induction =>
        rcases ofAlternative_eq_ok_iff.mp here with ⟨clause, rfl, here⟩
        rcases induction with ⟨clauses, rfl, later⟩
        exact ⟨clause :: clauses, rfl, .cons here later⟩
  · rintro ⟨clauses, rfl, read⟩
    exact List.forall₂_map_left_iff.mpr read

theorem ofField_eq_ok_iff {key : String} {value : Value} {predicate : Predicate} :
    ofField key value = .ok predicate ↔
      isOperatorKey key = false ∧ ∃ conditions, conditionsOf key value = .ok conditions ∧
        predicate = { conditions } := by
  rw [ofField]
  split
  · next operator => simp [operator]
  · next field =>
    rw [Bool.not_eq_true] at field
    cases conditionsOf key value with
    | error cause => simp [Except.map]
    | ok conditions => simp [Except.map, field, eq_comm]

theorem isOperatorKey_orKey : isOperatorKey orKey = true := by
  decide

theorem ofValue_eq_ok_iff {key : String} {value : Value} {predicate : Predicate} :
    ofValue key value = .ok predicate ↔
      (key = orKey ∧ ∃ items alternatives, value = .array items ∧
          ofAlternatives items = .ok alternatives ∧
          predicate = { alternatives := some alternatives }) ∨
        (isOperatorKey key = false ∧ ∃ conditions, conditionsOf key value = .ok conditions ∧
          predicate = { conditions }) := by
  by_cases alternative : key = orKey
  · subst alternative
    cases value with
    | array items =>
        rw [ofValue, if_pos rfl]
        cases read : ofAlternatives items with
        | error cause => simp [isOperatorKey_orKey, read]
        | ok alternatives => simp [isOperatorKey_orKey, read, eq_comm]
    | _ => simp [ofValue, isOperatorKey_orKey]
  · have field : ofValue key value = ofField key value := by
      cases value with
      | array items => rw [ofValue, if_neg alternative]
      | _ => exact if_neg alternative
    rw [field, ofField_eq_ok_iff]
    simp [alternative]

/-! ## Clauses -/

theorem ofDocument_cons_eq_ok_iff {key : String} {value : Value} {clause : Document}
    {predicate : Predicate} :
    ofDocument ((key, value) :: clause) = .ok predicate ↔
      ∃ first others, ofValue key value = .ok first ∧ ofDocument clause = .ok others ∧
        predicate = first.join others := by
  rw [ofDocument]
  cases ofValue key value with
  | error cause => simp
  | ok first =>
      cases ofDocument clause with
      | error cause => simp
      | ok others => simp [eq_comm]

theorem join_empty (predicate : Predicate) : predicate.join {} = predicate := by
  rcases predicate with ⟨conditions, alternatives⟩
  simp [join]

theorem empty_join (predicate : Predicate) : join {} predicate = predicate := by
  rcases predicate with ⟨conditions, _ | alternatives⟩
  · rfl
  · rfl

theorem join_assoc (first second third : Predicate) :
    (first.join second).join third = first.join (second.join third) := by
  rcases third with ⟨conditions, _ | alternatives⟩
  · simp [join]
  · simp [join]

theorem ofDocument_append_eq_ok_iff {left right : Document} {predicate : Predicate} :
    ofDocument (left ++ right) = .ok predicate ↔
      ∃ first second, ofDocument left = .ok first ∧ ofDocument right = .ok second ∧
        predicate = first.join second := by
  induction left generalizing predicate with
  | nil =>
      constructor
      · intro read
        exact ⟨{}, predicate, rfl, read, (empty_join predicate).symm⟩
      · rintro ⟨_, second, ⟨⟩, read, rfl⟩
        rw [empty_join]
        exact read
  | cons entry left induction =>
      rcases entry with ⟨key, value⟩
      rw [List.cons_append, ofDocument_cons_eq_ok_iff]
      constructor
      · rintro ⟨first, others, here, later, rfl⟩
        rcases induction.mp later with ⟨second, third, before, after, rfl⟩
        have joined := ofDocument_cons_eq_ok_iff.mpr ⟨first, second, here, before, rfl⟩
        exact ⟨first.join second, third, joined, after, (join_assoc first second third).symm⟩
      · rintro ⟨first, third, before, after, rfl⟩
        rcases ofDocument_cons_eq_ok_iff.mp before with ⟨first, second, here, later, rfl⟩
        exact ⟨first, second.join third, here, induction.mpr ⟨second, third, later, after, rfl⟩,
          join_assoc first second third⟩

theorem ofDocument_singleton (key : String) (value : Value) :
    ofDocument [(key, value)] = ofValue key value := by
  rw [ofDocument]
  cases ofValue key value with
  | error cause => rfl
  | ok first => exact congrArg Except.ok (join_empty first)

theorem alternatives_of_ofDocument {clause : Document} {predicate : Predicate}
    (read : ofDocument clause = .ok predicate) (absent : orKey ∉ Fields.keys clause) :
    predicate.alternatives = none := by
  induction clause generalizing predicate with
  | nil =>
      cases read
      rfl
  | cons entry clause induction =>
      rcases entry with ⟨key, value⟩
      rw [Fields.keys_cons, List.mem_cons, not_or] at absent
      rcases ofDocument_cons_eq_ok_iff.mp read with ⟨first, others, here, later, rfl⟩
      rcases ofValue_eq_ok_iff.mp here with ⟨same, _⟩ | ⟨_, conditions, _, rfl⟩
      · exact absurd same.symm absent.1
      · rw [join, induction later absent.2]
        rfl

end Predicate

theorem Document.induction_on_alternatives {holds : Document → Prop}
    (step : ∀ clause : Document, (∀ items alternative, (orKey, .array items) ∈ clause →
      .document alternative ∈ items → holds alternative) → holds clause)
    (clause : Document) : holds clause := by
  induction clause using Document.induction_two_levels_below with
  | step clause each =>
      exact step clause fun items alternative member => each (orKey, .array items) member alternative

end DocStore

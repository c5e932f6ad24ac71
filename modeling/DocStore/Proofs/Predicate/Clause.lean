import DocStore.Proofs.Predicate.Evaluation
import DocStore.Proofs.Predicate.Reading

/-!
Where-clauses: which documents are clauses, and which documents meet one. Both are said of the clause
as it stands, without the predicate that is made of it; exactly the clauses are read, and the predicate
read of one is met by the same documents.
-/

namespace DocStore

/-! ## The language -/

inductive IsConstraint : Value → Prop
  | plain {value : Value} (plain : value.document? = none) : IsConstraint value
  | embedded {fields : Document} (names : ∀ field ∈ fields, isOperatorKey field.1 = false) :
      IsConstraint (.document fields)
  | operators {entries : Document}
      (each : ∀ entry ∈ entries, ∃ operator : Operator,
        operator.name = entry.1 ∧ operator.Takes entry.2) :
      IsConstraint (.document entries)

mutual

/-- The documents that are where-clauses. -/
inductive IsClause : Document → Prop
  | intro {clause : Document} (entries : ∀ entry ∈ clause, IsEntry entry.1 entry.2) : IsClause clause

inductive IsEntry : String → Value → Prop
  | alternatives {clauses : List Document} (each : ∀ clause ∈ clauses, IsClause clause) :
      IsEntry orKey (.array (clauses.map .document))
  | field {name : String} {value : Value} (plain : isOperatorKey name = false)
      (constraint : IsConstraint value) : IsEntry name value

end

def HasPattern (found : Option Value) (argument : Value) : Prop :=
  ∃ text pattern, found = some (.string text) ∧ argument = .string pattern ∧
    Like.isMatch pattern text = true

/-- What an operator says of a field, which may be missing. -/
def Operator.Means : Operator → Option Value → Value → Prop
  | .like, found, argument => HasPattern found argument
  | .notLike, found, argument => ¬ HasPattern found argument
  | .gt, found, argument => ∃ value, found = some value ∧ value.compare? argument = some .gt
  | .gte, found, argument => ∃ value, found = some value ∧
      (value.compare? argument = some .gt ∨ value.compare? argument = some .eq)
  | .lt, found, argument => ∃ value, found = some value ∧ value.compare? argument = some .lt
  | .lte, found, argument => ∃ value, found = some value ∧
      (value.compare? argument = some .lt ∨ value.compare? argument = some .eq)
  | .oneOf, found, argument => ∃ value candidates, found = some value ∧
      argument = .array candidates ∧ ∃ candidate ∈ candidates, value.equals candidate = true

mutual

/-- When a document meets a where-clause: if each entry holds of it. -/
inductive Meets (document : Document) : Document → Prop
  | intro {clause : Document} (entries : ∀ entry ∈ clause, EntryHolds document entry.1 entry.2) :
      Meets document clause

inductive EntryHolds (document : Document) : String → Value → Prop
  | alternative {clauses : List Document} {clause : Document} (member : clause ∈ clauses)
      (met : Meets document clause) : EntryHolds document orKey (.array (clauses.map .document))
  | equal {name : String} {value found : Value} (field : isOperatorKey name = false)
      (plain : Predicate.hasOperators value = false) (present : document.get? name = some found)
      (equal : found.equals value = true) : EntryHolds document name value
  | operators {name : String} {entries : Document} (field : isOperatorKey name = false)
      (some : Predicate.hasOperators (.document entries) = true)
      (each : ∀ entry ∈ entries, ∃ operator : Operator,
        operator.name = entry.1 ∧ operator.Means (document.get? name) entry.2) :
      EntryHolds document name (.document entries)

end

namespace Predicate

/-! ## Clauses are read -/

theorem exists_readsAs_iff {field : String} {entry : String × Value} :
    (∃ condition, ReadsAs field entry condition) ↔
      ∃ operator : Operator, operator.name = entry.1 ∧ operator.Takes entry.2 := by
  constructor
  · rintro ⟨_, operator, name, takes, rfl⟩
    exact ⟨operator, name, takes⟩
  · rintro ⟨operator, name, takes⟩
    exact ⟨_, operator, name, takes, rfl⟩

theorem hasOperators_eq_false_iff {fields : Document} :
    hasOperators (.document fields) = false ↔ ∀ field ∈ fields, isOperatorKey field.1 = false := by
  simp only [hasOperators, List.any_eq_false, Bool.not_eq_true]

theorem exists_conditionsOf_iff {field : String} {value : Value} :
    (∃ conditions, conditionsOf field value = .ok conditions) ↔ IsConstraint value := by
  simp only [conditionsOf_eq_ok_iff]
  constructor
  · rintro ⟨conditions, ⟨plain, _⟩ | ⟨entries, rfl, _, reads⟩⟩
    · cases value with
      | document fields => exact .embedded (hasOperators_eq_false_iff.mp plain)
      | _ => exact .plain rfl
    · have each := Outcome.exists_forall₂_iff.mp ⟨conditions, reads⟩
      exact .operators fun entry member => exists_readsAs_iff.mp (each entry member)
  · rintro (plain | names | @⟨entries, each⟩)
    · cases value with
      | document fields => cases plain
      | _ => exact ⟨_, .inl ⟨rfl, rfl⟩⟩
    · exact ⟨_, .inl ⟨hasOperators_eq_false_iff.mpr names, rfl⟩⟩
    · rcases entries with _ | ⟨entry, entries⟩
      · exact ⟨_, .inl ⟨rfl, rfl⟩⟩
      · have readable : ∀ operator ∈ entry :: entries, ∃ condition, ReadsAs field operator condition :=
          fun operator member => exists_readsAs_iff.mpr (each operator member)
        rcases Outcome.exists_forall₂_iff.mpr readable with ⟨conditions, reads⟩
        exact ⟨conditions, .inr ⟨_, rfl, List.cons_ne_nil entry entries, reads⟩⟩

theorem exists_ofValue_iff {key : String} {value : Value}
    (each : ∀ items clause, key = orKey → value = .array items → .document clause ∈ items →
      ((∃ predicate, ofDocument clause = .ok predicate) ↔ IsClause clause)) :
    (∃ predicate, ofValue key value = .ok predicate) ↔ IsEntry key value := by
  simp only [ofValue_eq_ok_iff, ofAlternatives_eq_ok_iff]
  constructor
  · rintro ⟨_, ⟨rfl, _, alternatives, rfl, ⟨clauses, rfl, reads⟩, _⟩ |
      ⟨field, conditions, read, _⟩⟩
    · have readable := Outcome.exists_forall₂_iff.mp ⟨alternatives, reads⟩
      refine .alternatives fun clause member => ?_
      exact (each _ clause rfl rfl (List.mem_map_of_mem member)).mp (readable clause member)
    · exact .field field (exists_conditionsOf_iff.mp ⟨conditions, read⟩)
  · rintro (@⟨clauses, clausal⟩ | ⟨field, constraint⟩)
    · have readable : ∀ clause ∈ clauses, ∃ predicate, ofDocument clause = .ok predicate :=
        fun clause member =>
          (each _ clause rfl rfl (List.mem_map_of_mem member)).mpr (clausal clause member)
      rcases Outcome.exists_forall₂_iff.mpr readable with ⟨alternatives, reads⟩
      exact ⟨_, .inl ⟨rfl, _, alternatives, rfl, ⟨clauses, rfl, reads⟩, rfl⟩⟩
    · rcases exists_conditionsOf_iff.mpr constraint with ⟨conditions, read⟩
      exact ⟨_, .inr ⟨field, conditions, read, rfl⟩⟩

theorem exists_ofDocument_iff_entries {clause : Document} :
    (∃ predicate, ofDocument clause = .ok predicate) ↔
      ∀ entry ∈ clause, ∃ first, ofValue entry.1 entry.2 = .ok first := by
  induction clause with
  | nil => exact ⟨fun _ _ => nofun, fun _ => ⟨{}, rfl⟩⟩
  | cons entry clause induction =>
      rcases entry with ⟨key, value⟩
      simp only [List.forall_mem_cons, ← induction, ofDocument_cons_eq_ok_iff]
      constructor
      · rintro ⟨_, first, others, here, later, rfl⟩
        exact ⟨⟨first, here⟩, ⟨others, later⟩⟩
      · rintro ⟨⟨first, here⟩, ⟨others, later⟩⟩
        exact ⟨_, first, others, here, later, rfl⟩

theorem exists_ofDocument_iff (clause : Document) :
    (∃ predicate, ofDocument clause = .ok predicate) ↔ IsClause clause := by
  induction clause using Document.induction_on_alternatives with
  | step clause each =>
      have entry : ∀ entry ∈ clause,
          ((∃ first, ofValue entry.1 entry.2 = .ok first) ↔ IsEntry entry.1 entry.2) := by
        rintro ⟨key, value⟩ member
        apply exists_ofValue_iff
        rintro items alternative rfl rfl inside
        exact each items alternative member inside
      rw [exists_ofDocument_iff_entries]
      constructor
      · exact fun readable => .intro fun here member => (entry here member).mp (readable here member)
      · rintro ⟨entries⟩ here member
        exact (entry here member).mpr (entries here member)

end Predicate

/-! ## What is read of a clause is met by the documents that meet the clause -/

namespace Operator

theorem likeHolds_iff {found : Option Value} {argument : Value} :
    likeHolds found argument = true ↔ HasPattern found argument := by
  unfold likeHolds
  split
  · next text pattern => simp [HasPattern]
  · next other =>
    simp only [Bool.false_eq_true, false_iff]
    rintro ⟨text, pattern, rfl, rfl, _⟩
    exact other text pattern rfl rfl

theorem oneOfHolds_iff {found : Option Value} {argument : Value} :
    oneOfHolds found argument = true ↔ oneOf.Means found argument := by
  unfold oneOfHolds
  split
  · next value candidates => simp [Means]
  · next other =>
    simp only [Bool.false_eq_true, false_iff]
    rintro ⟨value, candidates, rfl, rfl, _⟩
    exact other value candidates rfl rfl

theorem comparesAs_iff {outcomes : List Ordering} {found : Option Value} {argument : Value} :
    comparesAs outcomes found argument = true ↔
      ∃ value, found = some value ∧ ∃ outcome ∈ outcomes, value.compare? argument = some outcome := by
  cases found with
  | none => simp [comparesAs]
  | some value =>
      cases compared : value.compare? argument with
      | none => simp [comparesAs, compared]
      | some outcome => simp [comparesAs, compared]

theorem holds_iff_means {operator : Operator} {found : Option Value} {argument : Value} :
    operator.holds found argument = true ↔ operator.Means found argument := by
  cases operator with
  | like => exact likeHolds_iff
  | notLike =>
      rw [holds, Bool.not_eq_true', ← Bool.not_eq_true, likeHolds_iff]
      rfl
  | oneOf => exact oneOfHolds_iff
  | _ => simp [holds, Means, comparesAs_iff]

end Operator

namespace Predicate

theorem accepts_conditions {conditions : List (String × Condition)} {document : Document} :
    accepts { conditions } document = allHold conditions document := rfl

theorem accepts_alternatives {alternatives : List Predicate} {document : Document} :
    accepts { alternatives := some alternatives } document = anyAccepts alternatives document := rfl

theorem accepts_join {first others : Predicate} {document : Document}
    (once : first.alternatives = none ∨ others.alternatives = none) :
    (first.join others).accepts document = true ↔
      first.accepts document = true ∧ others.accepts document = true := by
  have conditions : allHold (first.join others).conditions document = true ↔
      allHold first.conditions document = true ∧ allHold others.conditions document = true := by
    rw [← Bool.and_eq_true, allHold, join, List.all_append]
    rfl
  have alternatives : (first.join others).alternatives = (others.alternatives <|> first.alternatives) :=
    rfl
  rw [accepts_iff, accepts_iff, accepts_iff, conditions, alternatives]
  rcases once with none | none
  · cases others.alternatives with
    | none => simp [none]
    | some alternatives => simp [none, and_assoc]
  · simp [none, and_right_comm]

theorem anyAccepts_iff_meets {clauses : List Document} {predicates : List Predicate}
    {document : Document}
    (reads : List.Forall₂ (fun clause predicate => ofDocument clause = .ok predicate) clauses predicates)
    (each : ∀ clause ∈ clauses, ∀ predicate, ofDocument clause = .ok predicate →
      (predicate.accepts document = true ↔ Meets document clause)) :
    anyAccepts predicates document = true ↔ ∃ clause ∈ clauses, Meets document clause := by
  induction reads with
  | nil => simp [anyAccepts]
  | cons here _ induction =>
      have first := each _ List.mem_cons_self _ here
      have others := induction fun clause member => each clause (List.mem_cons_of_mem _ member)
      rw [anyAccepts, Bool.or_eq_true, first, others, List.exists_mem_cons_iff]

theorem allHold_iff_means {field : String} {entries : Document}
    {conditions : List (String × Condition)} {document : Document}
    (reads : List.Forall₂ (ReadsAs field) entries conditions) :
    allHold conditions document = true ↔ ∀ entry ∈ entries, ∃ operator : Operator,
      operator.name = entry.1 ∧ operator.Means (document.get? field) entry.2 := by
  induction reads with
  | nil => simp [allHold]
  | @cons entry condition entries conditions here _ induction =>
      have first : condition.2.holds (document.get? condition.1) = true ↔ ∃ operator : Operator,
          operator.name = entry.1 ∧ operator.Means (document.get? field) entry.2 := by
        rcases here with ⟨operator, name, _, rfl⟩
        constructor
        · intro holds
          exact ⟨operator, name, Operator.holds_iff_means.mp holds⟩
        · rintro ⟨other, same, means⟩
          cases Operator.name_injective (same.trans name.symm)
          exact Operator.holds_iff_means.mpr means
      rw [allHold_iff] at induction ⊢
      rw [List.forall_mem_cons, List.forall_mem_cons, first, induction]

theorem entryHolds_alternatives_iff {document : Document} {clauses : List Document} :
    EntryHolds document orKey (.array (clauses.map .document)) ↔
      ∃ clause ∈ clauses, Meets document clause := by
  constructor
  · intro holds
    generalize key : orKey = name, same : Value.array (clauses.map .document) = value at holds
    cases holds with
    | alternative member met =>
        cases List.map_injective_iff.mpr (fun _ _ => Value.document.inj) (Value.array.inj same)
        exact ⟨_, member, met⟩
    | equal field | operators field => cases isOperatorKey_orKey.symm.trans (key ▸ field)
  · rintro ⟨clause, member, met⟩
    exact .alternative member met

theorem equal_holds_iff {value : Value} {found : Option Value} :
    (Condition.equal value).holds found = true ↔
      ∃ present, found = some present ∧ present.equals value = true := by
  cases found with
  | none => simp [Condition.holds]
  | some present => simp [Condition.holds]

theorem accepts_ofValue_iff {key : String} {value : Value} {first : Predicate} {document : Document}
    (read : ofValue key value = .ok first)
    (each : ∀ items clause predicate, key = orKey → value = .array items → .document clause ∈ items →
      ofDocument clause = .ok predicate →
        (predicate.accepts document = true ↔ Meets document clause)) :
    first.accepts document = true ↔ EntryHolds document key value := by
  rcases ofValue_eq_ok_iff.mp read with
    ⟨rfl, _, alternatives, rfl, reads, rfl⟩ | ⟨field, conditions, reads, rfl⟩
  · rcases ofAlternatives_eq_ok_iff.mp reads with ⟨clauses, rfl, all⟩
    rw [accepts_alternatives, entryHolds_alternatives_iff]
    exact anyAccepts_iff_meets all fun clause member predicate =>
      each _ clause predicate rfl rfl (List.mem_map_of_mem member)
  · rw [accepts_conditions]
    rcases conditionsOf_eq_ok_iff.mp reads with ⟨plain, rfl⟩ | ⟨entries, rfl, nonempty, reads⟩
    · have single : allHold [(key, .equal value)] document = true ↔
          ∃ present, document.get? key = some present ∧ present.equals value = true := by
        rw [← equal_holds_iff, allHold, List.all_cons, List.all_nil, Bool.and_true]
      rw [single]
      constructor
      · rintro ⟨found, present, equal⟩
        exact .equal field plain present equal
      · rintro (_ | ⟨_, _, present, equal⟩ | ⟨_, some, _⟩)
        · cases field
        · exact ⟨_, present, equal⟩
        · cases plain.symm.trans some
    · rw [allHold_iff_means reads]
      have some := hasOperators_of_reads nonempty reads
      constructor
      · exact .operators field some
      · rintro (_ | ⟨_, plain, _⟩ | ⟨_, _, each⟩)
        · cases plain.symm.trans some
        · exact each

theorem accepts_ofDocument_iff {clause : Document} {predicate : Predicate} {document : Document}
    (distinct : (Fields.keys clause).Nodup) (read : ofDocument clause = .ok predicate) :
    predicate.accepts document = true ↔
      ∀ entry ∈ clause, ∃ first, ofValue entry.1 entry.2 = .ok first ∧
        first.accepts document = true := by
  induction clause generalizing predicate with
  | nil =>
      cases read
      simp [accepts, allHold]
  | cons entry clause induction =>
      rcases entry with ⟨key, value⟩
      rw [Fields.keys_cons, List.nodup_cons] at distinct
      rcases ofDocument_cons_eq_ok_iff.mp read with ⟨first, others, here, later, rfl⟩
      -- A second key of the alternatives would replace the first one.
      have once : first.alternatives = none ∨ others.alternatives = none := by
        rcases ofValue_eq_ok_iff.mp here with ⟨rfl, _⟩ | ⟨_, _, _, rfl⟩
        · exact .inr (alternatives_of_ofDocument later distinct.1)
        · exact .inl rfl
      rw [accepts_join once, induction distinct.2 later, List.forall_mem_cons]
      simp [here]

theorem accepts_iff_meets {clause : Document} {predicate : Predicate} {document : Document}
    (proper : clause.IsProper) (read : ofDocument clause = .ok predicate) :
    predicate.accepts document = true ↔ Meets document clause := by
  induction clause using Document.induction_on_alternatives generalizing predicate with
  | step clause each =>
      rw [Document.isProper_iff] at proper
      have entry : ∀ entry ∈ clause, ∀ first, ofValue entry.1 entry.2 = .ok first →
          (first.accepts document = true ↔ EntryHolds document entry.1 entry.2) := by
        rintro ⟨key, value⟩ member first here
        apply accepts_ofValue_iff here
        rintro items alternative predicate rfl rfl inside
        have below := (Value.everywhere_array_iff.mp (proper.2 _ member)).2 _ inside
        exact each items alternative member inside below
      rw [accepts_ofDocument_iff proper.1 read]
      constructor
      · intro holds
        refine .intro fun here member => ?_
        rcases holds here member with ⟨first, reads, accepts⟩
        exact (entry here member first reads).mp accepts
      · rintro ⟨entries⟩ here member
        rcases exists_ofDocument_iff_entries.mp ⟨predicate, read⟩ here member with ⟨first, reads⟩
        exact ⟨first, reads, (entry here member first reads).mpr (entries here member)⟩

/-- Exactly the where-clauses are read, and everything else is an invalid query. A predicate that is
read of a clause, in which documents name each field once, is evaluated unless a pattern in it is too
large, and then exactly the documents that meet the clause are said to meet it. -/
theorem clauses_read_and_evaluated (clause : Document) :
    ((∃ predicate, ofDocument clause = .ok predicate) ↔ IsClause clause) ∧
      (¬ IsClause clause → ∃ cause,
        (ofDocument clause).mapError StoreError.invalidQuery = .error (.invalidQuery cause)) ∧
      ∀ predicate, ofDocument clause = .ok predicate → clause.IsProper →
        (∀ pattern ∈ predicate.patterns, Like.isCompilable pattern = true) →
        ∀ document, ∃ met, predicate.evaluate document = .ok met ∧
          (met = true ↔ Meets document clause) := by
  refine ⟨exists_ofDocument_iff clause, ?_, ?_⟩
  · intro other
    cases read : ofDocument clause with
    | ok predicate => exact absurd ((exists_ofDocument_iff clause).mp ⟨predicate, read⟩) other
    | error cause => exact ⟨cause, rfl⟩
  · intro predicate read proper compilable document
    exact ⟨_, evaluate_eq_ok_iff.mpr ⟨compilable, rfl⟩, accepts_iff_meets proper read⟩

private def membersClause : Document :=
  [("name", .document [("$like", .string "a%e"), ("$notLike", .string "x")]),
    (orKey, .array [.document [("age", .document [("$gte", .int32 18), ("$lt", .int64 65)])],
      .document [("age", .null)]]),
    ("tag", .document [])]

private def membersPredicate : Predicate where
  conditions := [("name", .compare .like (.string "a%e")), ("name", .compare .notLike (.string "x")),
    ("tag", .equal (.document []))]
  alternatives := some [
    { conditions := [("age", .compare .gte (.int32 18)), ("age", .compare .lt (.int64 65))] },
    { conditions := [("age", .equal .null)] }]

theorem members_clause_read_and_evaluated :
    ofDocument membersClause = .ok membersPredicate ∧ Document.IsProper membersClause ∧
      (∀ pattern ∈ membersPredicate.patterns, Like.isCompilable pattern = true) ∧
      ∀ document, ∃ met, membersPredicate.evaluate document = .ok met ∧
        (met = true ↔ Meets document membersClause) := by
  have read : ofDocument membersClause = .ok membersPredicate := by with_unfolding_all rfl
  have proper : Document.IsProper membersClause := by decide +kernel
  have compilable : ∀ pattern ∈ membersPredicate.patterns, Like.isCompilable pattern = true := by
    decide +kernel
  exact ⟨read, proper, compilable,
    (clauses_read_and_evaluated membersClause).2.2 membersPredicate read proper compilable⟩

end Predicate

end DocStore

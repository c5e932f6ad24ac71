import DocStore.Proofs.Outcome
import DocStore.Proofs.Predicate.Evaluation
import DocStore.Proofs.Value.Order
import DocStore.Query.Sorting

/-!
Equal values in queries. A predicate cannot tell equal documents apart, its arguments can be replaced by
equal ones, and documents with equal keys are sorted alike.
-/

namespace DocStore

/-! ## Operators and conditions -/

namespace Operator

variable {found other : Option Value} {argument replacement : Value}

theorem likeHolds_of_alike (same : Option.Rel Value.Alike found other)
    (alike : argument.Alike replacement) (holds : likeHolds found argument = true) :
    likeHolds other replacement = true := by
  unfold likeHolds at holds
  split at holds
  · cases same with
    | some here => rw [here.eq_string, alike.eq_string, likeHolds, holds]
  · cases holds

theorem oneOfHolds_of_alike (same : Option.Rel Value.Alike found other)
    (alike : argument.Alike replacement) (holds : oneOfHolds found argument = true) :
    oneOfHolds other replacement = true := by
  unfold oneOfHolds at holds
  split at holds
  · rcases alike.exists_eq_array with ⟨others, rfl, each⟩
    rcases List.any_eq_true.mp holds with ⟨candidate, member, equal⟩
    rcases Outcome.exists_mem_of_forall₂ each member with ⟨another, present, candidates⟩
    cases same with
    | some here =>
        exact List.any_eq_true.mpr ⟨another, present, here.equals_of_equals candidates equal⟩
  · cases holds

theorem comparesAs_eq (same : Option.Rel Value.Alike found other) (alike : argument.Alike replacement)
    (outcomes : List Ordering) :
    comparesAs outcomes found argument = comparesAs outcomes other replacement := by
  cases same with
  | none => rfl
  | some here => rw [comparesAs, comparesAs, here.compare?_eq alike]

theorem holds_eq_of_alike (operator : Operator) (same : Option.Rel Value.Alike found other)
    (alike : argument.Alike replacement) :
    operator.holds found argument = operator.holds other replacement := by
  have reversed : Option.Rel Value.Alike other found := by
    cases same with
    | none => exact .none
    | some here => exact .some here.symm
  have like : likeHolds found argument = likeHolds other replacement :=
    Bool.eq_iff_iff.mpr
      ⟨likeHolds_of_alike same alike, likeHolds_of_alike reversed alike.symm⟩
  cases operator with
  | like => exact like
  | notLike => exact congrArg not like
  | oneOf =>
      exact Bool.eq_iff_iff.mpr
        ⟨oneOfHolds_of_alike same alike, oneOfHolds_of_alike reversed alike.symm⟩
  | gt | gte | lt | lte => exact comparesAs_eq same alike _

end Operator

namespace Condition

inductive Alike : Condition → Condition → Prop
  | equal {value other : Value} (alike : value.Alike other) : Alike (.equal value) (.equal other)
  | compare (operator : Operator) {argument replacement : Value} (alike : argument.Alike replacement) :
      Alike (.compare operator argument) (.compare operator replacement)

variable {condition replaced : Condition}

theorem Alike.symm (alike : Alike condition replaced) : Alike replaced condition := by
  cases alike with
  | equal alike => exact .equal alike.symm
  | compare operator alike => exact .compare operator alike.symm

theorem Alike.refl (condition : Condition) : Alike condition condition := by
  cases condition with
  | equal value => exact .equal (.inl rfl)
  | compare operator argument => exact .compare operator (.inl rfl)

theorem Alike.holds_eq (alike : Alike condition replaced) {found other : Option Value}
    (same : Option.Rel Value.Alike found other) : condition.holds found = replaced.holds other := by
  cases alike with
  | equal alike =>
      cases same with
      | none => rfl
      | some here => exact here.equals_eq alike
  | compare operator alike => exact operator.holds_eq_of_alike same alike

theorem Alike.pattern?_of_some (alike : Alike condition replaced) {pattern : String}
    (found : condition.pattern? = some pattern) : replaced.pattern? = some pattern := by
  unfold pattern? at found
  split at found
  · cases alike with
    | compare _ argument => rw [argument.eq_string]; exact found
  · cases alike with
    | compare _ argument => rw [argument.eq_string]; exact found
  · cases found

theorem Alike.pattern?_eq (alike : Alike condition replaced) : condition.pattern? = replaced.pattern? :=
  Option.ext fun _ => ⟨alike.pattern?_of_some, alike.symm.pattern?_of_some⟩

end Condition

/-! ## Predicates -/

namespace Predicate

def AlikeConditions (conditions others : List (String × Condition)) : Prop :=
  List.Forall₂ (fun left right => left.1 = right.1 ∧ left.2.Alike right.2) conditions others

/-- Predicates that differ in arguments alone, at any depth, and there only in equal ones. -/
inductive Alike : Predicate → Predicate → Prop
  | plain {conditions others : List (String × Condition)} (own : AlikeConditions conditions others) :
      Alike { conditions } { conditions := others }
  | alternatives {conditions others : List (String × Condition)}
      {alternatives replacements : List Predicate} (own : AlikeConditions conditions others)
      (length : alternatives.length = replacements.length)
      (each : ∀ pair ∈ alternatives.zip replacements, Alike pair.1 pair.2) :
      Alike ⟨conditions, some alternatives⟩ ⟨others, some replacements⟩

variable {left right : Document}

theorem AlikeConditions.allHold_eq {conditions others : List (String × Condition)}
    (alike : AlikeConditions conditions others)
    (same : ∀ key, Option.Rel Value.Alike (left.get? key) (right.get? key)) :
    allHold conditions left = allHold others right := by
  induction alike with
  | nil => rfl
  | @cons condition other _ _ here _ induction =>
      have first := here.2.holds_eq (same condition.1)
      rw [here.1] at first
      simp only [allHold, List.all_cons] at induction ⊢
      rw [induction, here.1, first]

theorem AlikeConditions.conditionPatterns_eq {conditions others : List (String × Condition)}
    (alike : AlikeConditions conditions others) :
    conditionPatterns conditions = conditionPatterns others := by
  induction alike with
  | nil => rfl
  | @cons condition other conditions others here _ induction =>
      have first : condition.2.pattern? = other.2.pattern? := here.2.pattern?_eq
      change conditions.filterMap (·.2.pattern?) = others.filterMap (·.2.pattern?) at induction
      change (condition :: conditions).filterMap (·.2.pattern?) =
        (other :: others).filterMap (·.2.pattern?)
      rw [List.filterMap_cons, List.filterMap_cons, induction, first]

theorem anyAccepts_and_alternativePatterns_eq {alternatives replacements : List Predicate}
    (all : List.Forall₂ (fun predicate replaced : Predicate =>
      predicate.accepts left = replaced.accepts right ∧ predicate.patterns = replaced.patterns)
      alternatives replacements) :
    anyAccepts alternatives left = anyAccepts replacements right ∧
      alternativePatterns alternatives = alternativePatterns replacements := by
  induction all with
  | nil => exact ⟨rfl, rfl⟩
  | cons here _ induction =>
      rw [anyAccepts, anyAccepts, alternativePatterns, alternativePatterns, here.1, here.2,
        induction.1, induction.2]
      exact ⟨rfl, rfl⟩

theorem Alike.accepts_and_patterns_eq {predicate replaced : Predicate} (alike : Alike predicate replaced)
    (same : ∀ key, Option.Rel Value.Alike (left.get? key) (right.get? key)) :
    predicate.accepts left = replaced.accepts right ∧ predicate.patterns = replaced.patterns := by
  induction alike with
  | plain own => exact ⟨own.allHold_eq same, own.conditionPatterns_eq⟩
  | alternatives own length _ induction =>
      have each := anyAccepts_and_alternativePatterns_eq
        (List.forall₂_iff_zip.mpr ⟨length, fun member => induction _ member⟩)
      rw [accepts, accepts, patterns, patterns, own.allHold_eq same, own.conditionPatterns_eq, each.1,
        each.2]
      exact ⟨rfl, rfl⟩

theorem Alike.evaluate_eq {predicate replaced : Predicate} (alike : Alike predicate replaced)
    (same : ∀ key, Option.Rel Value.Alike (left.get? key) (right.get? key)) :
    predicate.evaluate left = replaced.evaluate right := by
  rcases alike.accepts_and_patterns_eq same with ⟨accepts, patterns⟩
  rw [evaluate, evaluate, checkPatterns, checkPatterns, accepts, patterns]

theorem Alike.refl (predicate : Predicate) : Alike predicate predicate := by
  have own (conditions : List (String × Condition)) : AlikeConditions conditions conditions :=
    List.forall₂_same.mpr fun condition _ => ⟨rfl, .refl condition.2⟩
  induction predicate using induction_on_parts with
  | plain conditions => exact .plain (own conditions)
  | alternatives conditions alternatives each =>
      refine .alternatives (own conditions) rfl fun pair member => ?_
      exact (List.forall₂_iff_zip.mp (List.forall₂_same.mpr each)).2 member

end Predicate

theorem rel_alike_of_equals {left right : Document}
    (equal : (Value.document left).equals (.document right) = true) (key : String) :
    Option.Rel Value.Alike (left.get? key) (right.get? key) := by
  have here := Value.agrees_document_iff.mp equal key
  generalize left.get? key = found, right.get? key = other at here ⊢
  cases here with
  | none => exact .none
  | some same => exact .some (.inr same)

theorem rel_alike_refl (found : Option Value) : Option.Rel Value.Alike found found := by
  cases found with
  | none => exact .none
  | some value => exact .some (.inl rfl)

/-! ## Sorting -/

namespace OrderBy

variable {order : OrderBy}

theorem compare_eq_of_alike {left other right another : Document}
    (first : (order.key left).Alike (order.key other))
    (second : (order.key right).Alike (order.key another)) :
    order.compare left right = order.compare other another := by
  unfold compare
  cases order.direction with
  | ascending => exact first.sortCompare_eq second
  | descending => exact second.sortCompare_eq first

def mayPrecede (order : OrderBy) (documents : List Document) (first second : Nat) : Bool :=
  order.compare (documents.getD first []) (documents.getD second []) != .gt

/-- The positions of documents in the order in which sorting puts them. -/
def sortedPositions (order : OrderBy) (documents : List Document) : List Nat :=
  (List.range documents.length).mergeSort (order.mayPrecede documents)

theorem sortedPositions_perm (order : OrderBy) (documents : List Document) :
    (order.sortedPositions documents).Perm (List.range documents.length) :=
  List.mergeSort_perm _ _

theorem map_some_sort (order : OrderBy) (documents : List Document) :
    (order.sort documents).map some = (order.sortedPositions documents).map (documents[·]?) := by
  have places : (List.range documents.length).map (documents[·]?) = documents.map some :=
    List.ext_getElem (by simp) (by simp)
  have sorted : (order.sort documents).map some = (documents.map some).mergeSort
      fun left right => order.compare (left.getD []) (right.getD []) != .gt :=
    List.map_mergeSort fun _ _ _ _ => rfl
  rw [sorted, ← places]
  refine (List.map_mergeSort fun first _ second _ => ?_).symm
  rw [mayPrecede, List.getD_eq_getElem?_getD, List.getD_eq_getElem?_getD]

theorem sortedPositions_eq {lefts rights : List Document}
    (same : List.Forall₂ (fun left right => (order.key left).equals (order.key right) = true)
      lefts rights) : order.sortedPositions lefts = order.sortedPositions rights := by
  have alike (position : Nat) (within : position < lefts.length) :
      (order.key (lefts.getD position [])).Alike (order.key (rights.getD position [])) := by
    have within' : position < rights.length := same.length_eq ▸ within
    simp only [List.getD_eq_getElem?_getD, List.getElem?_eq_getElem within,
      List.getElem?_eq_getElem within']
    exact .inr (same.get within within')
  have precede : ∀ first ∈ List.range lefts.length, ∀ second ∈ List.range lefts.length,
      order.mayPrecede lefts first second = order.mayPrecede rights (id first) (id second) := by
    intro first isFirst second isSecond
    rw [List.mem_range] at isFirst isSecond
    rw [mayPrecede, compare_eq_of_alike (alike first isFirst) (alike second isSecond)]
    rfl
  have sorted := List.map_mergeSort precede
  rw [List.map_id, List.map_id] at sorted
  rw [sortedPositions, sortedPositions, sorted, same.length_eq]

theorem exists_positions_of_sort {lefts rights : List Document}
    (same : List.Forall₂ (fun left right => (order.key left).equals (order.key right) = true)
      lefts rights) :
    ∃ positions : List Nat, positions.Perm (List.range lefts.length) ∧
      (order.sort lefts).map some = positions.map (lefts[·]?) ∧
      (order.sort rights).map some = positions.map (rights[·]?) := by
  refine ⟨order.sortedPositions lefts, order.sortedPositions_perm lefts, order.map_some_sort lefts, ?_⟩
  rw [sortedPositions_eq same]
  exact order.map_some_sort rights

end OrderBy

/-- Equal values cannot be told apart by queries. Equal documents meet the same predicates, arguments can
be replaced by equal ones at any depth, and documents with equal keys are put into the same order, in
either direction. -/
theorem queries_respect_equality :
    (∀ left right : Document, (Value.document left).equals (.document right) = true →
      ∀ predicate : Predicate, predicate.evaluate left = predicate.evaluate right) ∧
    (∀ predicate replaced : Predicate, predicate.Alike replaced →
      ∀ document, predicate.evaluate document = replaced.evaluate document) ∧
    ∀ (order : OrderBy) (lefts rights : List Document),
      List.Forall₂ (fun left right => (order.key left).equals (order.key right) = true) lefts rights →
      ∃ positions : List Nat, positions.Perm (List.range lefts.length) ∧
        (order.sort lefts).map some = positions.map (lefts[·]?) ∧
        (order.sort rights).map some = positions.map (rights[·]?) := by
  refine ⟨?_, ?_, ?_⟩
  · intro left right equal predicate
    exact (Predicate.Alike.refl predicate).evaluate_eq (rel_alike_of_equals equal)
  · intro predicate replaced alike document
    exact alike.evaluate_eq fun key => rel_alike_refl (document.get? key)
  · exact fun order lefts rights same => OrderBy.exists_positions_of_sort same

private def doubleOne : Double :=
  ⟨4607182418800017408⟩

private def pupil : Document :=
  [("age", .int32 1), ("marks", .array [.int64 1, .document [("best", .int32 1)]])]

private def samePupil : Document :=
  [("marks", .array [.double doubleOne, .document [("best", .int64 1)]]), ("age", .double doubleOne)]

private def adults (bound best : Value) : Predicate where
  conditions := [("age", .compare .gte bound)]
  alternatives := some [{ conditions := [("marks", .compare .oneOf (.array [.null, best]))] }]

theorem queries_respect_equality_of_pupils :
    ((Value.document pupil).equals (.document samePupil) = true ∧
        ∀ predicate : Predicate, predicate.evaluate pupil = predicate.evaluate samePupil) ∧
      ((adults (.int32 1) (.int64 1)).Alike (adults (.double doubleOne) (.double doubleOne)) ∧
        ∀ document, (adults (.int32 1) (.int64 1)).evaluate document =
          (adults (.double doubleOne) (.double doubleOne)).evaluate document) ∧
      ∃ positions : List Nat, positions.Perm (List.range 3) ∧
        (OrderBy.sort ⟨"age", .descending⟩ [[], pupil, [("age", .null)]]).map some =
          positions.map ([[], pupil, [("age", .null)]][·]?) ∧
        (OrderBy.sort ⟨"age", .descending⟩ [[("age", .null)], samePupil, []]).map some =
          positions.map ([[("age", .null)], samePupil, []][·]?) := by
  have equal : (Value.document pupil).equals (.document samePupil) = true := by decide +kernel
  have first : (Value.int32 1).equals (.double doubleOne) = true := by decide +kernel
  have candidates :
      (Value.array [.null, .int64 1]).equals (.array [.null, .double doubleOne]) = true := by
    decide +kernel
  have alike :
      (adults (.int32 1) (.int64 1)).Alike (adults (.double doubleOne) (.double doubleOne)) := by
    refine .alternatives (.cons ⟨rfl, .compare .gte (.inr first)⟩ .nil) rfl fun pair member => ?_
    rw [List.mem_singleton.mp member]
    exact .plain (.cons ⟨rfl, .compare .oneOf (.inr candidates)⟩ .nil)
  have keys : List.Forall₂ (fun left right =>
      (OrderBy.key ⟨"age", .descending⟩ left).equals (OrderBy.key ⟨"age", .descending⟩ right) = true)
      [[], pupil, [("age", .null)]] [[("age", .null)], samePupil, []] :=
    .cons (by decide +kernel) (.cons (by decide +kernel) (.cons (by decide +kernel) .nil))
  exact ⟨⟨equal, queries_respect_equality.1 pupil samePupil equal⟩,
    ⟨alike, queries_respect_equality.2.1 _ _ alike⟩, queries_respect_equality.2.2 _ _ _ keys⟩

end DocStore

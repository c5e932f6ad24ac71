import DocStore.Predicate.Printer
import DocStore.Proofs.Predicate.Evaluation
import DocStore.Proofs.Predicate.Reading
import Mathlib.Data.List.Induction

/-!
Canonical documents read again. A predicate that was read is read of its canonical document as it is;
any other predicate that a document can express is read with the conditions of each field together.
-/

namespace DocStore.Predicate

/-! ## One more condition -/

theorem addOperator_fresh {document : Document} {field : String}
    (fresh : field ∉ Fields.keys document) (operator : Operator) (argument : Value) :
    addOperator document field operator argument =
      document ++ [(field, .document [(operator.name, argument)])] := by
  rw [addOperator, Fields.get?_eq_none fresh, Fields.insert_of_not_mem fresh]
  rfl

theorem addOperator_gathered {before entries after : Document} {field : String}
    (absent : field ∉ Fields.keys before) (operators : ∀ entry ∈ entries, isOperatorKey entry.1 = true)
    {operator : Operator} (fresh : operator.name ∉ Fields.keys entries) (argument : Value) :
    addOperator (before ++ (field, .document entries) :: after) field operator argument =
      before ++ (field, .document (entries ++ [(operator.name, argument)])) :: after := by
  have gathered : entries.all (isOperatorKey ·.1) = true := List.all_eq_true.mpr operators
  rw [addOperator, Fields.get?_append_cons absent]
  dsimp only
  rw [if_pos gathered, Fields.insert_append_cons absent, Fields.insert_of_not_mem fresh]

/-! ## Alternatives -/

theorem toValues_eq_map (predicates : List Predicate) :
    toValues predicates = (predicates.map toDocument).map .document := by
  induction predicates with
  | nil => rfl
  | cons predicate predicates induction => rw [toValues, induction, List.map_cons, List.map_cons]

theorem ofDocument_toDocument_alternatives {conditions read : List (String × Condition)}
    {alternatives others : List Predicate}
    (own : ofDocument (conditions.foldl addCondition []) = .ok { conditions := read })
    (absent : orKey ∉ Fields.keys (conditions.foldl addCondition []))
    (each : List.Forall₂ (fun alternative other => ofDocument alternative.toDocument = .ok other)
      alternatives others) :
    ofDocument (toDocument ⟨conditions, some alternatives⟩) = .ok ⟨read, some others⟩ := by
  have values : ofAlternatives (toValues alternatives) = .ok others :=
    ofAlternatives_eq_ok_iff.mpr ⟨_, toValues_eq_map alternatives, List.forall₂_map_left_iff.mpr each⟩
  have last : ofDocument [(orKey, .array (toValues alternatives))] =
      .ok { alternatives := some others } := by
    rw [ofDocument_singleton]
    exact ofValue_eq_ok_iff.mpr (.inl ⟨rfl, _, others, rfl, values, rfl⟩)
  rw [toDocument, Fields.insert_of_not_mem absent]
  refine ofDocument_append_eq_ok_iff.mpr ⟨_, _, own, last, ?_⟩
  simp [join]

/-! ## Predicates that were read -/

theorem foldl_addCondition_operators {document gathered entries : Document} {field : String}
    {conditions : List (String × Condition)} (fresh : field ∉ Fields.keys document)
    (operators : ∀ entry ∈ gathered, isOperatorKey entry.1 = true)
    (distinct : (Fields.keys (gathered ++ entries)).Nodup)
    (reads : List.Forall₂ (ReadsAs field) entries conditions) :
    conditions.foldl addCondition (document ++ [(field, .document gathered)]) =
      document ++ [(field, .document (gathered ++ entries))] := by
  induction reads generalizing gathered with
  | nil => simp
  | @cons entry condition entries conditions here _ induction =>
      rcases entry with ⟨name, argument⟩
      rcases here with ⟨operator, rfl, _, rfl⟩
      have apart : operator.name ∉ Fields.keys gathered := by
        rw [Fields.keys, List.map_append, List.nodup_append] at distinct
        intro member
        exact distinct.2.2 _ member _ List.mem_cons_self rfl
      have longer : ∀ entry ∈ gathered ++ [(operator.name, argument)],
          isOperatorKey entry.1 = true := by
        intro entry member
        rcases List.mem_append.mp member with before | last
        · exact operators entry before
        · rw [List.mem_singleton.mp last]
          exact operator.isOperatorKey_name
      rw [List.append_cons] at distinct
      rw [List.foldl_cons, addCondition, addOperator_gathered fresh operators apart,
        induction longer distinct, List.append_assoc]
      rfl

theorem foldl_addCondition_conditionsOf {document : Document} {field : String} {value : Value}
    {conditions : List (String × Condition)} (fresh : field ∉ Fields.keys document)
    (distinct : value.namesOnce = true) (read : conditionsOf field value = .ok conditions) :
    conditions.foldl addCondition document = document ++ [(field, value)] := by
  rcases conditionsOf_eq_ok_iff.mp read with ⟨_, rfl⟩ | ⟨entries, rfl, nonempty, reads⟩
  · exact Fields.insert_of_not_mem fresh value
  · cases reads with
    | nil => exact absurd rfl nonempty
    | @cons entry _ entries _ here later =>
        rcases entry with ⟨name, argument⟩
        rcases here with ⟨operator, rfl, _, rfl⟩
        rw [List.foldl_cons, addCondition, addOperator_fresh fresh]
        refine foldl_addCondition_operators fresh ?_ (decide_eq_true_iff.mp distinct) later
        intro entry member
        rw [List.mem_singleton.mp member]
        exact operator.isOperatorKey_name

theorem foldl_addCondition_of_read {document fields : Document} {predicate : Predicate}
    (read : ofDocument fields = .ok predicate) (absent : orKey ∉ Fields.keys fields)
    (distinct : (Fields.keys document ++ Fields.keys fields).Nodup)
    (once : ∀ field ∈ fields, field.2.namesOnce = true) :
    predicate.conditions.foldl addCondition document = document ++ fields := by
  induction fields generalizing document predicate with
  | nil =>
      cases read
      simp
  | cons field fields induction =>
      rcases field with ⟨key, value⟩
      rw [Fields.keys_cons, List.mem_cons, not_or] at absent
      rcases ofDocument_cons_eq_ok_iff.mp read with ⟨first, others, here, later, rfl⟩
      rcases ofValue_eq_ok_iff.mp here with ⟨same, _⟩ | ⟨_, conditions, own, rfl⟩
      · exact absurd same.symm absent.1
      have fresh : key ∉ Fields.keys document := by
        intro member
        exact (List.nodup_append.mp distinct).2.2 key member key List.mem_cons_self rfl
      have moved : Fields.keys (document ++ [(key, value)]) ++ Fields.keys fields =
          Fields.keys document ++ Fields.keys ((key, value) :: fields) := by
        simp [Fields.keys]
      have rest := induction later absent.2 (moved ▸ distinct) fun field member =>
        once field (List.mem_cons_of_mem _ member)
      rw [join, List.foldl_append,
        foldl_addCondition_conditionsOf fresh (once _ List.mem_cons_self) own, rest, List.append_assoc]
      rfl

theorem ofDocument_erase_orKey {clause : Document} {predicate : Predicate}
    (read : ofDocument clause = .ok predicate) :
    ofDocument (Fields.erase clause orKey) = .ok { conditions := predicate.conditions } := by
  induction clause generalizing predicate with
  | nil =>
      cases read
      rfl
  | cons entry clause induction =>
      rcases entry with ⟨key, value⟩
      rcases ofDocument_cons_eq_ok_iff.mp read with ⟨first, others, here, later, rfl⟩
      have rest := induction later
      rcases ofValue_eq_ok_iff.mp here with ⟨rfl, _, _, _, _, rfl⟩ | ⟨field, conditions, _, rfl⟩
      · rw [Fields.erase, List.filter_cons_of_neg (by simp)]
        exact rest
      · have kept : (key != orKey) = true := by
          rw [bne_iff_ne]
          rintro rfl
          cases isOperatorKey_orKey.symm.trans field
        rw [Fields.erase, List.filter_cons, if_pos kept]
        exact ofDocument_cons_eq_ok_iff.mpr ⟨_, _, here, rest, rfl⟩

theorem exists_alternatives_of_ofDocument {clause : Document} {predicate : Predicate}
    {alternatives : List Predicate} (read : ofDocument clause = .ok predicate)
    (given : predicate.alternatives = some alternatives) :
    ∃ items, (orKey, .array items) ∈ clause ∧ ofAlternatives items = .ok alternatives := by
  induction clause generalizing predicate with
  | nil =>
      cases read
      cases given
  | cons entry clause induction =>
      rcases entry with ⟨key, value⟩
      rcases ofDocument_cons_eq_ok_iff.mp read with ⟨first, others, here, later, rfl⟩
      cases rest : others.alternatives with
      | some _ =>
          rw [join, rest] at given
          cases given
          rcases induction later rest with ⟨items, member, values⟩
          exact ⟨items, List.mem_cons_of_mem _ member, values⟩
      | none =>
          rw [join, rest] at given
          rcases ofValue_eq_ok_iff.mp here with
            ⟨rfl, items, _, rfl, values, rfl⟩ | ⟨_, _, _, rfl⟩
          · cases given
            exact ⟨items, List.mem_cons_self, values⟩
          · cases given

theorem ofDocument_toDocument_of_read {clause : Document} {predicate : Predicate}
    (proper : clause.IsProper) (read : ofDocument clause = .ok predicate) :
    ofDocument predicate.toDocument = .ok predicate := by
  induction clause using Document.induction_on_alternatives generalizing predicate with
  | step clause each =>
      -- Rendering the conditions gives the clause without its alternatives, wherever these stood.
      have sublist : (Fields.erase clause orKey).Sublist clause := List.filter_sublist
      have kept := Document.isProper_iff.mp (Document.isProper_of_sublist sublist proper)
      have own := ofDocument_erase_orKey read
      have absent : orKey ∉ Fields.keys (Fields.erase clause orKey) := by
        simp [Fields.keys, Fields.erase]
      have document : predicate.conditions.foldl addCondition [] = Fields.erase clause orKey :=
        @foldl_addCondition_of_read [] _ { conditions := predicate.conditions } own absent kept.1
          fun field member => Value.of_everywhere (kept.2 field member)
      rcases predicate with ⟨conditions, _ | alternatives⟩
      · rw [toDocument, document]
        exact own
      · rcases exists_alternatives_of_ofDocument read rfl with ⟨items, member, values⟩
        rcases ofAlternatives_eq_ok_iff.mp values with ⟨clauses, rfl, reads⟩
        have within := Value.everywhere_array_iff.mp ((Document.isProper_iff.mp proper).2 _ member)
        rw [← document] at own absent
        refine ofDocument_toDocument_alternatives own absent (List.forall₂_same.mpr ?_)
        intro alternative chosen
        rcases Outcome.exists_mem_of_forall₂ reads.flip chosen with ⟨origin, present, parsed⟩
        have inside : .document origin ∈ clauses.map Value.document := List.mem_map_of_mem present
        exact each _ origin member inside (within.2 _ inside) parsed

/-! ## Predicates that a document can express -/

/-- Two conditions that can stand in one clause: on one field only different operators can. -/
def Coexist (first second : String × Condition) : Prop :=
  first.1 = second.1 → ∃ operator argument other otherArgument,
    first.2 = .compare operator argument ∧ second.2 = .compare other otherArgument ∧ operator ≠ other

inductive IsExpressible : Condition → Prop
  | equal {value : Value} (plain : hasOperators value = false) : IsExpressible (.equal value)
  | compare {operator : Operator} {argument : Value} (takes : operator.Takes argument) :
      IsExpressible (.compare operator argument)

/-- Conditions that one clause can express. -/
structure AreRenderable (conditions : List (String × Condition)) : Prop where
  names : ∀ condition ∈ conditions, isOperatorKey condition.1 = false
  coexist : conditions.Pairwise Coexist
  expressible : ∀ condition ∈ conditions, IsExpressible condition.2

/-- Predicates that a clause can express, at every depth of alternatives. -/
inductive IsRenderable : Predicate → Prop
  | plain {conditions : List (String × Condition)} (own : AreRenderable conditions) :
      IsRenderable { conditions }
  | alternatives {conditions : List (String × Condition)} {alternatives : List Predicate}
      (own : AreRenderable conditions) (each : ∀ alternative ∈ alternatives, IsRenderable alternative) :
      IsRenderable ⟨conditions, some alternatives⟩

/-! ## Half-built documents -/

/-- A half-built document: one that is read as the given conditions, though the conditions of one field
stand together. -/
structure Gathers (document : Document) (conditions : List (String × Condition)) : Prop where
  distinct : (Fields.keys document).Nodup
  names : ∀ key ∈ Fields.keys document, isOperatorKey key = false
  read : ∃ read, ofDocument document = .ok { conditions := read } ∧ read.Perm conditions

theorem ofDocument_field {field : String} {value : Value} {own : List (String × Condition)}
    (name : isOperatorKey field = false) (read : conditionsOf field value = .ok own) :
    ofDocument [(field, value)] = .ok { conditions := own } := by
  rw [ofDocument_singleton]
  exact ofValue_eq_ok_iff.mpr (.inr ⟨name, own, read, rfl⟩)

theorem exists_conditionsOf_append_cons {before after : Document} {field : String} {value : Value}
    {conditions : List (String × Condition)} (name : isOperatorKey field = false)
    (read : ofDocument (before ++ (field, value) :: after) = .ok { conditions }) :
    ∃ left own right, conditionsOf field value = .ok own ∧ conditions = left ++ own ++ right ∧
      ∀ other new, conditionsOf field other = .ok new →
        ofDocument (before ++ (field, other) :: after) = .ok { conditions := left ++ new ++ right } := by
  rcases ofDocument_append_eq_ok_iff.mp read with ⟨first, rest, left, others, joined⟩
  rcases ofDocument_cons_eq_ok_iff.mp others with ⟨here, last, middle, right, rfl⟩
  rcases ofValue_eq_ok_iff.mp middle with ⟨rfl, _⟩ | ⟨_, own, conditions, rfl⟩
  · cases isOperatorKey_orKey.symm.trans name
  simp only [join, mk.injEq] at joined
  rcases joined with ⟨rfl, alternatives⟩
  refine ⟨first.conditions, own, last.conditions, conditions, (List.append_assoc _ _ _).symm, ?_⟩
  intro other new read
  have middle := ofValue_eq_ok_iff.mpr (.inr ⟨name, new, read, rfl⟩)
  refine ofDocument_append_eq_ok_iff.mpr ⟨first, _, left,
    ofDocument_cons_eq_ok_iff.mpr ⟨_, last, middle, right, rfl⟩, ?_⟩
  simp only [join, mk.injEq, List.append_assoc, true_and]
  exact alternatives

namespace Gathers

variable {document : Document} {conditions : List (String × Condition)} {field : String}

theorem empty : Gathers [] [] where
  distinct := List.nodup_nil
  names := nofun
  read := ⟨[], rfl, .nil⟩

theorem append (gathers : Gathers document conditions) (name : isOperatorKey field = false)
    (fresh : field ∉ Fields.keys document) {value : Value} {condition : String × Condition}
    (read : conditionsOf field value = .ok [condition]) :
    Gathers (document ++ [(field, value)]) (conditions ++ [condition]) := by
  rcases gathers with ⟨distinct, names, before, reads, perm⟩
  have keys : Fields.keys (document ++ [(field, value)]) = Fields.keys document ++ [field] :=
    List.map_append
  refine ⟨?_, ?_, before ++ [condition], ?_, perm.append_right _⟩
  · rw [← Fields.insert_of_not_mem fresh]
    exact Fields.nodup_keys_insert distinct field value
  · rw [keys]
    intro key member
    rcases List.mem_append.mp member with old | added
    · exact names key old
    · exact List.mem_singleton.mp added ▸ name
  · exact ofDocument_append_eq_ok_iff.mpr ⟨_, _, reads, ofDocument_field name read, rfl⟩

theorem exists_field (gathers : Gathers document conditions) (present : field ∈ Fields.keys document) :
    ∃ before after value own, document = before ++ (field, value) :: after ∧
      field ∉ Fields.keys before ∧ conditionsOf field value = .ok own ∧
      (∀ condition ∈ own, condition ∈ conditions) ∧
      ∀ other condition, conditionsOf field other = .ok (own ++ [condition]) →
        Gathers (before ++ (field, other) :: after) (conditions ++ [condition]) := by
  have name := gathers.names field present
  rcases List.mem_map.mp present with ⟨⟨key, value⟩, member, same⟩
  change key = field at same
  subst same
  rcases List.append_of_mem member with ⟨before, after, rfl⟩
  rcases gathers with ⟨distinct, names, read, reads, perm⟩
  rcases exists_conditionsOf_append_cons name reads with ⟨left, own, right, here, rfl, exchange⟩
  have keys (other : Value) : Fields.keys (before ++ (key, other) :: after) =
      Fields.keys (before ++ (key, value) :: after) := by
    simp [Fields.keys]
  refine ⟨before, after, value, own, rfl, ?_, here, ?_, ?_⟩
  · rw [Fields.keys, List.map_append, List.nodup_append] at distinct
    intro earlier
    exact distinct.2.2 _ earlier _ List.mem_cons_self rfl
  · intro condition added
    exact perm.mem_iff.mp (List.mem_append_left right (List.mem_append_right left added))
  · intro other condition extended
    refine ⟨keys other ▸ distinct, keys other ▸ names, _, exchange other _ extended, ?_⟩
    have moved : left ++ (own ++ [condition]) ++ right = left ++ own ++ condition :: right := by simp
    have front : (left ++ own ++ condition :: right).Perm (condition :: conditions) :=
      List.perm_middle.trans (perm.cons condition)
    rw [moved]
    exact front.trans (List.perm_append_singleton condition conditions).symm

theorem exists_operators (gathers : Gathers document conditions)
    (present : field ∈ Fields.keys document) {condition : Condition}
    (coexist : ∀ earlier ∈ conditions, Coexist earlier (field, condition)) :
    ∃ before after entries operator argument, document = before ++ (field, .document entries) :: after ∧
      field ∉ Fields.keys before ∧ (∀ entry ∈ entries, isOperatorKey entry.1 = true) ∧
      condition = .compare operator argument ∧ operator.name ∉ Fields.keys entries ∧
      (operator.Takes argument →
        Gathers (before ++ (field, .document (entries ++ [(operator.name, argument)])) :: after)
          (conditions ++ [(field, condition)])) := by
  rcases gathers.exists_field present with
    ⟨before, after, value, own, rfl, absent, read, added, extend⟩
  rcases conditionsOf_eq_ok_iff.mp read with ⟨_, rfl⟩ | ⟨entries, rfl, nonempty, reads⟩
  · -- No other condition can stand beside a single value.
    rcases coexist _ (added _ (List.mem_singleton_self _)) rfl with ⟨_, _, _, _, equal, _⟩
    cases equal
  · have apart : ∀ entry ∈ entries, ∃ operator argument,
        condition = .compare operator argument ∧ operator.name ≠ entry.1 := by
      intro entry member
      rcases Outcome.exists_mem_of_forall₂ reads member with ⟨_, inside, former, name, _, rfl⟩
      rcases coexist _ (added _ inside) rfl with ⟨_, _, operator, argument, ⟨⟩, rfl, different⟩
      refine ⟨operator, argument, rfl, fun same => different ?_⟩
      exact Operator.name_injective (name.trans same.symm)
    rcases List.exists_mem_of_ne_nil entries nonempty with ⟨entry, member⟩
    rcases apart entry member with ⟨operator, argument, rfl, _⟩
    refine ⟨before, after, entries, operator, argument, rfl, absent,
      fun entry member => isOperatorKey_of_reads reads member, rfl, ?_, fun takes => ?_⟩
    · intro taken
      rcases List.mem_map.mp taken with ⟨entry, member, same⟩
      rcases apart entry member with ⟨_, _, ⟨⟩, different⟩
      exact different same.symm
    · refine extend _ _ (conditionsOf_eq_ok_iff.mpr (.inr ⟨_, rfl, by simp, ?_⟩))
      exact List.rel_append reads (.cons ⟨operator, rfl, takes, rfl⟩ .nil)

theorem addCondition {condition : String × Condition} (gathers : Gathers document conditions)
    (renderable : AreRenderable (conditions ++ [condition])) :
    Gathers (addCondition document condition) (conditions ++ [condition]) := by
  rcases condition with ⟨field, condition⟩
  have last : (field, condition) ∈ conditions ++ [(field, condition)] :=
    List.mem_append_right conditions (List.mem_singleton_self _)
  have name : isOperatorKey field = false := renderable.names _ last
  have expressible : IsExpressible condition := renderable.expressible _ last
  by_cases present : field ∈ Fields.keys document
  · have coexist := (List.pairwise_append.mp renderable.coexist).2.2
    rcases gathers.exists_operators present fun earlier member =>
        coexist earlier member _ (List.mem_singleton_self _) with
      ⟨before, after, entries, operator, argument, rfl, absent, operators, rfl, fresh, extend⟩
    cases expressible with
    | compare takes =>
        rw [Predicate.addCondition, addOperator_gathered absent operators fresh]
        exact extend takes
  · cases expressible with
    | @equal value plain =>
        rw [Predicate.addCondition, Fields.insert_of_not_mem present]
        exact gathers.append name present (conditionsOf_eq_ok_iff.mpr (.inl ⟨plain, rfl⟩))
    | @compare operator argument takes =>
        rw [Predicate.addCondition, addOperator_fresh present]
        refine gathers.append name present (conditionsOf_eq_ok_iff.mpr (.inr ⟨_, rfl, by simp, ?_⟩))
        exact .cons ⟨operator, rfl, takes, rfl⟩ .nil

end Gathers

theorem gathers_foldl {conditions : List (String × Condition)} (renderable : AreRenderable conditions) :
    Gathers (conditions.foldl addCondition []) conditions := by
  -- Conditions are added at the end, so that each one joins those before it.
  induction conditions using List.reverseRecOn with
  | nil => exact .empty
  | append_singleton conditions condition induction =>
      rw [List.foldl_append]
      refine Gathers.addCondition (induction ⟨?_, ?_, ?_⟩) renderable
      · exact fun other member => renderable.names other (List.mem_append_left _ member)
      · exact (List.pairwise_append.mp renderable.coexist).1
      · exact fun other member => renderable.expressible other (List.mem_append_left _ member)

/-! ## Predicates with one meaning -/

/-- Predicates that the same documents meet, with the same patterns in them. -/
structure Same (left right : Predicate) : Prop where
  accepts : ∀ document, left.accepts document = right.accepts document
  patterns : ∀ pattern, pattern ∈ left.patterns ↔ pattern ∈ right.patterns

theorem Same.evaluate_eq_ok_iff {left right : Predicate} (same : Same left right) (document : Document)
    (met : Bool) : left.evaluate document = .ok met ↔ right.evaluate document = .ok met := by
  rw [Predicate.evaluate_eq_ok_iff, Predicate.evaluate_eq_ok_iff, same.accepts]
  simp only [same.patterns]

theorem allHold_eq_of_perm {conditions others : List (String × Condition)} (perm : conditions.Perm others)
    (document : Document) : allHold conditions document = allHold others document :=
  perm.all_eq

theorem mem_conditionPatterns_iff_of_perm {conditions others : List (String × Condition)}
    (perm : conditions.Perm others) (pattern : String) :
    pattern ∈ conditionPatterns conditions ↔ pattern ∈ conditionPatterns others :=
  (perm.filterMap _).mem_iff

theorem same_of_perm {conditions others : List (String × Condition)} (perm : conditions.Perm others) :
    Same { conditions } { conditions := others } :=
  ⟨allHold_eq_of_perm perm, mem_conditionPatterns_iff_of_perm perm⟩

theorem same_of_perm_of_forall₂ {conditions others : List (String × Condition)}
    {alternatives replacements : List Predicate} (perm : conditions.Perm others)
    (all : List.Forall₂ Same alternatives replacements) :
    Same ⟨conditions, some alternatives⟩ ⟨others, some replacements⟩ := by
  have each : (∀ document, anyAccepts alternatives document = anyAccepts replacements document) ∧
      ∀ pattern, pattern ∈ alternativePatterns alternatives ↔
        pattern ∈ alternativePatterns replacements := by
    induction all with
    | nil => exact ⟨fun _ => rfl, fun _ => Iff.rfl⟩
    | cons here _ induction =>
        refine ⟨fun document => ?_, fun pattern => ?_⟩
        · rw [anyAccepts, anyAccepts, here.accepts, induction.1]
        · rw [alternativePatterns, alternativePatterns, List.mem_append, List.mem_append, here.patterns,
            induction.2]
  refine ⟨fun document => ?_, fun pattern => ?_⟩
  · rw [accepts, accepts, allHold_eq_of_perm perm, each.1]
  · rw [patterns, patterns, List.mem_append, List.mem_append, mem_conditionPatterns_iff_of_perm perm,
      each.2]

/-! ## Reading back -/

theorem exists_same_of_isRenderable {predicate : Predicate} (renderable : predicate.IsRenderable) :
    ∃ read, ofDocument predicate.toDocument = .ok read ∧ Same read predicate := by
  induction renderable with
  | plain own =>
      rcases (gathers_foldl own).read with ⟨read, reads, perm⟩
      exact ⟨{ conditions := read }, reads, same_of_perm perm⟩
  | alternatives own _ induction =>
      have gathers := gathers_foldl own
      rcases gathers.read with ⟨read, reads, perm⟩
      rcases Outcome.exists_forall₂_iff.mpr induction with ⟨others, all⟩
      have absent : orKey ∉ Fields.keys _ := fun member => by
        cases isOperatorKey_orKey.symm.trans (gathers.names orKey member)
      have parsed := ofDocument_toDocument_alternatives reads absent (all.imp fun _ _ both => both.1)
      have same := (all.imp fun _ _ both => both.2).flip
      exact ⟨⟨read, some others⟩, parsed, same_of_perm_of_forall₂ perm same⟩

/-- The canonical document of a predicate is read as the predicate. One that was read of a clause, in
which documents name each field once, comes back as it was, and one that a clause can express comes
back with the same meaning, in whatever order its conditions were added. -/
theorem canonical_document_read_back :
    (∀ clause predicate, Document.IsProper clause → ofDocument clause = .ok predicate →
      ofDocument predicate.toDocument = .ok predicate) ∧
    ∀ predicate, IsRenderable predicate → ∃ read, ofDocument predicate.toDocument = .ok read ∧
      ∀ document met, read.evaluate document = .ok met ↔ predicate.evaluate document = .ok met := by
  constructor
  · exact fun clause predicate proper read => ofDocument_toDocument_of_read proper read
  · intro predicate renderable
    rcases exists_same_of_isRenderable renderable with ⟨read, reads, same⟩
    exact ⟨read, reads, same.evaluate_eq_ok_iff⟩

private def tagClause : Document :=
  [(orKey, .array [.document [("name", .string "jane")], .document []]),
    ("age", .document [("$gte", .int32 18), ("$in", .array [])]), ("tag", .document [])]

private def tagPredicate : Predicate where
  conditions := [("age", .compare .gte (.int32 18)), ("age", .compare .oneOf (.array [])),
    ("tag", .equal (.document []))]
  alternatives := some [{ conditions := [("name", .equal (.string "jane"))] }, {}]

private def interleavedPredicate : Predicate where
  conditions := [("age", .compare .gte (.int32 18)), ("name", .equal (.string "jane")),
    ("age", .compare .lt (.int64 65))]
  alternatives := some [{ conditions := [("name", .compare .like (.string "j%"))] }]

theorem canonical_document_of_tag_and_interleaved :
    (Document.IsProper tagClause ∧ ofDocument tagClause = .ok tagPredicate ∧
        ofDocument tagPredicate.toDocument = .ok tagPredicate) ∧
      IsRenderable interleavedPredicate ∧
        ∃ read, ofDocument interleavedPredicate.toDocument = .ok read ∧ ∀ document met,
          read.evaluate document = .ok met ↔ interleavedPredicate.evaluate document = .ok met := by
  have proper : Document.IsProper tagClause := by decide +kernel
  have read : ofDocument tagClause = .ok tagPredicate := by with_unfolding_all rfl
  have own : AreRenderable interleavedPredicate.conditions := by
    refine ⟨by decide +kernel, ?_, ?_⟩
    · simp [interleavedPredicate, Coexist]
    · simp only [interleavedPredicate, List.forall_mem_cons]
      exact ⟨.compare (.gte _), .equal rfl, .compare (.lt _), nofun⟩
  have renderable : IsRenderable interleavedPredicate := by
    refine .alternatives own fun alternative member => ?_
    rw [List.mem_singleton.mp member]
    refine .plain ⟨by decide +kernel, List.pairwise_singleton _ _, ?_⟩
    simp only [List.forall_mem_cons]
    exact ⟨.compare (.like _), nofun⟩
  exact ⟨⟨proper, read, canonical_document_read_back.1 tagClause tagPredicate proper read⟩,
    renderable, canonical_document_read_back.2 interleavedPredicate renderable⟩

end DocStore.Predicate

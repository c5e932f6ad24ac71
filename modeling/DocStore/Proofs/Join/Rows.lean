import DocStore.Proofs.Fields
import DocStore.Proofs.Outcome
import DocStore.Store.Search

/-!
Joins work row by row: joined rows depend on their own row alone, and each keeps the fields that
no include names.

The main statements are that the join of several rows is the join of each, that a join commutes
with a filter that does not look at what is joined, and that includes which require nothing keep
every row in its place.
-/

namespace DocStore.Collections

variable {collections : Collections} {list : String}

/-! ## One include -/

/-- The rows with the related rows of one list. -/
def attachOne (collections : Collections) (list included : String) (spec : Include)
    (rows : List Document) : Except StoreError (List Document) :=
  rows.mapM fun row => do
    return row.attachRelated included (← collections.related list included row spec)

/-- What is related to all rows can also be looked up first, and then be attached by position. -/
theorem attachOne_eq_zipWith (included : String) (spec : Include) (rows : List Document) :
    collections.attachOne list included spec rows =
      (rows.mapM fun row => collections.related list included row spec).map fun found =>
        List.zipWith (Document.attachRelated included) found rows := by
  induction rows with
  | nil => rfl
  | cons row rows induction =>
      rw [attachOne] at induction ⊢
      rw [List.mapM_cons, List.mapM_cons, induction]
      cases collections.related list included row spec with
      | error cause => rfl
      | ok related =>
          cases rows.mapM fun row => collections.related list included row spec with
          | error cause => rfl
          | ok found => rfl

theorem attach_nil (rows : List Document) : collections.attach list [] rows = .ok rows := rfl

theorem attach_cons (included : String) (spec : Include) (includes : List (String × Include))
    (rows : List Document) :
    collections.attach list ((included, spec) :: includes) rows =
      (collections.attachOne list included spec rows >>= fun joined =>
        collections.attach list includes (spec.keep included joined)) := by
  rw [attachOne_eq_zipWith, attach]
  cases rows.mapM fun row => collections.related list included row spec with
  | error cause => rfl
  | ok found => rfl

theorem attach_cons_eq_ok_iff {included : String} {spec : Include}
    {includes : List (String × Include)} {rows result : List Document} :
    collections.attach list ((included, spec) :: includes) rows = .ok result ↔
      ∃ joined, collections.attachOne list included spec rows = .ok joined ∧
        collections.attach list includes (spec.keep included joined) = .ok result := by
  rw [attach_cons, Outcome.bind_eq_ok_iff]

theorem attachOne_required (included : String) (spec : Include) (required : Bool) :
    collections.attachOne list included { spec with required } =
      collections.attachOne list included spec := by
  cases spec
  rfl

/-! ## Joins are queries -/

theorem patterns_joinPredicate (list included : String) (spec : Include) (row : Document) :
    (joinPredicate list included spec row).patterns = [] := by
  rw [joinPredicate]
  split
  · simp [Predicate.patterns, Predicate.conditionPatterns, Condition.pattern?]
  · rfl
  · rfl

theorem related_eq_find (included : String) (spec : Include) (row : Document) :
    collections.related list included row spec =
      collections.find included
        { filter := joinPredicate list included spec row, includes := spec.includes } := by
  rcases spec with ⟨on, required, includes⟩
  have checked : (joinPredicate list included ⟨on, required, includes⟩ row).checkPatterns =
      .ok () := by
    rw [Predicate.checkPatterns, patterns_joinPredicate]
    rfl
  rw [related, find, selected]
  simp only [checked]
  cases collections.documents included with
  | error cause => rfl
  | ok rows =>
      cases Includes.hasRequired includes with
      | false => rfl
      | true => exact (bind_pure (collections.attach included includes _)).symm

end DocStore.Collections

namespace DocStore.Document

theorem get?_attachRelated_other {included key : String} (related : List Document)
    (row : Document) (different : key ≠ included) :
    (row.attachRelated included related).get? key = row.get? key :=
  Fields.get?_insert_other row _ different

theorem hasRelated_congr {included : String} {left right : Document}
    (same : left.get? included = right.get? included) :
    left.hasRelated included = right.hasRelated included := by
  unfold hasRelated
  rw [same]

end DocStore.Document

namespace DocStore.Include

theorem keep_append (spec : Include) (included : String) (left right : List Document) :
    spec.keep included (left ++ right) = spec.keep included left ++ spec.keep included right := by
  unfold keep
  split
  · exact List.filter_append left right
  · rfl

theorem keep_of_not_required {spec : Include} (optional : spec.required = false)
    (included : String) (rows : List Document) : spec.keep included rows = rows := by
  simp [keep, optional]

theorem keep_singleton (spec : Include) (included : String) (row : Document) :
    spec.keep included [row] = [row] ∨ spec.keep included [row] = [] := by
  rw [keep]
  split
  · cases related : row.hasRelated included with
    | true => simp [related]
    | false => simp [related]
  · exact .inl rfl

end DocStore.Include

namespace DocStore.Collections

variable {collections : Collections} {list : String}

/-! ## Locality -/

/-- Rows can be joined if each of them can, and they are joined independently. -/
theorem attach_append_eq_ok_iff {includes : List (String × Include)}
    {left right result : List Document} :
    collections.attach list includes (left ++ right) = .ok result ↔
      ∃ first second, collections.attach list includes left = .ok first ∧
        collections.attach list includes right = .ok second ∧ result = first ++ second := by
  induction includes generalizing left right result with
  | nil =>
      simp only [attach_nil, Except.ok.injEq]
      constructor
      · rintro rfl
        exact ⟨left, right, rfl, rfl, rfl⟩
      · rintro ⟨_, _, rfl, rfl, rfl⟩
        rfl
  | cons entry includes induction =>
      rcases entry with ⟨included, spec⟩
      simp only [attach_cons_eq_ok_iff, attachOne, Outcome.mapM_append_eq_ok_iff]
      constructor
      · rintro ⟨_, ⟨first, second, joinedLeft, joinedRight, rfl⟩, rest⟩
        rw [Include.keep_append] at rest
        rcases induction.mp rest with ⟨before, after, restLeft, restRight, equal⟩
        exact ⟨before, after, ⟨first, joinedLeft, restLeft⟩, ⟨second, joinedRight, restRight⟩,
          equal⟩
      · rintro ⟨before, after, ⟨first, joinedLeft, restLeft⟩, ⟨second, joinedRight, restRight⟩,
          equal⟩
        refine ⟨first ++ second, ⟨first, second, joinedLeft, joinedRight, rfl⟩, ?_⟩
        rw [Include.keep_append]
        exact induction.mpr ⟨before, after, restLeft, restRight, equal⟩

theorem attach_no_rows (includes : List (String × Include)) :
    collections.attach list includes [] = .ok [] := by
  induction includes with
  | nil => rfl
  | cons entry includes induction =>
      rcases entry with ⟨included, spec⟩
      refine attach_cons_eq_ok_iff.mpr ⟨[], rfl, ?_⟩
      have none : spec.keep included [] = [] := by simp [Include.keep]
      rw [none]
      exact induction

theorem attach_cons_rows_eq_ok_iff {includes : List (String × Include)} {row : Document}
    {rows result : List Document} :
    collections.attach list includes (row :: rows) = .ok result ↔
      ∃ first rest, collections.attach list includes [row] = .ok first ∧
        collections.attach list includes rows = .ok rest ∧ result = first ++ rest := by
  rw [← List.singleton_append]
  exact attach_append_eq_ok_iff

theorem attach_cons_row_eq_ok_iff {included : String} {spec : Include}
    {includes : List (String × Include)} {row : Document} {result : List Document} :
    collections.attach list ((included, spec) :: includes) [row] = .ok result ↔
      ∃ related, collections.related list included row spec = .ok related ∧
        collections.attach list includes
          (spec.keep included [row.attachRelated included related]) = .ok result := by
  rw [attach_cons_eq_ok_iff]
  simp only [attachOne, List.mapM_cons, List.mapM_nil, Outcome.bind_eq_ok_iff,
    Outcome.pure_eq_ok_iff]
  constructor
  · rintro ⟨_, ⟨_, ⟨related, found, rfl⟩, _, rfl, rfl⟩, rest⟩
    exact ⟨related, found, rest⟩
  · rintro ⟨related, found, rest⟩
    exact ⟨_, ⟨_, ⟨related, found, rfl⟩, [], rfl, rfl⟩, rest⟩

/-! ## What is kept -/

theorem get?_of_mem_attach {includes : List (String × Include)} {row answer : Document}
    {answers : List Document} {key : String}
    (joined : collections.attach list includes [row] = .ok answers) (member : answer ∈ answers)
    (outside : key ∉ Fields.keys includes) : answer.get? key = row.get? key := by
  induction includes generalizing row with
  | nil =>
      cases joined
      cases List.mem_singleton.mp member
      rfl
  | cons entry includes induction =>
      rcases entry with ⟨included, spec⟩
      have different : key ≠ included := fun equal => outside (equal ▸ List.mem_cons_self)
      have remaining : key ∉ Fields.keys includes := fun inside =>
        outside (List.mem_cons_of_mem included inside)
      rcases attach_cons_row_eq_ok_iff.mp joined with ⟨related, _, rest⟩
      rcases spec.keep_singleton included (row.attachRelated included related) with kept | dropped
      · rw [kept] at rest
        exact (induction rest remaining).trans (row.get?_attachRelated_other related different)
      · rw [dropped, attach_no_rows] at rest
        cases rest
        cases member

/-- A filter that does not look at what is joined can be applied before or after. -/
theorem attach_filter {includes : List (String × Include)} {accepts : Document → Bool}
    {rows answers : List Document}
    (stable : ∀ row found, collections.attach list includes [row] = .ok found →
      ∀ answer ∈ found, accepts answer = accepts row)
    (joined : collections.attach list includes rows = .ok answers) :
    collections.attach list includes (rows.filter accepts) = .ok (answers.filter accepts) := by
  induction rows generalizing answers with
  | nil =>
      rw [attach_no_rows] at joined
      cases joined
      exact attach_no_rows includes
  | cons row rows induction =>
      rcases attach_cons_rows_eq_ok_iff.mp joined with ⟨first, rest, joinedRow, joinedRows, rfl⟩
      have remaining := induction joinedRows
      have sameAnswer := stable row first joinedRow
      rw [List.filter_append]
      cases accepted : accepts row with
      | true =>
          have all : first.filter accepts = first :=
            List.filter_eq_self.mpr fun answer member =>
              (sameAnswer answer member).trans accepted
          rw [List.filter_cons_of_pos accepted, all]
          exact attach_cons_rows_eq_ok_iff.mpr ⟨first, _, joinedRow, remaining, rfl⟩
      | false =>
          have none : first.filter accepts = [] :=
            List.filter_eq_nil_iff.mpr fun answer member => by
              rw [sameAnswer answer member, accepted]
              exact Bool.false_ne_true
          rw [List.filter_cons_of_neg (by simp [accepted]), none]
          exact remaining

theorem length_attach_of_not_required {includes : Includes} {rows answers : List Document}
    (optional : includes.hasRequired = false)
    (joined : collections.attach list includes rows = .ok answers) :
    answers.length = rows.length := by
  induction includes generalizing rows with
  | nil =>
      cases joined
      rfl
  | cons entry includes induction =>
      rcases entry with ⟨included, spec⟩
      have parts : spec.required = false ∧ Includes.hasRequired includes = false := by
        simpa [Includes.hasRequired] using optional
      rcases attach_cons_eq_ok_iff.mp joined with ⟨found, attached, rest⟩
      rw [Include.keep_of_not_required parts.1] at rest
      exact (induction parts.2 rest).trans (Outcome.length_eq_of_mapM_eq_ok attached)

theorem attach_take_drop {includes : Includes} {rows answers : List Document}
    (optional : includes.hasRequired = false)
    (joined : collections.attach list includes rows = .ok answers) (count : Nat) :
    collections.attach list includes (rows.take count) = .ok (answers.take count) ∧
      collections.attach list includes (rows.drop count) = .ok (answers.drop count) := by
  rw [← List.take_append_drop count rows] at joined
  rcases attach_append_eq_ok_iff.mp joined with ⟨first, second, joinedFirst, joinedSecond, rfl⟩
  have firstLength := length_attach_of_not_required optional joinedFirst
  have secondLength := length_attach_of_not_required optional joinedSecond
  rw [List.length_take] at firstLength
  rw [List.length_drop] at secondLength
  by_cases within : count ≤ rows.length
  · have exactly : first.length = count := by omega
    rw [List.take_left' exactly, List.drop_left' exactly]
    exact ⟨joinedFirst, joinedSecond⟩
  · have empty : second = [] := List.eq_nil_of_length_eq_zero (by omega)
    subst empty
    have short : first.length ≤ count := by omega
    rw [List.append_nil, List.take_of_length_le short, List.drop_of_length_le short]
    exact ⟨joinedFirst, joinedSecond⟩

end DocStore.Collections

import DocStore.Proofs.Join.Order

/-!
Rows on their own. What becomes of a row in a join does not depend on the rows beside it: it comes out
once, with an array under the name of each included list and otherwise as it was, or not at all.

The main statement is that the join of several rows is the join of each, in both what comes out and
whether it succeeds, and that a row only gets lost where an include requires related rows and finds none.
-/

namespace DocStore

namespace Fields

variable {α : Type}

def without (names : List String) (fields : Fields α) : Fields α :=
  fields.filter fun (key, _) => decide (key ∉ names)

theorem without_insert {names : List String} {key : String} (named : key ∈ names) (fields : Fields α)
    (value : α) : without names (insert fields key value) = without names fields := by
  induction fields with
  | nil => simp [insert, without, named]
  | cons field fields induction =>
      rcases field with ⟨existing, old⟩
      rw [insert]
      split
      · next same => simp [without, same, named]
      · simp only [without, List.filter_cons] at induction ⊢
        rw [induction]

theorem without_mono {fewer names : List String} (covered : fewer ⊆ names) {left right : Fields α}
    (same : without fewer left = without fewer right) : without names left = without names right := by
  have narrowed (fields : Fields α) :
      without names fields = without names (without fewer fields) := by
    rw [without, without, without, List.filter_filter]
    apply List.filter_congr
    rintro ⟨key, value⟩ _
    by_cases named : key ∈ fewer
    · simp [covered named]
    · simp [named]
  rw [narrowed left, narrowed right, same]

end Fields

namespace Collections

variable {collections : Collections} {list : String}

/-! ## A single row -/

/-- A row with an array of related rows under the name of each included list, and otherwise as it was. -/
def IsJoined (includes : Includes) (row answer : Document) : Prop :=
  answer.without includes.keys = row.without includes.keys ∧
    ∀ included ∈ includes.keys, ∃ related : List Document,
      answer.get? included = some (.array (related.map Value.document))

/-- Whether there is an include that requires related rows and attaches none, once the includes before
it are attached. -/
def LacksRequired (collections : Collections) (list : String) (includes : Includes)
    (row : Document) : Prop :=
  ∃ before included spec after joined, includes = before ++ (included, spec) :: after ∧
    spec.required = true ∧
    collections.attach list (before ++ [(included, spec.optional)]) [row] = .ok [joined] ∧
    joined.get? included = some (.array [])

variable {included : String} {spec : Include} {includes : List (String × Include)}
  {row answer : Document} {answers : List Document}

theorem attach_cons_row_cases
    (joined : collections.attach list ((included, spec) :: includes) [row] = .ok answers) :
    ∃ related, collections.related list included row spec = .ok related ∧
      ((spec.required = true ∧ related = [] ∧ answers = []) ∨
        (spec.keep included [row.attachRelated included related] =
            [row.attachRelated included related] ∧
          collections.attach list includes [row.attachRelated included related] = .ok answers)) := by
  rcases attach_cons_row_eq_ok_iff.mp joined with ⟨related, looked, rest⟩
  refine ⟨related, looked, ?_⟩
  have kept := spec.keep_attachRelated included related row
  rw [kept] at rest ⊢
  split at rest
  · next served => exact .inr ⟨if_pos served, rest⟩
  · next dropped =>
    rw [attach_no_rows] at rest
    rw [Bool.or_eq_true, not_or] at dropped
    exact .inl ⟨by simpa using dropped.1, by simpa using dropped.2, (Except.ok.inj rest).symm⟩

theorem attach_optional_row {related : List Document}
    (looked : collections.related list included row spec = .ok related) :
    collections.attach list [(included, spec.optional)] [row] =
      .ok [row.attachRelated included related] := by
  refine attach_cons_row_eq_ok_iff.mpr ⟨related, ?_, ?_⟩
  · rw [← looked, related_eq_find, related_eq_find]
    rfl
  · rw [Include.keep_of_not_required rfl, attach_nil]

theorem lacksRequired_cons {related : List Document}
    (looked : collections.related list included row spec = .ok related)
    (kept : spec.keep included [row.attachRelated included related] =
      [row.attachRelated included related])
    (lacks : LacksRequired collections list includes (row.attachRelated included related)) :
    LacksRequired collections list ((included, spec) :: includes) row := by
  rcases lacks with ⟨before, name, required, after, joined, rfl, demands, attached, empty⟩
  refine ⟨(included, spec) :: before, name, required, after, joined, rfl, demands, ?_, empty⟩
  rw [List.cons_append, attach_cons_row_eq_ok_iff]
  exact ⟨related, looked, kept.symm ▸ attached⟩

theorem isJoined_cons {related : List Document}
    (joined : collections.attach list includes [row.attachRelated included related] = .ok [answer])
    (later : IsJoined includes (row.attachRelated included related) answer) :
    IsJoined ((included, spec) :: includes) row answer := by
  constructor
  · have covered : Fields.keys includes ⊆ Fields.keys ((included, spec) :: includes) :=
      List.subset_cons_self included (Fields.keys includes)
    exact (Fields.without_mono covered later.1).trans (Fields.without_insert List.mem_cons_self row _)
  · intro name member
    by_cases again : name ∈ Fields.keys includes
    · exact later.2 name again
    · cases List.mem_cons.mp member with
      | inr inside => exact absurd inside again
      | inl same =>
          subst same
          refine ⟨related, ?_⟩
          rw [get?_of_mem_attach joined List.mem_cons_self again]
          exact Fields.get?_insert_self row name _

theorem attach_row_cases (joined : collections.attach list includes [row] = .ok answers) :
    (∃ answer, answers = [answer] ∧ IsJoined includes row answer) ∨
      (answers = [] ∧ LacksRequired collections list includes row) := by
  induction includes generalizing row with
  | nil =>
      cases joined
      exact .inl ⟨row, rfl, rfl, nofun⟩
  | cons entry includes induction =>
      rcases entry with ⟨included, spec⟩
      rcases attach_cons_row_cases joined with ⟨related, looked, ⟨demands, rfl, rfl⟩ | ⟨kept, rest⟩⟩
      · refine .inr ⟨rfl, [], included, spec, includes, row.attachRelated included [], rfl, demands,
          attach_optional_row looked, ?_⟩
        exact Fields.get?_insert_self row included _
      · rcases induction rest with ⟨answer, rfl, later⟩ | ⟨rfl, lacks⟩
        · exact .inl ⟨answer, rfl, isJoined_cons rest later⟩
        · exact .inr ⟨rfl, lacksRequired_cons looked kept lacks⟩

/-! ## All rows -/

/-- Joins work row by row. Several rows can be joined exactly if each part of them can, and what comes
out is what comes out of each part. A single row comes out at most once, with an array under the name of
each included list and otherwise as it was; it gets lost only where the array of a required include is
empty. -/
theorem joins_work_row_by_row (collections : Collections) (list : String) (includes : Includes) :
    (∀ left right : List Document,
      ((∃ answers, collections.attach list includes (left ++ right) = .ok answers) ↔
        (∃ first, collections.attach list includes left = .ok first) ∧
          ∃ second, collections.attach list includes right = .ok second) ∧
      ∀ answers first second, collections.attach list includes (left ++ right) = .ok answers →
        collections.attach list includes left = .ok first →
        collections.attach list includes right = .ok second → answers = first ++ second) ∧
    ∀ (row : Document) (answers : List Document),
      collections.attach list includes [row] = .ok answers →
      (∃ answer, answers = [answer] ∧ IsJoined includes row answer) ∨
        (answers = [] ∧ LacksRequired collections list includes row) := by
  refine ⟨fun left right => ⟨?_, ?_⟩, fun row answers => attach_row_cases⟩
  · simp only [attach_append_eq_ok_iff]
    constructor
    · rintro ⟨answers, first, second, joinedLeft, joinedRight, rfl⟩
      exact ⟨⟨first, joinedLeft⟩, ⟨second, joinedRight⟩⟩
    · rintro ⟨⟨first, joinedLeft⟩, ⟨second, joinedRight⟩⟩
      exact ⟨first ++ second, first, second, joinedLeft, joinedRight, rfl⟩
  · intro answers first second joined joinedLeft joinedRight
    have both := attach_append_eq_ok_iff.mpr ⟨first, second, joinedLeft, joinedRight, rfl⟩
    exact Except.ok.inj (joined.symm.trans both)

/-! The first message has a user and a note. The second refers to a user that does not exist, and is
dropped before notes are looked up for it. -/

private def signedLists : Collections :=
  ((∅ : Collections).insert "users" [[("id", .int32 2)]]).insert "notes"
    [[("id", .int32 7), ("label", .string "a")]]

private def signedIncludes : Includes :=
  [("users", { required := true }), ("notes", { on := [("tag", "label")] })]

private def signed : Document :=
  [("id", .int32 1), ("users_id", .int64 2), ("tag", .string "a")]

private def unsigned : Document :=
  [("id", .int32 3), ("users_id", .int64 9), ("tag", .string "a")]

private def signedAnswer : Document :=
  signed ++ [("users", .array [.document [("id", .int32 2)]]),
    ("notes", .array [.document [("id", .int32 7), ("label", .string "a")]])]

theorem signed_message_is_joined_beside_unsigned :
    signedLists.attach "messages" signedIncludes ([signed] ++ [unsigned]) = .ok [signedAnswer] ∧
      signedLists.attach "messages" signedIncludes [signed] = .ok [signedAnswer] ∧
      signedLists.attach "messages" signedIncludes [unsigned] = .ok [] ∧
      [signedAnswer] = [signedAnswer] ++ [] ∧ IsJoined signedIncludes signed signedAnswer ∧
      LacksRequired signedLists "messages" signedIncludes unsigned := by
  have joined : signedLists.attach "messages" signedIncludes ([signed] ++ [unsigned]) =
      .ok [signedAnswer] := rfl
  have first : signedLists.attach "messages" signedIncludes [signed] = .ok [signedAnswer] := rfl
  have second : signedLists.attach "messages" signedIncludes [unsigned] = .ok [] := rfl
  have locally := joins_work_row_by_row signedLists "messages" signedIncludes
  refine ⟨joined, first, second, (locally.1 _ _).2 _ _ _ joined first second, ?_, ?_⟩
  · rcases locally.2 signed _ first with ⟨answer, same, isJoined⟩ | ⟨none, _⟩
    · cases same
      exact isJoined
    · cases none
  · rcases locally.2 unsigned _ second with ⟨answer, same, _⟩ | ⟨_, lacks⟩
    · cases same
    · exact lacks

end Collections

end DocStore

import DocStore.Proofs.Join.Order

/-!
Includes within includes. The rows that an include attaches can have includes of their own; those are
attached to them as they are to any rows, after they were found.

The main statement is that this is the same as attaching the outer include alone and then the inner ones
to what it found, and that a required outer include asks for what is left after the inner ones.
-/

namespace DocStore.Collections

variable {collections : Collections} {list included : String} {on : List (String × String)}
  {required : Bool} {nested : Includes}

/-! ## One row -/

/-- A row with the related rows of another, once they have includes of their own. -/
def JoinsWithin (collections : Collections) (included : String) (nested : Includes)
    (plain answer : Document) : Prop :=
  ∃ related joined, plain.get? included = some (.array (related.map Value.document)) ∧
    collections.attach included nested related = .ok joined ∧
    answer = plain.attachRelated included joined

/-- A row with the answer to the query for its related rows, which may be empty. -/
def HoldsAnswer (collections : Collections) (list included : String) (spec : Include)
    (row answer : Document) : Prop :=
  ∃ joined, collections.find included
      { filter := joinPredicate list included spec row, includes := spec.includes } = .ok joined ∧
    answer = row.attachRelated included joined ∧
    (answer.hasRelated included = false ↔ answer.get? included = some (.array []))

theorem related_nested (row : Document) :
    collections.related list included row ⟨on, required, nested⟩ =
      collections.related list included row { on } >>= collections.attach included nested := by
  rw [related, related]
  cases collections.documents included with
  | error cause => rfl
  | ok rows => rfl

theorem attachRelated_attachRelated (plain related : List Document) (row : Document) :
    (row.attachRelated included plain).attachRelated included related =
      row.attachRelated included related :=
  Fields.insert_insert_self row included _ _

theorem joinsWithin_attachRelated_iff {row answer : Document} {related : List Document} :
    JoinsWithin collections included nested (row.attachRelated included related) answer ↔
      ∃ joined, collections.attach included nested related = .ok joined ∧
        answer = row.attachRelated included joined := by
  have held : (row.attachRelated included related).get? included =
      some (.array (related.map Value.document)) :=
    Fields.get?_insert_self row included _
  simp only [JoinsWithin, held, attachRelated_attachRelated]
  constructor
  · rintro ⟨others, joined, same, attached, rfl⟩
    have equal : related = others :=
      List.map_injective_iff.mpr (fun _ _ => Value.document.inj)
        (Value.array.inj (Option.some.inj same))
    exact ⟨joined, equal ▸ attached, rfl⟩
  · rintro ⟨joined, attached, rfl⟩
    exact ⟨related, joined, rfl, attached, rfl⟩

/-! ## All rows -/

variable {spec : Include} {rows answers : List Document}

theorem attachOne_eq_ok_iff :
    collections.attachOne list included spec rows = .ok answers ↔
      List.Forall₂ (fun row answer => ∃ related,
        collections.related list included row spec = .ok related ∧
          answer = row.attachRelated included related) rows answers := by
  have each (row answer : Document) :
      (do return row.attachRelated included (← collections.related list included row spec)) =
          Except.ok answer ↔
        ∃ related, collections.related list included row spec = .ok related ∧
          answer = row.attachRelated included related := by
    simp only [Outcome.bind_eq_ok_iff, Outcome.pure_eq_ok_iff, @eq_comm _ answer]
  simp only [attachOne, Outcome.mapM_eq_ok_iff_forall₂, each]

theorem attach_single (rows : List Document) :
    collections.attach list [(included, spec)] rows =
      (collections.attachOne list included spec rows).map (spec.keep included) := by
  rw [attach_cons]
  cases collections.attachOne list included spec rows with
  | error cause => rfl
  | ok joined => rfl

theorem attach_single_optional (optional : spec.required = false) (rows : List Document) :
    collections.attach list [(included, spec)] rows =
      collections.attachOne list included spec rows := by
  rw [attach_single]
  cases collections.attachOne list included spec rows with
  | error cause => rfl
  | ok joined => exact congrArg Except.ok (Include.keep_of_not_required optional included joined)

theorem attach_nested_eq_ok_iff :
    collections.attach list [(included, { on, includes := nested })] rows = .ok answers ↔
      ∃ plain, collections.attach list [(included, { on })] rows = .ok plain ∧
        List.Forall₂ (JoinsWithin collections included nested) plain answers := by
  have alone : collections.attach list [(included, { on })] rows =
      collections.attachOne list included { on } rows := attach_single_optional rfl rows
  rw [attach_single_optional rfl, attachOne_eq_ok_iff, alone]
  simp only [attachOne_eq_ok_iff]
  rw [← Outcome.forall₂_comp_iff]
  have each (row answer : Document) :
      (∃ joined, collections.related list included row { on, includes := nested } = .ok joined ∧
          answer = row.attachRelated included joined) ↔
        ∃ plain, (∃ related, collections.related list included row { on } = .ok related ∧
            plain = row.attachRelated included related) ∧
          JoinsWithin collections included nested plain answer := by
    constructor
    · rintro ⟨joined, looked, rfl⟩
      rw [related_nested, Outcome.bind_eq_ok_iff] at looked
      rcases looked with ⟨related, found, attached⟩
      exact ⟨_, ⟨related, found, rfl⟩, joinsWithin_attachRelated_iff.mpr ⟨joined, attached, rfl⟩⟩
    · rintro ⟨_, ⟨related, found, rfl⟩, within⟩
      rcases joinsWithin_attachRelated_iff.mp within with ⟨joined, attached, rfl⟩
      refine ⟨joined, ?_, rfl⟩
      rw [related_nested, Outcome.bind_eq_ok_iff]
      exact ⟨related, found, attached⟩
  simp only [each]

theorem attach_required_single (rows : List Document) :
    collections.attach list [(included, { on, required := true, includes := nested })] rows =
      (collections.attach list [(included, { on, includes := nested })] rows).map
        (List.filter (Document.hasRelated included)) := by
  have same : collections.attachOne list included { on, required := true, includes := nested } =
      collections.attachOne list included { on, includes := nested } :=
    attachOne_required included { on, includes := nested } true
  rw [attach_single, attach_single_optional rfl, same]
  rfl

theorem holdsAnswer_of_attach
    (joined : collections.attach list [(included, { on, includes := nested })] rows = .ok answers) :
    List.Forall₂ (HoldsAnswer collections list included { on, includes := nested }) rows answers := by
  rw [attach_single_optional rfl, attachOne_eq_ok_iff] at joined
  refine joined.imp ?_
  rintro row answer ⟨related, looked, rfl⟩
  refine ⟨related, related_eq_find included _ row ▸ looked, rfl, ?_⟩
  rw [Document.hasRelated_attachRelated, Document.attachRelated, Fields.get?_insert_self]
  simp

/-- Includes within includes compose. What an include attaches with includes of its own, to any depth,
is what it attaches alone with those attached to it in turn; it succeeds exactly if all of that does. If
the include is required, exactly the rows are dropped whose array is empty in the end, and so also those
whose related rows are all dropped by what is required of them. -/
theorem nested_includes_compose (collections : Collections) (list included : String)
    (on : List (String × String)) (nested : Includes) (rows : List Document) :
    (∀ answers,
      collections.attach list [(included, { on, includes := nested })] rows = .ok answers ↔
        ∃ plain, collections.attach list [(included, { on })] rows = .ok plain ∧
          List.Forall₂ (JoinsWithin collections included nested) plain answers) ∧
    collections.attach list [(included, { on, required := true, includes := nested })] rows =
      (collections.attach list [(included, { on, includes := nested })] rows).map
        (List.filter (Document.hasRelated included)) ∧
    ∀ answers, collections.attach list [(included, { on, includes := nested })] rows = .ok answers →
      List.Forall₂ (HoldsAnswer collections list included { on, includes := nested }) rows answers :=
  ⟨fun _ => attach_nested_eq_ok_iff, attach_required_single rows, fun _ => holdsAnswer_of_attach⟩

/-! Users with those of their messages that have notes. The message of the second user has none. -/

private def annotatedLists : Collections :=
  ((∅ : Collections).insert "messages"
      [[("id", .int32 5), ("users_id", .int32 1)], [("id", .int32 6), ("users_id", .int64 2)]]).insert
    "notes" [[("id", .int32 7), ("messages_id", .int32 5)]]

private def annotatedUsers : List Document :=
  [[("id", .int32 1)], [("id", .int32 2)]]

private def withNotes : Includes :=
  [("notes", { required := true })]

private def annotatedMessage : Value :=
  .document [("id", .int32 5), ("users_id", .int32 1),
    ("notes", .array [.document [("id", .int32 7), ("messages_id", .int32 5)]])]

private def annotatedAnswers : List Document :=
  [[("id", .int32 1), ("messages", .array [annotatedMessage])],
    [("id", .int32 2), ("messages", .array [])]]

theorem user_without_annotated_messages_is_dropped :
    annotatedLists.attach "users" [("messages", { includes := withNotes })] annotatedUsers =
        .ok annotatedAnswers ∧
      (∃ plain, annotatedLists.attach "users" [("messages", {})] annotatedUsers = .ok plain ∧
        List.Forall₂ (JoinsWithin annotatedLists "messages" withNotes) plain annotatedAnswers) ∧
      annotatedLists.attach "users" [("messages", { required := true, includes := withNotes })]
        annotatedUsers = .ok (annotatedAnswers.take 1) ∧
      List.Forall₂ (HoldsAnswer annotatedLists "users" "messages" { includes := withNotes })
        annotatedUsers annotatedAnswers := by
  have joined : annotatedLists.attach "users" [("messages", { includes := withNotes })]
      annotatedUsers = .ok annotatedAnswers := rfl
  have compose := nested_includes_compose annotatedLists "users" "messages" [] withNotes annotatedUsers
  refine ⟨joined, (compose.1 _).mp joined, ?_, compose.2.2 _ joined⟩
  rw [compose.2.1, joined]
  rfl

end DocStore.Collections

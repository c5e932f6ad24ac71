import DocStore.Proofs.Join.Rows
import DocStore.Proofs.Query.Includes

/-!
The order of includes. An include looks at a few fields of a row and sets one. As long as none sets a
field that another looks at, all of them see the row as it was, and the rows that come out are the
same in whichever order the lists are attached.
-/

namespace DocStore

/-! ## What an include looks at -/

/-- The fields of a row that decide which rows of an included list belong to it. -/
def Include.reads (included : String) (spec : Include) : List String :=
  Document.idKey :: Document.foreignKey included :: spec.on.map Prod.fst

/-- No included list has the name of a field that the include of another list looks at. -/
def Includes.Independent (includes : Includes) : Prop :=
  ∀ entry ∈ includes, ∀ other ∈ includes, entry.1 ≠ other.1 →
    entry.1 ∉ Include.reads other.1 other.2

instance (includes : Includes) : Decidable includes.Independent :=
  inferInstanceAs (Decidable (∀ entry ∈ includes, ∀ other ∈ includes, entry.1 ≠ other.1 →
    entry.1 ∉ Include.reads other.1 other.2))

theorem joinPredicate_congr (list : String) {included : String} {spec : Include}
    {row other : Document}
    (same : ∀ key ∈ spec.reads included, row.get? key = other.get? key) :
    joinPredicate list included spec row = joinPredicate list included spec other := by
  have reference := same (Document.foreignKey included) (by simp [Include.reads])
  have own := same Document.idKey (by simp [Include.reads])
  have rule : JoinRule.of included spec row = JoinRule.of included spec other := by
    rw [JoinRule.of, JoinRule.of, reference]
  rw [joinPredicate, joinPredicate, rule]
  cases JoinRule.of included spec other with
  | explicit =>
      refine congrArg (fun conditions => ({ conditions } : Predicate)) (List.map_congr_left ?_)
      rintro ⟨localField, foreignField⟩ member
      have field := same localField
        (List.mem_cons_of_mem _ (List.mem_cons_of_mem _ (List.mem_map_of_mem member)))
      simp only [Document.joinValue, field]
  | belongsTo => simp only [Document.joinValue, reference]
  | hasMany => simp only [Document.id?, own]

theorem Includes.Independent.of_cons {entry : String × Include} {includes : Includes}
    (independent : Includes.Independent (entry :: includes)) : includes.Independent :=
  fun first member second also =>
    independent first (List.mem_cons_of_mem entry member) second (List.mem_cons_of_mem entry also)

namespace Collections

variable {collections : Collections} {list : String}

theorem related_congr {included : String} {spec : Include} {row other : Document}
    (same : ∀ key ∈ spec.reads included, row.get? key = other.get? key) :
    collections.related list included row spec = collections.related list included other spec := by
  rw [related_eq_find, related_eq_find, joinPredicate_congr list same]

/-! ## All includes at once -/

def relatedOrEmpty (collections : Collections) (list : String) (row : Document)
    (entry : String × Include) : List Document :=
  (collections.related list entry.1 row entry.2).toOption.getD []

def joinedField (collections : Collections) (list : String) (row : Document)
    (entry : String × Include) : String × Value :=
  (entry.1, .array ((relatedOrEmpty collections list row entry).map Value.document))

/-- Whether a row has the related rows that an include requires. -/
def isServed (collections : Collections) (list : String) (row : Document)
    (entry : String × Include) : Bool :=
  !entry.2.required || !(relatedOrEmpty collections list row entry).isEmpty

end Collections

theorem Document.hasRelated_attachRelated (included : String) (related : List Document)
    (row : Document) : (row.attachRelated included related).hasRelated included = !related.isEmpty := by
  rw [hasRelated, attachRelated, Fields.get?_insert_self]
  simp

theorem Include.keep_attachRelated (spec : Include) (included : String) (related : List Document)
    (row : Document) :
    spec.keep included [row.attachRelated included related] =
      if !spec.required || !related.isEmpty then [row.attachRelated included related] else [] := by
  rw [keep, List.filter_singleton, Document.hasRelated_attachRelated]
  cases spec.required with
  | false => rfl
  | true => simp

namespace Collections

variable {collections : Collections} {list : String}

section

variable {entry other : String × Include} {includes : Includes}
  (distinct : (Fields.keys (entry :: includes)).Nodup)
  (independent : Includes.Independent (entry :: includes))

include distinct independent

theorem relatedOrEmpty_attachRelated (member : other ∈ includes) (row : Document)
    (found : List Document) :
    relatedOrEmpty collections list (row.attachRelated entry.1 found) other =
      relatedOrEmpty collections list row other := by
  have different : entry.1 ≠ other.1 := fun same =>
    (List.nodup_cons.mp distinct).1 (same ▸ List.mem_map_of_mem member)
  have unread := independent entry List.mem_cons_self other (List.mem_cons_of_mem entry member)
    different
  rw [relatedOrEmpty, relatedOrEmpty, related_congr]
  intro key read
  exact row.get?_attachRelated_other found fun same => unread (same ▸ read)

theorem all_isServed_attachRelated (row : Document) (found : List Document) :
    includes.all (isServed collections list (row.attachRelated entry.1 found)) =
      includes.all (isServed collections list row) := by
  rw [Bool.eq_iff_iff, List.all_eq_true, List.all_eq_true]
  refine forall₂_congr fun other member => ?_
  rw [isServed, isServed, relatedOrEmpty_attachRelated distinct independent member]

theorem map_joinedField_attachRelated (row : Document) (found : List Document) :
    includes.map (joinedField collections list (row.attachRelated entry.1 found)) =
      includes.map (joinedField collections list row) := by
  refine List.map_congr_left fun other member => ?_
  rw [joinedField, joinedField, relatedOrEmpty_attachRelated distinct independent member]

end

theorem attach_row_eq {includes : Includes} {row : Document} {answers : List Document}
    (distinct : includes.keys.Nodup) (independent : includes.Independent)
    (joined : collections.attach list includes [row] = .ok answers) :
    answers =
      if includes.all (isServed collections list row) then
        [row.insertAll (includes.map (joinedField collections list row))]
      else [] := by
  induction includes generalizing row with
  | nil =>
      cases joined
      rfl
  | cons entry includes induction =>
      rcases attach_cons_row_eq_ok_iff.mp joined with ⟨found, looked, rest⟩
      have own : relatedOrEmpty collections list row entry = found := by
        rw [relatedOrEmpty, looked]
        rfl
      rw [Include.keep_attachRelated] at rest
      rw [List.all_cons, isServed, own]
      split at rest
      · next served =>
        have later := induction (List.nodup_cons.mp distinct).2 independent.of_cons rest
        rw [later, all_isServed_attachRelated distinct independent,
          map_joinedField_attachRelated distinct independent, served, Bool.true_and, List.map_cons,
          joinedField, own]
        rfl
      · next dropped =>
        rw [attach_no_rows] at rest
        cases rest
        rw [Bool.eq_false_iff.mpr dropped, Bool.false_and]
        rfl

/-- Includes do not interact. In whichever order they are attached, if both orders succeed, the same
rows come out in the same order, each with the same fields. -/
theorem attach_perm {includes others : Includes} {rows answers otherAnswers : List Document}
    (distinct : includes.keys.Nodup) (independent : includes.Independent)
    (same : includes.Perm others)
    (joined : collections.attach list includes rows = .ok answers)
    (otherJoined : collections.attach list others rows = .ok otherAnswers) :
    List.Forall₂ List.Perm answers otherAnswers := by
  induction rows generalizing answers otherAnswers with
  | nil =>
      rw [attach_no_rows] at joined otherJoined
      cases joined
      cases otherJoined
      exact .nil
  | cons row rows induction =>
      rcases attach_cons_rows_eq_ok_iff.mp joined with ⟨first, rest, here, later, rfl⟩
      rcases attach_cons_rows_eq_ok_iff.mp otherJoined with
        ⟨otherFirst, otherRest, otherHere, otherLater, rfl⟩
      refine List.rel_append ?_ (induction later otherLater)
      have distinctOthers : others.keys.Nodup := (same.map Prod.fst).nodup_iff.mp distinct
      have independentOthers : others.Independent := fun entry member other also =>
        independent entry (same.mem_iff.mpr member) other (same.mem_iff.mpr also)
      rw [attach_row_eq distinct independent here,
        attach_row_eq distinctOthers independentOthers otherHere, same.all_eq]
      split
      · have names : Fields.keys (includes.map (joinedField collections list row)) =
            Fields.keys includes := List.map_map
        have fields := Fields.insertAll_perm row
          (same.map (joinedField collections list row)) (names ▸ distinct)
        exact .cons fields .nil
      · exact .nil

/-! Messages with their users, which are required, and with the notes of the same label, which have users
of their own. The second message has no user. -/

private def taggedLists : Collections :=
  ((∅ : Collections).insert "users" [[("id", .int32 2)]]).insert "notes"
    [[("id", .int32 7), ("label", .string "a")], [("id", .int32 8), ("label", .string "b")]]

private def taggedMessages : List Document :=
  [[("id", .int32 1), ("users_id", .int64 2), ("tag", .string "a")],
    [("id", .int32 3), ("users_id", .int64 9), ("tag", .string "b")]]

private def usersFirst : Includes :=
  [("users", { required := true }),
    ("notes", { on := [("tag", "label")], includes := [("users", {})] })]

private def messageWith (fields : Fields Value) : Document :=
  [("id", .int32 1), ("users_id", .int64 2), ("tag", .string "a")] ++ fields

private def itsUser : String × Value :=
  ("users", .array [.document [("id", .int32 2)]])

private def itsNote : String × Value :=
  ("notes", .array [.document [("id", .int32 7), ("label", .string "a"), ("users", .array [])]])

theorem message_with_user_and_note_in_either_order :
    usersFirst.keys.Nodup ∧ usersFirst.Independent ∧ usersFirst.Perm usersFirst.reverse ∧
      taggedLists.attach "messages" usersFirst taggedMessages =
        .ok [messageWith [itsUser, itsNote]] ∧
      taggedLists.attach "messages" usersFirst.reverse taggedMessages =
        .ok [messageWith [itsNote, itsUser]] ∧
      List.Forall₂ List.Perm [messageWith [itsUser, itsNote]] [messageWith [itsNote, itsUser]] := by
  have distinct : usersFirst.keys.Nodup := by decide
  have independent : usersFirst.Independent := by decide
  have same : usersFirst.Perm usersFirst.reverse := (List.reverse_perm usersFirst).symm
  have joined : taggedLists.attach "messages" usersFirst taggedMessages =
      .ok [messageWith [itsUser, itsNote]] := rfl
  have otherJoined : taggedLists.attach "messages" usersFirst.reverse taggedMessages =
      .ok [messageWith [itsNote, itsUser]] := rfl
  exact ⟨distinct, independent, same, joined, otherJoined,
    attach_perm distinct independent same joined otherJoined⟩

end Collections

end DocStore

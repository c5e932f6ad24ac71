import DocStore.Proofs.Join.Rows
import DocStore.Proofs.Query.Includes

/-!
Pages of joined rows. Whether the page is cut before or after the join, and however many rows an
include drops on the way, the answer to a query is a page of the rows that have what they need.
-/

namespace DocStore

/-! ## Queries that ask for everything -/

namespace Query

/-- The query without its page, and with no include required. -/
def unrestricted (query : Query) : Query :=
  { query with includes := query.includes.optional, limit := none, offset := none }

theorem page_eq_take (query : Query) (rows : List Document) :
    query.page rows =
      (rows.drop (query.offset.getD 0)).take
        (query.limit.getD (rows.drop (query.offset.getD 0)).length) := by
  rw [page]
  cases query.limit with
  | none => exact (List.take_length).symm
  | some limit => rfl

end Query

namespace Collections

variable {collections : Collections} {list : String}

/-! ## Joins that drop rows -/

theorem attach_of_attach_optional {includes : Includes} {rows answers : List Document}
    (distinct : includes.keys.Nodup)
    (joined : collections.attach list includes.optional rows = .ok answers) :
    collections.attach list includes rows = .ok (answers.filter includes.satisfied) := by
  induction includes generalizing rows with
  | nil =>
      have all : answers.filter (Includes.satisfied []) = answers :=
        List.filter_eq_self.mpr fun _ _ => rfl
      rw [all]
      exact joined
  | cons entry includes induction =>
      rcases entry with ⟨included, spec⟩
      have parts := List.nodup_cons.mp distinct
      have fresh : included ∉ Fields.keys includes := parts.1
      rcases attach_cons_eq_ok_iff.mp joined with ⟨found, attached, rest⟩
      rw [Include.optional, attachOne_required] at attached
      rw [Include.keep_of_not_required rfl] at rest
      have remaining := induction parts.2 rest
      refine attach_cons_eq_ok_iff.mpr ⟨found, attached, ?_⟩
      cases required : spec.required with
      | false =>
          have same : Includes.satisfied ((included, spec) :: includes) =
              Includes.satisfied includes := by
            funext row
            simp [Includes.satisfied_cons, required]
          rw [Include.keep_of_not_required required, same]
          exact remaining
      | true =>
          -- What is attached later leaves the array alone, so that the row may be judged at the end.
          have stable : ∀ row found, collections.attach list includes [row] = .ok found →
              ∀ answer ∈ found, answer.hasRelated included = row.hasRelated included :=
            fun row found joined answer member =>
              Document.hasRelated_congr (get?_of_mem_attach joined member fresh)
          have kept := attach_filter stable remaining
          have both : Includes.satisfied ((included, spec) :: includes) = fun row =>
              row.hasRelated included && Includes.satisfied includes row := by
            funext row
            simp [Includes.satisfied_cons, required]
          rw [List.filter_filter] at kept
          rw [Include.keep, if_pos required, both]
          exact kept

theorem attach_page {includes : Includes} {rows answers : List Document}
    (optional : includes.hasRequired = false)
    (joined : collections.attach list includes rows = .ok answers) (query : Query) :
    collections.attach list includes (query.page rows) = .ok (query.page answers) := by
  have behind := (attach_take_drop optional joined (query.offset.getD 0)).2
  unfold Query.page
  cases query.limit with
  | none => exact behind
  | some limit => exact (attach_take_drop optional behind limit).1

/-! ## Answers -/

theorem find_eq_ok_iff {query : Query} {answers : List Document} :
    collections.find list query = .ok answers ↔
      ∃ rows, collections.selected list query = .ok rows ∧
        if query.includes.hasRequired then
          ∃ joined, collections.attach list query.includes rows = .ok joined ∧
            query.page joined = answers
        else collections.attach list query.includes (query.page rows) = .ok answers := by
  refine Outcome.bind_eq_ok_iff.trans (exists_congr fun rows => and_congr_right fun _ => ?_)
  cases query.includes.hasRequired with
  | false => rfl
  | true =>
      refine Outcome.bind_eq_ok_iff.trans ?_
      simp only [Outcome.pure_eq_ok_iff, if_true]

/-- A query that can be answered without its page and with no include required can be answered. The
answer is the page of the rows that have what is required of them. -/
theorem find_of_find_unrestricted {query : Query} {answers : List Document}
    (distinct : query.includes.keys.Nodup)
    (found : collections.find list query.unrestricted = .ok answers) :
    collections.find list query = .ok (query.page (answers.filter query.includes.satisfied)) := by
  rcases find_eq_ok_iff.mp found with ⟨rows, selection, rest⟩
  have joined : collections.attach list query.includes.optional rows = .ok answers := by
    have optional : query.unrestricted.includes.hasRequired = false :=
      Includes.hasRequired_optional query.includes
    rw [if_neg (by simp [optional])] at rest
    exact rest
  have restricted := attach_of_attach_optional distinct joined
  refine find_eq_ok_iff.mpr ⟨rows, selection, ?_⟩
  cases required : query.includes.hasRequired with
  | true => exact ⟨_, restricted, rfl⟩
  | false => exact attach_page required restricted query

/-- With a page or without, and with required includes or without, a query is answered from the
same joined rows: those of the query that asks for everything, without the ones that lack what is
required of them. -/
theorem find_and_findOne_of_find_unrestricted {query : Query} {rows : List Document}
    (distinct : query.includes.keys.Nodup)
    (found : collections.find list query.unrestricted = .ok rows) :
    let kept := (rows.filter query.includes.satisfied).drop (query.offset.getD 0)
    collections.find list query = .ok (kept.take (query.limit.getD kept.length)) ∧
      collections.findOne list query = .ok kept.head? := by
  intro kept
  have page := find_of_find_unrestricted distinct found
  have one : collections.find list { query with limit := some 1 } = .ok (kept.take 1) :=
    find_of_find_unrestricted distinct found
  constructor
  · rw [page, Query.page_eq_take]
  · rw [findOne]
    rw [one]
    exact congrArg Except.ok (List.head?_take.trans (if_neg Nat.one_ne_zero))

/-! The rows of the second and third user have messages. Behind the offset is the third. -/

private def exampleLists : Collections :=
  ((∅ : Collections).insert "users"
    [[("id", .int32 1)], [("id", .int32 2)], [("id", .int32 3)]]).insert "messages"
    [[("id", .int32 7), ("users_id", .int32 2)], [("id", .int32 8), ("users_id", .int64 3)]]

private def exampleQuery : Query where
  includes := [("messages", { required := true })]
  limit := some 1
  offset := some 1

private def exampleRows : List Document :=
  [[("id", .int32 1), ("messages", .array [])],
    [("id", .int32 2),
      ("messages", .array [.document [("id", .int32 7), ("users_id", .int32 2)]])],
    [("id", .int32 3),
      ("messages", .array [.document [("id", .int32 8), ("users_id", .int64 3)]])]]

theorem findOne_second_user_with_messages :
    exampleQuery.includes.keys.Nodup ∧
      exampleLists.find "users" exampleQuery.unrestricted = .ok exampleRows ∧
      exampleLists.find "users" exampleQuery = .ok (exampleRows.drop 2) ∧
      exampleLists.findOne "users" exampleQuery = .ok exampleRows[2]? := by
  have distinct : exampleQuery.includes.keys.Nodup := by decide
  have found : exampleLists.find "users" exampleQuery.unrestricted = .ok exampleRows := rfl
  exact ⟨distinct, found, find_and_findOne_of_find_unrestricted distinct found⟩

end Collections

end DocStore

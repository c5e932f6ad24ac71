import DocStore.Proofs.Join.Rows
import DocStore.Proofs.Query.Selection
import DocStore.Proofs.Value.Equality
import DocStore.Proofs.Value.NonNull

/-!
Joins by convention, where an include names no fields. A row with a reference to the included list
belongs to the row there that has the identifier; any other row has the rows there that refer to it.

The main statement is that the two relations are each other's inverse.
-/

namespace DocStore

open Document

variable {collections : Collections} {list included : String} {row : Document}

/-! ## Predicates -/

theorem joinPredicate_of_reference {id : Value}
    (refers : row.nonNull? (foreignKey included) = some id) :
    joinPredicate list included {} row = .fieldEquals idKey id := by
  have held := nonNull?_eq_some_iff.mp refers
  have rule : JoinRule.of included {} row = .belongsTo := by
    rw [JoinRule.of, if_neg (by simp), held.1]
    cases id with
    | null => exact absurd rfl held.2
    | _ => rfl
  rw [joinPredicate, rule, joinValue, held.1]
  rfl

theorem joinPredicate_of_no_reference (free : row.nonNull? (foreignKey included) = none) :
    joinPredicate list included {} row =
      .fieldEquals (foreignKey list) (row.id?.getD .null) := by
  have rule : JoinRule.of included {} row = .hasMany := by
    rw [JoinRule.of, if_neg (by simp)]
    cases held : row.get? (foreignKey included) with
    | none => rfl
    | some value => rw [eq_null_of_nonNull?_eq_none free held]
  rw [joinPredicate, rule]

namespace Collections

/-! ## Related rows -/

/-- The related rows of an include that names neither fields nor further includes. -/
def relatedByConvention (list included : String) (others : List Document) (row : Document) :
    List Document :=
  (joinPredicate list included {} row).select others

theorem related_eq_ok {others : List Document} (found : collections[included]? = some others)
    (row : Document) :
    collections.related list included row {} =
      .ok (relatedByConvention list included others row) := by
  rw [related, documents_eq_ok_iff.mpr found]
  rfl

theorem find_by_convention {rows others : List Document} (found : collections[list]? = some rows)
    (foundIncluded : collections[included]? = some others) {filter : Predicate}
    (checked : filter.checkPatterns = .ok ()) :
    collections.find list { filter, includes := [(included, {})] } =
      .ok ((filter.select rows).map fun row =>
        row.attachRelated included (relatedByConvention list included others row)) := by
  have attached : collections.attachOne list included {} (filter.select rows) =
      .ok ((filter.select rows).map fun row =>
        row.attachRelated included (relatedByConvention list included others row)) := by
    rw [attachOne]
    simp only [related_eq_ok foundIncluded]
    exact List.mapM_pure
  rw [find, selected_unordered found checked rfl]
  exact attach_cons_eq_ok_iff.mpr ⟨_, attached, rfl⟩

variable {others : List Document} {other : Document} {id : Value}

theorem mem_related_of_reference_iff (refers : row.nonNull? (foreignKey included) = some id) :
    other ∈ relatedByConvention list included others row ↔
      other ∈ others ∧ (other.get? idKey).any (·.equals id) = true := by
  rw [relatedByConvention, joinPredicate_of_reference refers, Predicate.mem_select_fieldEquals_iff]

theorem mem_related_of_no_reference_iff (free : row.nonNull? (foreignKey included) = none)
    (has : row.id? = some id) :
    other ∈ relatedByConvention list included others row ↔
      other ∈ others ∧ (other.get? (foreignKey list)).any (·.equals id) = true := by
  rw [relatedByConvention, joinPredicate_of_no_reference free, has,
    Predicate.mem_select_fieldEquals_iff]
  rfl

/-- A row of one list has a row of another, or of the same, exactly if that one belongs to it: each is
among the rows that a query with the other list attaches to the other. -/
theorem has_iff_belongs {owners members : List Document} {position place : Nat}
    {owner member : Document} (foundOwners : collections[list]? = some owners)
    (foundMembers : collections[included]? = some members)
    (atPosition : owners[position]? = some owner) (atPlace : members[place]? = some member)
    (identified : owner.id? ≠ none) (free : owner.nonNull? (foreignKey included) = none)
    (refers : member.nonNull? (foreignKey list) ≠ none) :
    ∃ withMembers withOwners ownMembers ownOwners,
      collections.find list { includes := [(included, {})] } = .ok withMembers ∧
        collections.find included { includes := [(list, {})] } = .ok withOwners ∧
        withMembers[position]? = some (owner.attachRelated included ownMembers) ∧
        withOwners[place]? = some (member.attachRelated list ownOwners) ∧
        (member ∈ ownMembers ↔ owner ∈ ownOwners) := by
  rcases Option.ne_none_iff_exists'.mp identified with ⟨id, has⟩
  rcases Option.ne_none_iff_exists'.mp refers with ⟨reference, holds⟩
  refine ⟨_, _, relatedByConvention list included members owner,
    relatedByConvention included list owners member, find_by_convention foundOwners foundMembers rfl,
    find_by_convention foundMembers foundOwners rfl, ?_, ?_, ?_⟩
  · rw [Predicate.select_empty, List.getElem?_map, atPosition]
    rfl
  · rw [Predicate.select_empty, List.getElem?_map, atPlace]
    rfl
  · rw [mem_related_of_no_reference_iff free has, mem_related_of_reference_iff holds,
      (nonNull?_eq_some_iff.mp holds).1, (nonNull?_eq_some_iff.mp has).1, Option.any_some,
      Option.any_some, Value.equals_comm]
    have inMembers := List.mem_of_getElem? atPlace
    have inOwners := List.mem_of_getElem? atPosition
    simp only [inMembers, inOwners, true_and]

/-! A list that is joined with itself. The second row refers to the first by an integer of another
type. -/

private def chief : Document :=
  [("id", .int32 1)]

private def assistant : Document :=
  [("id", .int32 2), ("staff_id", .int64 1)]

private def staff : Collections :=
  (∅ : Collections).insert "staff" [chief, assistant]

theorem chief_has_assistant_iff_assistant_belongs :
    staff["staff"]? = some [chief, assistant] ∧ chief.id? ≠ none ∧
      chief.nonNull? (foreignKey "staff") = none ∧ assistant.nonNull? (foreignKey "staff") ≠ none ∧
      staff.find "staff" { includes := [("staff", {})] } =
        .ok [chief.attachRelated "staff" [assistant], assistant.attachRelated "staff" [chief]] ∧
      ∃ withMembers withOwners ownMembers ownOwners,
        staff.find "staff" { includes := [("staff", {})] } = .ok withMembers ∧
          staff.find "staff" { includes := [("staff", {})] } = .ok withOwners ∧
          withMembers[0]? = some (chief.attachRelated "staff" ownMembers) ∧
          withOwners[1]? = some (assistant.attachRelated "staff" ownOwners) ∧
          (assistant ∈ ownMembers ↔ chief ∈ ownOwners) := by
  have found : staff["staff"]? = some [chief, assistant] := rfl
  have identified : chief.id? ≠ none := Option.some_ne_none _
  have free : chief.nonNull? (foreignKey "staff") = none := rfl
  have refers : assistant.nonNull? (foreignKey "staff") ≠ none := Option.some_ne_none _
  exact ⟨found, identified, free, refers, rfl,
    has_iff_belongs found found rfl rfl identified free refers⟩

end Collections

end DocStore

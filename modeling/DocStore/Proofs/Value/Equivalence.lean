import DocStore.Proofs.Number.Exact
import DocStore.Proofs.Value.Equality

/-!
Equality of values is an equivalence apart from NaNs. A value equals itself if no NaN occurs in it; at
every depth, documents are equal if they have equal values under the same keys in whatever order, arrays
if their items are equal one by one, and numbers of all types if their exact values are the same.
-/

namespace DocStore.Value

/-! ## The parts of equal values -/

theorem equals_document_iff {fields others : Document} :
    (Value.document fields).equals (.document others) = true ↔
      ∀ key, Option.Rel (fun value other => value.equals other = true)
        (Fields.get? fields key) (Fields.get? others key) :=
  agrees_document_iff

theorem equals_array_iff {items others : List Value} :
    (Value.array items).equals (.array others) = true ↔
      List.Forall₂ (fun item other => item.equals other = true) items others :=
  itemsAgree_iff_forall₂

theorem equals_document_of_perm {fields others : Document} (same : fields.Perm others)
    (distinct : (Fields.keys fields).Nodup) (value : Value) :
    (Value.document fields).equals value = (Value.document others).equals value := by
  cases value with
  | document thirds =>
      rw [Bool.eq_iff_iff, equals_document_iff, equals_document_iff]
      simp only [Fields.get?_eq_of_perm same distinct]
  | _ => rfl

/-! ## Numbers -/

/-- The exact value of a number of any type. A NaN has none. -/
def exactNumber? : Value → Option ExtendedRational
  | .int32 value => some (value.toInt : ℚ)
  | .int64 value => some (value.toInt : ℚ)
  | .double value => value.exactValue?
  | _ => none

theorem exactNumber?_eq (value : Value) : value.exactNumber? = value.number?.bind Number.exactValue? := by
  cases value with
  | int32 value =>
      rw [exactNumber?, number?, Option.bind_some, Number.exactValue?, Int32.toInt_toInt64]
  | _ => rfl

theorem equals_number_iff {left right : Value} (isNumber : left.number?.isSome = true) :
    left.equals right = true ↔
      ∃ exact, left.exactNumber? = some exact ∧ right.exactNumber? = some exact := by
  obtain ⟨first, held⟩ := Option.isSome_iff_exists.mp isNumber
  rw [exactNumber?_eq, exactNumber?_eq, held]
  cases other : right.number? with
  | none =>
      rw [equals, agrees_of_leaf (hasParts_of_number? held), leafAgrees_byValue_iff, held, other]
      simp
  | some second => simp [equals_of_number? held other, Number.equals_iff_exact]

/-- Equality is symmetric and transitive, and a value equals itself exactly when no NaN occurs in it, be
it in an array, a document or a scope. It asks for equal values under the same keys of documents, whose
order does not count, for equal items of arrays in their order, and for the same exact value of numbers,
whatever their types are. -/
theorem equality_is_equivalence_apart_from_nan :
    (∀ left right : Value, left.equals right = right.equals left) ∧
    (∀ left middle right : Value, left.equals middle = true → middle.equals right = true →
      left.equals right = true) ∧
    (∀ value : Value, value.equals value = true ↔
      ∀ number, OccursIn (.double number) value → number.isNaN = false) ∧
    (∀ fields others : Document, (Value.document fields).equals (.document others) = true ↔
      ∀ key, Option.Rel (fun value other => value.equals other = true)
        (Fields.get? fields key) (Fields.get? others key)) ∧
    (∀ fields others : Document, fields.Perm others → (Fields.keys fields).Nodup →
      ∀ value : Value, (Value.document fields).equals value = (Value.document others).equals value) ∧
    (∀ items others : List Value, (Value.array items).equals (.array others) = true ↔
      List.Forall₂ (fun item other => item.equals other = true) items others) ∧
    ∀ left right : Value, left.number?.isSome = true →
      (left.equals right = true ↔
        ∃ exact, left.exactNumber? = some exact ∧ right.exactNumber? = some exact) := by
  refine ⟨equals_comm, ?_, ?_, ?_, ?_, ?_, ?_⟩
  · intro left middle right first second
    exact equals_trans first second
  · intro value
    exact agrees_self_iff
  · intro fields others
    exact equals_document_iff
  · intro fields others same distinct value
    exact equals_document_of_perm same distinct value
  · intro items others
    exact equals_array_iff
  · intro left right isNumber
    exact equals_number_iff isNumber

private def largeCount : Double :=
  ⟨0x4340000000000000⟩

private def tallyFields : Document :=
  [("count", .int64 9007199254740992), ("marks", .array [.int32 1, .null])]

private def sameTally : Value :=
  .document [("marks", .array [.double ⟨0x3FF0000000000000⟩, .null]), ("count", .double largeCount)]

private def thirdTally : Value :=
  .document [("marks", .array [.int64 1, .null]), ("count", .int64 9007199254740992)]

private def lostTally : Value :=
  .array [.scopedCode "count" [("count", .double .nan)]]

theorem tallies_equal_apart_from_nan :
    ((Value.document tallyFields).equals sameTally = true ∧ sameTally.equals thirdTally = true ∧
        (Value.document tallyFields).equals thirdTally = true) ∧
      lostTally.equals lostTally = false ∧
      (tallyFields.Perm tallyFields.reverse ∧ (Fields.keys tallyFields).Nodup ∧
        (Value.document tallyFields).equals thirdTally =
          (Value.document tallyFields.reverse).equals thirdTally) ∧
      ((Value.int64 9007199254740993).number?.isSome = true ∧
        (Value.int64 9007199254740993).equals (.double largeCount) = false) := by
  obtain ⟨_, trans, self, _, perm, _, number⟩ := equality_is_equivalence_apart_from_nan
  have first : (Value.document tallyFields).equals sameTally = true := by decide +kernel
  have second : sameTally.equals thirdTally = true := by decide +kernel
  have reversed : tallyFields.Perm tallyFields.reverse := (List.reverse_perm tallyFields).symm
  have distinct : (Fields.keys tallyFields).Nodup := by decide
  refine ⟨⟨first, second, trans _ _ _ first second⟩, ?_,
    ⟨reversed, distinct, perm _ _ reversed distinct _⟩, rfl, ?_⟩
  · have found : Fields.get? [("count", Value.double .nan)] "count" = some (.double .nan) := rfl
    have occurs : OccursIn (.double .nan) lostTally := .item List.mem_cons_self (.scope found .here)
    have noNumber : Double.nan.isNaN = true := by decide +kernel
    apply Bool.eq_false_iff.mpr
    intro equal
    rw [(self lostTally).mp equal .nan occurs] at noNumber
    cases noNumber
  · apply Bool.eq_false_iff.mpr
    intro equal
    obtain ⟨exact, integer, double⟩ := (number _ (.double largeCount) rfl).mp equal
    have different : (Value.int64 9007199254740993).exactNumber? ≠
        (Value.double largeCount).exactNumber? := by decide +kernel
    exact different (integer.trans double.symm)

end DocStore.Value

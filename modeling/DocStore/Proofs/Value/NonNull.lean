import DocStore.Proofs.Fields
import DocStore.Value.Equality

/-!
Fields that are not null. Where a document is identified, and where rows refer to each other, a field
that is null counts as missing.
-/

namespace DocStore.Document

variable {document : Document} {key : String}

def nonNull? (document : Document) (key : String) : Option Value :=
  match document.get? key with
  | none | some .null => none
  | some value => some value

theorem nonNull?_eq_some_iff {value : Value} :
    document.nonNull? key = some value ↔ document.get? key = some value ∧ value ≠ .null := by
  rw [nonNull?]
  split
  · next missing => simp [missing]
  · next null =>
    rw [null]
    constructor
    · intro none
      cases none
    · rintro ⟨found, notNull⟩
      cases found
      exact absurd rfl notNull
  · next other notNull found =>
    rw [found]
    constructor
    · intro same
      cases same
      refine ⟨rfl, ?_⟩
      rintro rfl
      exact notNull rfl
    · exact And.left

theorem id?_eq_some_iff {id : Value} :
    document.id? = some id ↔ document.get? idKey = some id ∧ id ≠ .null :=
  nonNull?_eq_some_iff

theorem eq_null_of_nonNull?_eq_none {value : Value} (missing : document.nonNull? key = none)
    (found : document.get? key = some value) : value = .null := by
  rw [nonNull?, found] at missing
  cases value with
  | null => rfl
  | _ => cases missing

/-- Null equals nothing else, so that a missing field and one that is null are alike to a value that is
not null. -/
theorem any_equals_get? {value : Value} (notNull : value ≠ .null) :
    (document.get? key).any (·.equals value) = (document.nonNull? key).any (·.equals value) := by
  cases held : document.nonNull? key with
  | some other => rw [(nonNull?_eq_some_iff.mp held).1]
  | none =>
      cases found : document.get? key with
      | none => rfl
      | some other =>
          rw [eq_null_of_nonNull?_eq_none held found]
          cases value with
          | null => exact absurd rfl notNull
          | _ => rfl

end DocStore.Document

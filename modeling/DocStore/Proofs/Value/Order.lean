import DocStore.Proofs.Value.Equality
import DocStore.Value.Order

/-!
Equal values in the two orders. No value compares otherwise if a value that equals it stands in its
place, neither where ranges are asked for nor where documents are sorted.
-/

namespace DocStore

/-! ## Values of a kind that has an order -/

inductive Scalar.Level : Scalar → Scalar → Prop
  | bool (value : Bool) : Level (.bool value) (.bool value)
  | number {left right : Number} (level : left.Level right) : Level (.number left) (.number right)
  | string (text : String) : Level (.string text) (.string text)
  | dateTime (millis : Int64) : Level (.dateTime millis) (.dateTime millis)

theorem Scalar.Level.refl (scalar : Scalar) : Level scalar scalar := by
  cases scalar with
  | bool value => exact .bool value
  | number number => exact .number ⟨rfl, rfl⟩
  | string text => exact .string text
  | dateTime millis => exact .dateTime millis

theorem Scalar.Level.compare?_eq {left other right another : Scalar} (first : Level left other)
    (second : Level right another) : left.compare? right = other.compare? another := by
  cases first with
  | number level =>
      cases second with
      | number also => exact level.compare?_eq also
      | _ => rfl
  | _ =>
      cases second with
      | _ => rfl

namespace Value

theorem scalar?_of_number? {value : Value} {number : Number} (isNumber : value.number? = some number) :
    value.scalar? = some (.number number) := by
  cases value with
  | int32 _ | int64 _ | double _ =>
      cases isNumber
      rfl
  | _ => cases isNumber

theorem rank_of_number? {value : Value} {number : Number} (isNumber : value.number? = some number) :
    value.rank = 2 := by
  cases value with
  | int32 _ | int64 _ | double _ => rfl
  | _ => cases isNumber

theorem cases_of_equals {left right : Value} (equal : left.equals right = true) :
    left = right ∨
      (∃ first second, left.number? = some first ∧ right.number? = some second ∧
        first.equals second = true) ∨
      (left.scalar? = none ∧ right.scalar? = none ∧ left.rank = right.rank) := by
  cases parts : left.hasParts with
  | true =>
      refine .inr (.inr ?_)
      cases left with
      | array items =>
          cases right with
          | array others => exact ⟨rfl, rfl, rfl⟩
          | _ => cases equal
      | document fields =>
          cases right with
          | document others => exact ⟨rfl, rfl, rfl⟩
          | _ => cases equal
      | scopedCode source scope =>
          cases right with
          | scopedCode otherSource others => exact ⟨rfl, rfl, rfl⟩
          | _ => cases equal
      | _ => cases parts
  | false =>
      rw [equals, agrees_of_leaf parts, leafAgrees_byValue_iff] at equal
      rcases equal with numbers | ⟨noNumber, _, same⟩
      · exact .inr (.inl numbers)
      · rcases eq_or_double_of_sameLeaf same with same | ⟨_, _, rfl, _⟩
        · exact .inl same
        · cases noNumber

/-! ## Values that are the same or equal -/

/-- Values that are the same or equal. A NaN equals nothing, but it is the same as itself. -/
def Alike (left right : Value) : Prop :=
  left = right ∨ left.equals right = true

namespace Alike

variable {left right other another : Value}

theorem symm (alike : Alike left right) : Alike right left := by
  rcases alike with rfl | equal
  · exact .inl rfl
  · exact .inr ((equals_comm right left).trans equal)

theorem equals_of_equals (first : Alike left other) (second : Alike right another)
    (equal : left.equals right = true) : other.equals another = true := by
  have middle : other.equals right = true := by
    rcases first with rfl | first
    · exact equal
    · exact equals_trans ((equals_comm other left).trans first) equal
  rcases second with rfl | second
  · exact middle
  · exact equals_trans middle second

theorem equals_eq (first : Alike left other) (second : Alike right another) :
    left.equals right = other.equals another :=
  Bool.eq_iff_iff.mpr ⟨first.equals_of_equals second, first.symm.equals_of_equals second.symm⟩

theorem scalar? (alike : Alike left right) : Option.Rel Scalar.Level left.scalar? right.scalar? := by
  have same (value : Value) : Option.Rel Scalar.Level value.scalar? value.scalar? := by
    cases value.scalar? with
    | none => exact .none
    | some scalar => exact .some (.refl scalar)
  rcases alike with rfl | equal
  · exact same left
  · rcases cases_of_equals equal with rfl | ⟨first, second, isFirst, isSecond, equal⟩ | ⟨none, none', _⟩
    · exact same left
    · rw [scalar?_of_number? isFirst, scalar?_of_number? isSecond]
      exact .some (.number (Number.level_of_equals equal))
    · rw [none, none']
      exact .none

theorem rank_eq (alike : Alike left right) : left.rank = right.rank := by
  rcases alike with rfl | equal
  · rfl
  · rcases cases_of_equals equal with rfl | ⟨first, second, isFirst, isSecond, _⟩ | ⟨_, _, same⟩
    · rfl
    · rw [rank_of_number? isFirst, rank_of_number? isSecond]
    · exact same

theorem compare?_eq (first : Alike left other) (second : Alike right another) :
    left.compare? right = other.compare? another := by
  have firsts := first.scalar?
  have seconds := second.scalar?
  unfold compare?
  generalize left.scalar? = left, other.scalar? = other at firsts ⊢
  generalize right.scalar? = right, another.scalar? = another at seconds ⊢
  cases firsts with
  | none => rfl
  | some first =>
      cases seconds with
      | none => rfl
      | some second => exact first.compare?_eq second

theorem sortCompare_eq (first : Alike left other) (second : Alike right another) :
    left.sortCompare right = other.sortCompare another := by
  have firsts := first.scalar?
  have seconds := second.scalar?
  unfold sortCompare
  rw [first.rank_eq, second.rank_eq]
  generalize left.scalar? = left, other.scalar? = other at firsts ⊢
  generalize right.scalar? = right, another.scalar? = another at seconds ⊢
  cases firsts with
  | none => rfl
  | some first =>
      cases seconds with
      | none =>
          cases first with
          | _ => rfl
      | some second =>
          cases first with
          | number level =>
              cases second with
              | number also => exact level.sortCompare_eq also
              | _ => rfl
          | _ =>
              cases second with
              | _ => rfl

/-! ## Arguments of a kind that an operator asks for -/

theorem eq_string {text : String} {value : Value} (alike : Alike (.string text) value) :
    value = .string text := by
  rcases alike with rfl | equal
  · rfl
  · cases value with
    | string other => exact congrArg Value.string (beq_iff_eq.mp equal).symm
    | _ => cases equal

theorem exists_eq_array {items : List Value} {value : Value} (alike : Alike (.array items) value) :
    ∃ others, value = .array others ∧ List.Forall₂ Alike items others := by
  rcases alike with rfl | equal
  · exact ⟨items, rfl, List.forall₂_same.mpr fun item _ => .inl rfl⟩
  · cases value with
    | array others =>
        have each := itemsAgree_iff_forall₂.mp equal
        exact ⟨others, rfl, each.imp fun _ _ same => .inr same⟩
    | _ => cases equal

end Alike

end Value

end DocStore

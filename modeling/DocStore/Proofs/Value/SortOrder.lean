import DocStore.Proofs.Value.Order

/-!
The order for sorting is a total preorder. Each value has a sort key, and values compare as their sort keys
do, of which any two that differ have an order. Where range conditions compare two values, the order for
sorting compares them in the same way.
-/

namespace DocStore

/-! ## Sort keys -/

/-- What decides where sorting puts a value: its kind, then whether it is a NaN, then an amount, then a
text. -/
structure SortKey where
  rank : Nat
  isNaN : Bool := false
  amount : Int := 0
  text : String := ""

namespace SortKey

def compare : SortKey → SortKey → Ordering :=
  compareLex (compareOn rank)
    (compareLex (compareOn isNaN) (compareLex (compareOn amount) (compareOn text)))

instance : Std.TransCmp compare :=
  inferInstanceAs (Std.TransCmp (compareLex (compareOn rank)
    (compareLex (compareOn isNaN) (compareLex (compareOn amount) (compareOn text)))))

theorem compare_eq_then (left right : SortKey) : left.compare right =
    (Ord.compare left.rank right.rank).then ((Ord.compare left.isNaN right.isNaN).then
      ((Ord.compare left.amount right.amount).then (Ord.compare left.text right.text))) := rfl

theorem compare_eq_eq_iff {left right : SortKey} : left.compare right = .eq ↔ left = right := by
  cases left
  cases right
  simp [compare_eq_then, Ordering.then_eq_eq]

theorem compare_of_rank_ne {left right : SortKey} (different : left.rank ≠ right.rank) :
    left.compare right = Ord.compare left.rank right.rank := by
  rw [compare_eq_then]
  rcases Nat.lt_or_gt_of_ne different with less | greater
  · rw [Nat.compare_eq_lt.mpr less]
    rfl
  · rw [Nat.compare_eq_gt.mpr greater]
    rfl

end SortKey

def Scalar.sortKey : Scalar → SortKey
  | .bool truth => { rank := 1, amount := truth.toInt }
  | .number value =>
      { rank := 2, isNaN := value.isNaN, amount := if value.isNaN then 0 else value.units }
  | .string text => { rank := 3, text }
  | .dateTime millis => { rank := 4, amount := millis.toInt }

theorem Scalar.rank_sortKey_within (scalar : Scalar) :
    0 < scalar.sortKey.rank ∧ scalar.sortKey.rank < 5 := by
  cases scalar with
  | _ => simp [sortKey]

theorem Number.sortCompare_eq_sortKey (left right : Number) :
    left.sortCompare right = (Scalar.number left).sortKey.compare (Scalar.number right).sortKey := by
  rw [sortCompare, compare?_eq, SortKey.compare_eq_then]
  simp only [Scalar.sortKey]
  cases left.isNaN with
  | true =>
      cases right.isNaN with
      | true => simp
      | false => rfl
  | false =>
      cases right.isNaN with
      | true => rfl
      | false => simp

namespace Value

def sortKey (value : Value) : SortKey :=
  match value.scalar? with
  | some scalar => scalar.sortKey
  | none => { rank := value.rank }

theorem rank_sortKey (value : Value) : value.sortKey.rank = value.rank := by
  cases value with
  | _ => rfl

theorem sortKey_of_scalar? {value : Value} {scalar : Scalar} (held : value.scalar? = some scalar) :
    value.sortKey = scalar.sortKey := by
  rw [sortKey, held]

theorem rank_of_scalar?_eq_none {value : Value} (none : value.scalar? = none) :
    value.rank = 0 ∨ 5 ≤ value.rank := by
  cases value with
  | null => exact .inl rfl
  | bool | int32 | int64 | double | string | dateTime => cases none
  | _ => simp [rank]

theorem rank_ne_of_scalar? {scalar other : Value} (held : scalar.scalar?.isSome = true)
    (none : other.scalar? = none) : scalar.sortKey.rank ≠ other.sortKey.rank := by
  rcases Option.isSome_iff_exists.mp held with ⟨kind, held⟩
  have within := kind.rank_sortKey_within
  have outside := rank_of_scalar?_eq_none none
  rw [sortKey_of_scalar? held, rank_sortKey]
  omega

theorem sortCompare_of_scalars {left right : Value} {first second : Scalar}
    (leftHeld : left.scalar? = some first) (rightHeld : right.scalar? = some second) :
    left.sortCompare right = first.sortKey.compare second.sortKey := by
  unfold sortCompare
  rw [leftHeld, rightHeld, ← rank_sortKey left, ← rank_sortKey right, sortKey_of_scalar? leftHeld,
    sortKey_of_scalar? rightHeld]
  cases first with
  | bool truth =>
      cases second with
      | bool another => cases truth <;> cases another <;> rfl
      | _ => rfl
  | number number =>
      cases second with
      | number another => exact number.sortCompare_eq_sortKey another
      | _ => rfl
  | string text =>
      cases second with
      | string another => simp [SortKey.compare_eq_then, Scalar.sortKey]
      | _ => rfl
  | dateTime millis =>
      cases second with
      | dateTime another => simp [SortKey.compare_eq_then, Scalar.sortKey]
      | _ => rfl

theorem sortCompare_eq_sortKey (left right : Value) :
    left.sortCompare right = left.sortKey.compare right.sortKey := by
  cases first : left.scalar? with
  | none =>
      unfold sortCompare
      rw [first]
      cases second : right.scalar? with
      | none =>
          rw [sortKey, sortKey, first, second]
          simp [SortKey.compare_eq_then]
      | some other =>
          have different := rank_ne_of_scalar? (Option.isSome_of_eq_some second) first
          rw [SortKey.compare_of_rank_ne different.symm, rank_sortKey, rank_sortKey]
  | some scalar =>
      cases second : right.scalar? with
      | none =>
          have different := rank_ne_of_scalar? (Option.isSome_of_eq_some first) second
          rw [SortKey.compare_of_rank_ne different, rank_sortKey, rank_sortKey]
          unfold sortCompare
          rw [first, second]
          cases scalar with
          | _ => rfl
      | some other =>
          rw [sortCompare_of_scalars first second, sortKey_of_scalar? first,
            sortKey_of_scalar? second]

instance : Std.TransCmp sortCompare where
  eq_swap := by
    intro left right
    rw [sortCompare_eq_sortKey, sortCompare_eq_sortKey]
    exact Std.OrientedCmp.eq_swap
  isLE_trans := by
    intro left middle right first second
    rw [sortCompare_eq_sortKey] at first second ⊢
    exact Std.TransCmp.isLE_trans first second

theorem sortCompare_eq_eq_iff {left right : Value} :
    left.sortCompare right = .eq ↔ left.sortKey = right.sortKey := by
  rw [sortCompare_eq_sortKey, SortKey.compare_eq_eq_iff]

/-! ## Sorting, equality and ranges -/

theorem sortCompare_of_equals {left right : Value} (equal : left.equals right = true) :
    left.sortCompare right = .eq := by
  rw [← Alike.sortCompare_eq (.inl rfl) (.inr equal)]
  exact Std.ReflCmp.compare_self

end Value

theorem Number.isNaN_of_compare? {left right : Number} {outcome : Ordering}
    (compared : left.compare? right = some outcome) : left.isNaN = false ∧ right.isNaN = false := by
  rw [compare?_eq, Option.ite_none_left_eq_some] at compared
  simpa using compared.1

theorem Number.sortCompare_of_compare? {left right : Number} {outcome : Ordering}
    (compared : left.compare? right = some outcome) : left.sortCompare right = outcome := by
  obtain ⟨leftNumber, rightNumber⟩ := isNaN_of_compare? compared
  rw [sortCompare, leftNumber, rightNumber, compared]
  rfl

theorem Number.equals_of_sortKey {left right : Number} (isNumber : left.isNaN = false)
    (same : (Scalar.number left).sortKey = (Scalar.number right).sortKey) :
    left.equals right = true := by
  have rightNumber : right.isNaN = false := (congrArg SortKey.isNaN same).symm.trans isNumber
  have amounts := congrArg SortKey.amount same
  simp only [Scalar.sortKey, isNumber, rightNumber] at amounts
  exact equals_iff.mpr ⟨isNumber, rightNumber, amounts⟩

namespace Value

def isProperNumber : Value → Bool
  | .int32 _ | .int64 _ => true
  | .double value => !value.isNaN
  | _ => false

/-- Two truth values, two strings, two dates or two numbers, neither of which is a NaN. -/
inductive IsComparable : Value → Value → Prop
  | bool (left right : Bool) : IsComparable (.bool left) (.bool right)
  | number {left right : Value} (isLeft : left.isProperNumber = true)
      (isRight : right.isProperNumber = true) : IsComparable left right
  | string (left right : String) : IsComparable (.string left) (.string right)
  | dateTime (left right : Int64) : IsComparable (.dateTime left) (.dateTime right)

theorem isProperNumber_iff {value : Value} :
    value.isProperNumber = true ↔ ∃ number, value.number? = some number ∧ number.isNaN = false := by
  cases value with
  | int32 | int64 | double => simp [isProperNumber, number?, Number.isNaN]
  | _ => simp [isProperNumber, number?]

theorem compare?_of_number? {left right : Value} {first second : Number}
    (isLeft : left.number? = some first) (isRight : right.number? = some second) :
    left.compare? right = first.compare? second := by
  rw [compare?, scalar?_of_number? isLeft, scalar?_of_number? isRight]
  rfl

theorem sortCompare_of_number? {left right : Value} {first second : Number}
    (isLeft : left.number? = some first) (isRight : right.number? = some second) :
    left.sortCompare right = first.sortCompare second := by
  rw [sortCompare, scalar?_of_number? isLeft, scalar?_of_number? isRight]

theorem isComparable_of_compare? {left right : Value} {outcome : Ordering}
    (compared : left.compare? right = some outcome) : left.IsComparable right := by
  cases left with
  | bool truth =>
      cases right with
      | bool other => exact .bool truth other
      | _ => cases compared
  | string text =>
      cases right with
      | string other => exact .string text other
      | _ => cases compared
  | dateTime millis =>
      cases right with
      | dateTime other => exact .dateTime millis other
      | _ => cases compared
  | int32 | int64 | double =>
      cases right with
      | int32 | int64 | double =>
          rw [compare?_of_number? rfl rfl] at compared
          obtain ⟨leftNumber, rightNumber⟩ := Number.isNaN_of_compare? compared
          exact .number (isProperNumber_iff.mpr ⟨_, rfl, leftNumber⟩)
            (isProperNumber_iff.mpr ⟨_, rfl, rightNumber⟩)
      | _ => cases compared
  | _ => cases compared

theorem compare?_of_isComparable {left right : Value} (comparable : left.IsComparable right) :
    left.compare? right = some (left.sortCompare right) := by
  cases comparable with
  | bool | string | dateTime => rfl
  | number isLeft isRight =>
      obtain ⟨first, isFirst, firstNumber⟩ := isProperNumber_iff.mp isLeft
      obtain ⟨second, isSecond, secondNumber⟩ := isProperNumber_iff.mp isRight
      have compared : first.compare? second = some (compare first.units second.units) := by
        rw [Number.compare?_eq, firstNumber, secondNumber]
        rfl
      rw [compare?_of_number? isFirst isSecond, sortCompare_of_number? isFirst isSecond, compared,
        Number.sortCompare_of_compare? compared]

theorem sortCompare_of_compare? {left right : Value} {outcome : Ordering}
    (compared : left.compare? right = some outcome) : left.sortCompare right = outcome := by
  rw [compare?_of_isComparable (isComparable_of_compare? compared)] at compared
  exact Option.some.inj compared

/-- Null and the values of the kinds that have an order, apart from NaNs. -/
def isOrdered : Value → Bool
  | .null | .bool _ | .int32 _ | .int64 _ | .string _ | .dateTime _ => true
  | .double value => !value.isNaN
  | _ => false

theorem isNaN_of_isOrdered {value : Value} (ordered : value.isOrdered = true) :
    value.isNaN = false := by
  cases value with
  | double value => exact (Bool.not_eq_true' _).mp ordered
  | _ => rfl

theorem equals_of_sortCompare {left right : Value} (ordered : left.isOrdered = true)
    (same : left.sortCompare right = .eq) : left.equals right = true := by
  rw [sortCompare_eq_eq_iff] at same
  have rank : left.rank = right.rank := by rw [← rank_sortKey, same, rank_sortKey]
  cases left with
  | null =>
      cases right with
      | null => rfl
      | _ => cases rank
  | bool truth =>
      cases right with
      | bool other =>
          have amounts : truth.toInt = other.toInt := congrArg SortKey.amount same
          have injective : ∀ first second : Bool, first.toInt = second.toInt → first = second := by
            decide
          exact beq_iff_eq.mpr (injective _ _ amounts)
      | _ => cases rank
  | string text =>
      cases right with
      | string other =>
          have texts : text = other := congrArg SortKey.text same
          exact beq_iff_eq.mpr texts
      | _ => cases rank
  | dateTime millis =>
      cases right with
      | dateTime other =>
          have amounts : millis.toInt = other.toInt := congrArg SortKey.amount same
          exact beq_iff_eq.mpr (Int64.toInt_inj.mp amounts)
      | _ => cases rank
  | int32 | int64 | double =>
      cases right with
      | int32 | int64 | double =>
          rw [equals_of_number? rfl rfl]
          have isNumber := (isNaN_of_number? rfl).trans (isNaN_of_isOrdered ordered)
          exact Number.equals_of_sortKey isNumber same
      | _ => cases rank
  | _ => cases ordered

/-- The order for sorting is a total preorder. Equal values stand beside each other in it, and it agrees
with the order of range conditions wherever that compares two values. A value that is null, a truth value,
a string, a date or a number other than a NaN stands beside equal values only. -/
theorem sorting_order_is_total_preorder :
    (∀ value : Value, value.sortCompare value = .eq) ∧
    (∀ left right : Value, right.sortCompare left = (left.sortCompare right).swap) ∧
    (∀ left middle right : Value, (left.sortCompare middle).isLE = true →
      (middle.sortCompare right).isLE = true → (left.sortCompare right).isLE = true) ∧
    (∀ left right : Value, left.equals right = true → left.sortCompare right = .eq) ∧
    (∀ (left right : Value) (outcome : Ordering), left.compare? right = some outcome →
      left.sortCompare right = outcome) ∧
    ∀ left right : Value, left.isOrdered = true → left.sortCompare right = .eq →
      left.equals right = true := by
  refine ⟨?_, ?_, ?_, ?_, ?_, ?_⟩
  · intro value
    exact Std.ReflCmp.compare_self
  · intro left right
    exact Std.OrientedCmp.eq_swap
  · intro left middle right first second
    exact Std.TransCmp.isLE_trans first second
  · intro left right equal
    exact sortCompare_of_equals equal
  · intro left right outcome compared
    exact sortCompare_of_compare? compared
  · intro left right ordered same
    exact equals_of_sortCompare ordered same

private def evenCount : Value :=
  .double ⟨0x4340000000000000⟩

private def oddCount : Value :=
  .int64 9007199254740993

theorem large_counts_in_sorting_order :
    ((evenCount.sortCompare oddCount).isLE = true ∧
        (oddCount.sortCompare (.double .nan)).isLE = true ∧
        (evenCount.sortCompare (.double .nan)).isLE = true) ∧
      ((Value.int64 9007199254740992).equals evenCount = true ∧
        (Value.int64 9007199254740992).sortCompare evenCount = .eq) ∧
      (oddCount.compare? evenCount = some .gt ∧ oddCount.sortCompare evenCount = .gt) ∧
      (evenCount.isOrdered = true ∧ evenCount.sortCompare (.int64 9007199254740992) = .eq ∧
        evenCount.equals (.int64 9007199254740992) = true) := by
  obtain ⟨_, _, trans, equals, ranges, ordered⟩ := sorting_order_is_total_preorder
  have first : (evenCount.sortCompare oddCount).isLE = true := by decide +kernel
  have last : (oddCount.sortCompare (.double .nan)).isLE = true := by decide +kernel
  have same : (Value.int64 9007199254740992).equals evenCount = true := by decide +kernel
  have greater : oddCount.compare? evenCount = some .gt := by decide +kernel
  have isOrdered : evenCount.isOrdered = true := by decide +kernel
  have level : evenCount.sortCompare (.int64 9007199254740992) = .eq := by decide +kernel
  exact ⟨⟨first, last, trans _ _ _ first last⟩, ⟨same, equals _ _ same⟩,
    ⟨greater, ranges _ _ _ greater⟩, isOrdered, level, ordered _ _ isOrdered level⟩

end Value

end DocStore

import DocStore.Predicate.Basic
import DocStore.Proofs.Query.Sorting

/-!
Ranges of sorted documents. Range conditions on a field compare its values as sorting by the field does,
so the documents within a range, of whatever kinds its bounds are, stand together when documents are sorted
by the field.
-/

namespace DocStore

/-! ## Values that ranges compare -/

theorem SortKey.rank_le_of_isLE {left right : SortKey} (before : (left.compare right).isLE = true) :
    left.rank ≤ right.rank := by
  rw [compare_eq_then, Ordering.isLE_then_iff_or] at before
  rcases before with less | ⟨same, _⟩
  · exact Nat.le_of_lt (Nat.compare_eq_lt.mp less)
  · exact Nat.le_of_eq (Nat.compare_eq_eq.mp same)

theorem SortKey.isNaN_of_isLE {left right : SortKey} (before : (left.compare right).isLE = true)
    (rank : left.rank = right.rank) (isNumber : right.isNaN = false) : left.isNaN = false := by
  rw [compare_eq_then, rank, compare_eq_iff_eq.mpr rfl, Ordering.eq_then, isNumber] at before
  cases noNumber : left.isNaN with
  | false => rfl
  | true =>
      rw [noNumber] at before
      cases before

namespace Value

theorem isProperNumber_iff_sortKey {value : Value} :
    value.isProperNumber = true ↔ value.rank = 2 ∧ value.sortKey.isNaN = false := by
  cases value with
  | double value =>
      simp [isProperNumber, rank, sortKey, scalar?, Scalar.sortKey, Number.isNaN]
  | int32 | int64 => exact ⟨fun _ => ⟨rfl, rfl⟩, fun _ => rfl⟩
  | _ => simp [isProperNumber, rank]

theorem isComparable_iff {left right : Value} :
    left.IsComparable right ↔
      (left.rank = right.rank ∧ 0 < left.rank ∧ left.rank < 5) ∧
        left.sortKey.isNaN = false ∧ right.sortKey.isNaN = false := by
  constructor
  · intro comparable
    cases comparable with
    | number isLeft isRight =>
        obtain ⟨leftRank, leftNumber⟩ := isProperNumber_iff_sortKey.mp isLeft
        obtain ⟨rightRank, rightNumber⟩ := isProperNumber_iff_sortKey.mp isRight
        refine ⟨⟨leftRank.trans rightRank.symm, ?_, ?_⟩, leftNumber, rightNumber⟩
        · omega
        · omega
    | bool | string | dateTime => simp [rank, sortKey, scalar?, Scalar.sortKey]
  · intro same
    obtain ⟨⟨rank, positive, bounded⟩, leftNumber, rightNumber⟩ := same
    cases left with
    | bool truth =>
        cases right with
        | bool other => exact .bool truth other
        | _ => cases rank
    | string text =>
        cases right with
        | string other => exact .string text other
        | _ => cases rank
    | dateTime millis =>
        cases right with
        | dateTime other => exact .dateTime millis other
        | _ => cases rank
    | int32 | int64 | double =>
        exact .number (isProperNumber_iff_sortKey.mpr ⟨rfl, leftNumber⟩)
          (isProperNumber_iff_sortKey.mpr ⟨rank.symm, rightNumber⟩)
    | null => cases positive
    | _ => simp [Value.rank] at bounded

theorem IsComparable.of_between {first middle last argument : Value}
    (isFirst : first.IsComparable argument) (isLast : last.IsComparable argument)
    (before : (first.sortCompare middle).isLE = true) (after : (middle.sortCompare last).isLE = true) :
    middle.IsComparable argument := by
  rw [isComparable_iff] at isFirst isLast ⊢
  obtain ⟨firstRank, _, argumentNumber⟩ := isFirst
  obtain ⟨lastRank, lastNumber, _⟩ := isLast
  rw [sortCompare_eq_sortKey] at before after
  have above := SortKey.rank_le_of_isLE before
  have below := SortKey.rank_le_of_isLE after
  simp only [rank_sortKey] at above below
  -- Among values of the last one's kind, a NaN would stand behind it.
  have middleNumber : middle.sortKey.isNaN = false := by
    refine SortKey.isNaN_of_isLE after ?_ lastNumber
    rw [rank_sortKey, rank_sortKey]
    omega
  exact ⟨by omega, middleNumber, argumentNumber⟩

theorem equals_of_isComparable {left right : Value} (comparable : left.IsComparable right) :
    left.equals right = (left.sortCompare right == .eq) := by
  have ordered : left.isOrdered = true := by
    cases comparable with
    | bool | string | dateTime => rfl
    | number isLeft =>
        cases left with
        | int32 | int64 => rfl
        | double => exact isLeft
        | _ => cases isLeft
  rw [Bool.eq_iff_iff, beq_iff_eq]
  exact ⟨sortCompare_of_equals, equals_of_sortCompare ordered⟩

theorem not_isComparable_null (argument : Value) : ¬ IsComparable .null argument := by
  intro comparable
  cases comparable with
  | number isLeft => cases isLeft

end Value

/-! ## Range operators -/

namespace Operator

def isRange : Operator → Bool
  | .gt | .gte | .lt | .lte => true
  | _ => false

def outcomes : Operator → List Ordering
  | .gt => [.gt]
  | .gte => [.gt, .eq]
  | .lt => [.lt]
  | .lte => [.lt, .eq]
  | _ => []

theorem holds_of_isRange {operator : Operator} (range : operator.isRange = true)
    (found : Option Value) (argument : Value) :
    operator.holds found argument = comparesAs operator.outcomes found argument := by
  cases operator with
  | gt | gte | lt | lte => rfl
  | _ => cases range

theorem holds_iff_of_isRange {operator : Operator} (range : operator.isRange = true)
    {found : Option Value} {argument : Value} :
    operator.holds found argument = true ↔
      (found.getD .null).IsComparable argument ∧
        (found.getD .null).sortCompare argument ∈ operator.outcomes := by
  rw [holds_of_isRange range]
  cases found with
  | none =>
      constructor
      · exact nofun
      · intro held
        exact absurd held.1 (Value.not_isComparable_null argument)
  | some value =>
      rw [comparesAs, Option.getD_some]
      by_cases comparable : value.IsComparable argument
      · simp [Value.compare?_of_isComparable comparable, comparable]
      · cases compared : value.compare? argument with
        | none => simp [comparable]
        | some outcome => exact absurd (Value.isComparable_of_compare? compared) comparable

/-- The outcomes that a range operator allows leave no gap. -/
theorem mem_outcomes_of_between {operator : Operator} (range : operator.isRange = true)
    {first middle last argument : Value} (before : (first.sortCompare middle).isLE = true)
    (after : (middle.sortCompare last).isLE = true)
    (isFirst : first.sortCompare argument ∈ operator.outcomes)
    (isLast : last.sortCompare argument ∈ operator.outcomes) :
    middle.sortCompare argument ∈ operator.outcomes := by
  cases operator with
  | gt =>
      rw [outcomes, List.mem_singleton] at isFirst ⊢
      exact Std.TransCmp.gt_of_isGE_of_gt (Std.OrientedCmp.isGE_of_isLE before) isFirst
  | gte =>
      have atLeast (outcome : Ordering) : outcome ∈ outcomes .gte ↔ outcome.isGE = true := by
        cases outcome with
        | _ => simp [outcomes]
      rw [atLeast] at isFirst ⊢
      exact Std.TransCmp.isGE_trans (Std.OrientedCmp.isGE_of_isLE before) isFirst
  | lt =>
      rw [outcomes, List.mem_singleton] at isLast ⊢
      exact Std.TransCmp.lt_of_isLE_of_lt after isLast
  | lte =>
      have atMost (outcome : Ordering) : outcome ∈ outcomes .lte ↔ outcome.isLE = true := by
        cases outcome with
        | _ => simp [outcomes]
      rw [atMost] at isLast ⊢
      exact Std.TransCmp.isLE_trans after isLast
  | _ => cases range

theorem holds_of_between {operator : Operator} (range : operator.isRange = true)
    {first middle last : Option Value} {argument : Value}
    (before : ((first.getD .null).sortCompare (middle.getD .null)).isLE = true)
    (after : ((middle.getD .null).sortCompare (last.getD .null)).isLE = true)
    (isFirst : operator.holds first argument = true) (isLast : operator.holds last argument = true) :
    operator.holds middle argument = true := by
  rw [holds_iff_of_isRange range] at isFirst isLast ⊢
  exact ⟨isFirst.1.of_between isLast.1 before after,
    mem_outcomes_of_between range before after isFirst.2 isLast.2⟩

end Operator

/-! ## Ranges -/

theorem exists_block {α : Type} {keep : α → Bool} {precedes : α → α → Prop} {items : List α}
    (sorted : items.Pairwise precedes)
    (between : ∀ first middle last, precedes first middle → precedes middle last →
      keep first = true → keep last = true → keep middle = true) :
    ∃ before block after, items = before ++ block ++ after ∧ before.filter keep = [] ∧
      block.filter keep = block ∧ after.filter keep = [] := by
  induction items with
  | nil => exact ⟨[], [], [], rfl, rfl, rfl, rfl⟩
  | cons first rest induction =>
      obtain ⟨before, block, after, parts, noneBefore, allWithin, noneAfter⟩ := induction sorted.of_cons
      cases kept : keep first with
      | false =>
          refine ⟨first :: before, block, after, ?_, ?_, allWithin, noneAfter⟩
          · rw [parts]
            rfl
          · simp [kept, noneBefore]
      | true =>
          cases block with
          | nil =>
              refine ⟨[], [first], before ++ after, ?_, rfl, ?_, ?_⟩
              · rw [parts]
                simp
              · simp [kept]
              · simp [noneBefore, noneAfter]
          | cons last others =>
              -- What stands before the block would stand between this item and the block's first one.
              have nothing : before = [] := by
                apply List.eq_nil_iff_forall_not_mem.mpr
                intro middle member
                have keptLast : keep last = true :=
                  List.filter_eq_self.mp allWithin last List.mem_cons_self
                have firstMiddle : precedes first middle := by
                  apply List.rel_of_pairwise_cons sorted
                  simp [parts, member]
                have middleLast : precedes middle last := by
                  have inOrder := sorted.of_cons
                  rw [parts, List.append_assoc] at inOrder
                  exact (List.pairwise_append.mp inOrder).2.2 middle member last (by simp)
                exact List.filter_eq_nil_iff.mp noneBefore middle member
                  (between first middle last firstMiddle middleLast kept keptLast)
              refine ⟨[], first :: last :: others, after, ?_, rfl, ?_, noneAfter⟩
              · rw [parts, nothing]
                rfl
              · rw [List.filter_cons_of_pos kept, allWithin]

namespace Predicate

/-- The predicate that a field meets conditions with operators and arguments. -/
def within (field : String) (bounds : List (Operator × Value)) : Predicate where
  conditions := bounds.map fun bound => (field, .compare bound.1 bound.2)

theorem accepts_within_iff {field : String} {bounds : List (Operator × Value)} {document : Document} :
    (within field bounds).accepts document = true ↔
      ∀ bound ∈ bounds, bound.1.holds (document.get? field) bound.2 = true := by
  rw [within, accepts, allHold, List.all_map]
  exact List.all_eq_true

theorem accepts_within_of_between {order : OrderBy} {bounds : List (Operator × Value)}
    (range : ∀ bound ∈ bounds, bound.1.isRange = true) {first middle last : Document}
    (before : (order.compare first middle).isLE = true)
    (after : (order.compare middle last).isLE = true)
    (isFirst : (within order.field bounds).accepts first = true)
    (isLast : (within order.field bounds).accepts last = true) :
    (within order.field bounds).accepts middle = true := by
  rw [accepts_within_iff] at isFirst isLast ⊢
  intro bound member
  obtain ⟨field, direction⟩ := order
  cases direction with
  | ascending =>
      exact Operator.holds_of_between (range bound member) before after
        (isFirst bound member) (isLast bound member)
  | descending =>
      exact Operator.holds_of_between (range bound member) after before
        (isLast bound member) (isFirst bound member)

end Predicate

namespace Condition

variable {value argument : Value}

theorem holds_equal_of_isComparable (comparable : value.IsComparable argument) :
    holds (.equal argument) (some value) = (value.sortCompare argument == .eq) := by
  rw [holds, Value.equals_of_isComparable comparable]

theorem holds_compare_of_isComparable {operator : Operator} (range : operator.isRange = true)
    (comparable : value.IsComparable argument) :
    holds (.compare operator argument) (some value) =
      operator.outcomes.contains (value.sortCompare argument) := by
  rw [holds, Operator.holds_of_isRange range, Operator.comparesAs,
    Value.compare?_of_isComparable comparable]

theorem holds_compare_of_not_isComparable {operator : Operator} (range : operator.isRange = true)
    {found : Option Value} (apart : ∀ value, found = some value → ¬ value.IsComparable argument) :
    holds (.compare operator argument) found = false := by
  rw [holds, Bool.eq_false_iff]
  intro held
  cases found with
  | none => exact Value.not_isComparable_null argument ((Operator.holds_iff_of_isRange range).mp held).1
  | some value => exact apart value rfl ((Operator.holds_iff_of_isRange range).mp held).1

end Condition

/-- Conditions with range operators on a field agree with sorting by it. In documents that are sorted by
the field, in either direction, those within a range stand together. A value and an argument of one kind
that has an order, other than NaNs, meet exactly one of the conditions of being greater, equal and less,
and the other two range operators allow equality as well. No other value, and no missing field, meets a
condition with a range operator. -/
theorem ranges_agree_with_sorting :
    (∀ bounds : List (Operator × Value), (∀ bound ∈ bounds, bound.1.isRange = true) →
      ∀ (order : OrderBy) (documents : List Document), ∃ before block after,
        order.sort documents = before ++ block ++ after ∧
          (Predicate.within order.field bounds).select before = [] ∧
          (Predicate.within order.field bounds).select block = block ∧
          (Predicate.within order.field bounds).select after = []) ∧
    (∀ value argument : Value, value.IsComparable argument →
      [Condition.compare .gt argument, .equal argument, .compare .lt argument].countP
          (·.holds (some value)) = 1 ∧
        Condition.holds (.compare .gte argument) (some value) =
          (Condition.holds (.compare .gt argument) (some value) ||
            Condition.holds (.equal argument) (some value)) ∧
        Condition.holds (.compare .lte argument) (some value) =
          (Condition.holds (.compare .lt argument) (some value) ||
            Condition.holds (.equal argument) (some value))) ∧
    ∀ (found : Option Value) (argument : Value),
      (∀ value, found = some value → ¬ value.IsComparable argument) →
      ∀ operator : Operator, operator.isRange = true →
        Condition.holds (.compare operator argument) found = false := by
  refine ⟨?_, ?_, ?_⟩
  · intro bounds range order documents
    rw [OrderBy.sort_eq]
    apply exists_block (pairwise_sortBy documents)
    intro first middle last
    exact Predicate.accepts_within_of_between range
  · intro value argument comparable
    have equal := Condition.holds_equal_of_isComparable comparable
    have compare {operator : Operator} (range : operator.isRange = true) :=
      Condition.holds_compare_of_isComparable range comparable
    rw [List.countP_cons, List.countP_cons, List.countP_singleton, equal, compare rfl, compare rfl,
      compare rfl, compare rfl]
    cases value.sortCompare argument with
    | _ => exact ⟨rfl, rfl, rfl⟩
  · intro found argument apart operator range
    exact Condition.holds_compare_of_not_isComparable range apart

private def priceList : List Document :=
  [[("price", .string "free")], [("price", .double .nan)], [("price", .int64 9007199254740993)], [],
    [("price", .double ⟨0x4340000000000000⟩)], [("price", .int64 9007199254740991)], [("price", .null)]]

private def largePrices : List (Operator × Value) :=
  [(.gte, .int64 9007199254740992), (.lt, .double (.infinity false))]

theorem ranges_agree_with_sorting_of_prices :
    ((∀ bound ∈ largePrices, bound.1.isRange = true) ∧ ∃ before block after,
        OrderBy.sort ⟨"price", .descending⟩ priceList = before ++ block ++ after ∧
          (Predicate.within "price" largePrices).select before = [] ∧
          (Predicate.within "price" largePrices).select block = block ∧
          (Predicate.within "price" largePrices).select after = []) ∧
      ((Predicate.within "price" largePrices).select priceList).length = 2 ∧
      (Value.IsComparable (.int64 9007199254740993) (.double ⟨0x4340000000000000⟩) ∧
        [Condition.compare .gt (.double ⟨0x4340000000000000⟩), .equal (.double ⟨0x4340000000000000⟩),
            .compare .lt (.double ⟨0x4340000000000000⟩)].countP
          (·.holds (some (.int64 9007199254740993))) = 1) ∧
      (¬ Value.IsComparable (.double .nan) (.double .nan) ∧
        Condition.holds (.compare .gte (.double .nan)) (some (.double .nan)) = false) := by
  obtain ⟨block, comparing, apart⟩ := ranges_agree_with_sorting
  have range : ∀ bound ∈ largePrices, bound.1.isRange = true := by decide
  have comparable : Value.IsComparable (.int64 9007199254740993) (.double ⟨0x4340000000000000⟩) :=
    .number rfl (by decide +kernel)
  have noNumber : ¬ Value.IsComparable (.double .nan) (.double .nan) := by
    intro comparable
    cases comparable with
    | number isLeft =>
        have isNaN : Double.nan.isNaN = true := by decide +kernel
        simp [Value.isProperNumber, isNaN] at isLeft
  have selected : ((Predicate.within "price" largePrices).select priceList).length = 2 := by
    decide +kernel
  refine ⟨⟨range, block _ range ⟨"price", .descending⟩ priceList⟩, selected,
    ⟨comparable, (comparing _ _ comparable).1⟩, noNumber, ?_⟩
  refine apart _ _ ?_ .gte rfl
  intro value same
  cases same
  exact noNumber

end DocStore

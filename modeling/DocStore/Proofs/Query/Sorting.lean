import DocStore.Proofs.Value.SortOrder
import DocStore.Query.Sorting
import Mathlib.Data.List.FinRange

/-!
Sorting documents. The result is the only arrangement of the documents that is in order and in which
those with equal keys stand as they stood before; so sorting commutes with every filter, and descending
order is ascending order of the reversed list, read backwards.
-/

namespace DocStore

/-! ## Stable sorts -/

section

variable {α : Type}

def sortBy (cmp : α → α → Ordering) (items : List α) : List α :=
  items.mergeSort fun left right => (cmp left right).isLE

theorem sortBy_perm {cmp : α → α → Ordering} (items : List α) : (sortBy cmp items).Perm items :=
  List.mergeSort_perm _ _

theorem transCmp_on {β : Type} (cmp : α → α → Ordering) [Std.TransCmp cmp] (item : β → α) :
    Std.TransCmp fun left right => cmp (item left) (item right) where
  eq_swap := by
    intro left right
    exact Std.OrientedCmp.eq_swap
  isLE_trans := by
    intro left middle right first second
    exact Std.TransCmp.isLE_trans first second

theorem sortBy_map {β : Type} {cmp : α → α → Ordering} (item : β → α) (places : List β) :
    sortBy cmp (places.map item) =
      (sortBy (fun left right => cmp (item left) (item right)) places).map item := by
  apply Eq.symm
  apply List.map_mergeSort
  intro left _ right _
  rfl

/-- The items that compare equal to one, in their order. -/
def ties (cmp : α → α → Ordering) (items : List α) (item : α) : List α :=
  items.filter fun other => cmp item other == .eq

variable {cmp : α → α → Ordering}

theorem mem_ties_iff {items : List α} {item other : α} :
    other ∈ ties cmp items item ↔ other ∈ items ∧ cmp item other = .eq := by
  simp [ties]

theorem ties_cons_of_eq {first item : α} (equal : cmp item first = .eq) (items : List α) :
    ties cmp (first :: items) item = first :: ties cmp items item := by
  simp [ties, equal]

theorem ties_cons_of_ne {first item : α} (different : cmp item first ≠ .eq) (items : List α) :
    ties cmp (first :: items) item = ties cmp items item := by
  simp [ties, different]

theorem ties_filter (keep : α → Bool) (items : List α) (item : α) :
    ties cmp (items.filter keep) item = (ties cmp items item).filter keep := by
  simp only [ties, List.filter_filter, Bool.and_comm]

variable [Std.TransCmp cmp]

theorem isLE_total (left right : α) : ((cmp left right).isLE || (cmp right left).isLE) = true := by
  have swap : cmp right left = (cmp left right).swap := Std.OrientedCmp.eq_swap
  rw [swap]
  cases cmp left right with
  | _ => rfl

theorem pairwise_sortBy (items : List α) :
    (sortBy cmp items).Pairwise fun left right => (cmp left right).isLE = true :=
  List.pairwise_mergeSort (fun _ _ _ => Std.TransCmp.isLE_trans) isLE_total items

theorem isLE_of_mem {first other : α} {items : List α}
    (sorted : (first :: items).Pairwise fun left right => (cmp left right).isLE = true)
    (member : other ∈ first :: items) : (cmp first other).isLE = true := by
  rcases List.mem_cons.mp member with equal | later
  · have self : cmp first first = .eq := Std.ReflCmp.compare_self
    rw [equal, self]
    rfl
  · exact List.rel_of_pairwise_cons sorted later

theorem mem_iff_of_ties {left right : List α} (same : ∀ item, ties cmp left item = ties cmp right item)
    (item : α) : item ∈ left ↔ item ∈ right := by
  have self : cmp item item = .eq := Std.ReflCmp.compare_self
  have members : item ∈ ties cmp left item ↔ item ∈ ties cmp right item := by rw [same]
  simpa [mem_ties_iff, self] using members

theorem eq_of_ties {left right : List α}
    (leftSorted : left.Pairwise fun first second => (cmp first second).isLE = true)
    (rightSorted : right.Pairwise fun first second => (cmp first second).isLE = true)
    (same : ∀ item, ties cmp left item = ties cmp right item) : left = right := by
  induction left generalizing right with
  | nil =>
      apply Eq.symm
      apply List.eq_nil_iff_forall_not_mem.mpr
      intro item member
      exact List.not_mem_nil ((mem_iff_of_ties same item).mpr member)
  | cons first rest induction =>
      have member (item : α) := mem_iff_of_ties same item
      cases right with
      | nil => exact absurd ((member first).mp List.mem_cons_self) List.not_mem_nil
      | cons other others =>
          -- Each of the first items is in both lists, so neither comes before the other.
          have after : (cmp first other).isLE = true :=
            isLE_of_mem leftSorted ((member other).mpr List.mem_cons_self)
          have before : (cmp other first).isLE = true :=
            isLE_of_mem rightSorted ((member first).mp List.mem_cons_self)
          have equal : cmp first other = .eq := Std.OrientedCmp.isLE_antisymm after before
          have heads := same first
          rw [ties_cons_of_eq Std.ReflCmp.compare_self, ties_cons_of_eq equal, List.cons.injEq] at heads
          have tails (item : α) : ties cmp rest item = ties cmp others item := by
            have whole := same item
            rw [← heads.1] at whole
            by_cases tie : cmp item first = .eq
            · rw [ties_cons_of_eq tie, ties_cons_of_eq tie, List.cons.injEq] at whole
              exact whole.2
            · rw [ties_cons_of_ne tie, ties_cons_of_ne tie] at whole
              exact whole
          rw [heads.1, induction leftSorted.of_cons rightSorted.of_cons tails]

theorem ties_sortBy (items : List α) (item : α) :
    ties cmp (sortBy cmp items) item = ties cmp items item := by
  -- The ties are in order as they stand, so a stable sort leaves them as a part of its result.
  have sorted : (ties cmp items item).Pairwise fun left right => (cmp left right).isLE = true := by
    apply List.pairwise_of_forall_mem_list
    intro left isLeft right isRight
    rw [mem_ties_iff] at isLeft isRight
    rw [← Std.TransCmp.congr_left isLeft.2, isRight.2]
    rfl
  have inOrder : (ties cmp items item).Sublist (sortBy cmp items) :=
    List.sublist_mergeSort (fun _ _ _ => Std.TransCmp.isLE_trans) isLE_total sorted
      List.filter_sublist
  have part := inOrder.filter fun other => cmp item other == .eq
  simp only [ties, List.filter_filter, Bool.and_self] at part
  have count : (ties cmp (sortBy cmp items) item).Perm (ties cmp items item) :=
    (sortBy_perm items).filter _
  exact (part.eq_of_length count.length_eq.symm).symm

theorem sortBy_eq_of_ties {items sorted : List α}
    (inOrder : sorted.Pairwise fun left right => (cmp left right).isLE = true)
    (same : ∀ item, ties cmp sorted item = ties cmp items item) : sortBy cmp items = sorted :=
  eq_of_ties (pairwise_sortBy items) inOrder fun item => (ties_sortBy items item).trans (same item).symm

theorem sortBy_sortBy (items : List α) : sortBy cmp (sortBy cmp items) = sortBy cmp items :=
  sortBy_eq_of_ties (pairwise_sortBy items) fun _ => rfl

theorem filter_sortBy (keep : α → Bool) (items : List α) :
    (sortBy cmp items).filter keep = sortBy cmp (items.filter keep) := by
  apply Eq.symm
  apply sortBy_eq_of_ties ((pairwise_sortBy items).filter keep)
  intro item
  rw [ties_filter, ties_filter, ties_sortBy]

theorem ties_reverse (items : List α) (item : α) :
    ties (fun left right => cmp right left) items.reverse item = (ties cmp items item).reverse := by
  have same (other : α) : (cmp other item == .eq) = (cmp item other == .eq) := by
    have swap : cmp other item = (cmp item other).swap := Std.OrientedCmp.eq_swap
    rw [swap]
    cases cmp item other with
    | _ => rfl
  simp only [ties, List.filter_reverse, same]

theorem sortBy_opposite (items : List α) :
    sortBy (fun left right => cmp right left) items = (sortBy cmp items.reverse).reverse := by
  have opposite : Std.TransCmp fun left right => cmp right left := .opposite
  apply sortBy_eq_of_ties
  · exact List.pairwise_reverse.mpr (pairwise_sortBy items.reverse)
  · intro item
    rw [ties_reverse, ties_sortBy, ← ties_reverse, List.reverse_reverse]

theorem pairwise_sortBy_of_pairwise {relation : α → α → Prop} {items : List α}
    (related : items.Pairwise relation) :
    (sortBy cmp items).Pairwise fun left right =>
      cmp left right = .lt ∨ cmp left right = .eq ∧ relation left right := by
  rw [List.pairwise_iff_forall_sublist]
  intro left right part
  have inOrder := List.pairwise_iff_forall_sublist.mp (pairwise_sortBy items) part
  cases outcome : cmp left right with
  | lt => exact .inl rfl
  | gt => simp [outcome] at inOrder
  | eq =>
      have pair : ties cmp [left, right] left = [left, right] := by
        rw [ties_cons_of_eq Std.ReflCmp.compare_self, ties_cons_of_eq outcome]
        rfl
      have tied : [left, right].Sublist (ties cmp items left) := by
        rw [← ties_sortBy, ← pair]
        exact part.filter _
      exact .inr ⟨rfl, List.pairwise_iff_forall_sublist.mp related (tied.trans List.filter_sublist)⟩

end

/-! ## Documents -/

namespace OrderBy

instance (order : OrderBy) : Std.TransCmp order.compare := by
  obtain ⟨field, direction⟩ := order
  have ascending : Std.TransCmp (compare ⟨field, .ascending⟩) :=
    transCmp_on Value.sortCompare (key ⟨field, .ascending⟩)
  have descending : Std.TransCmp fun left right => compare ⟨field, .ascending⟩ right left :=
    .opposite
  cases direction with
  | ascending => exact ascending
  | descending => exact descending

theorem sort_eq (order : OrderBy) (documents : List Document) :
    order.sort documents = sortBy order.compare documents := by
  have same (outcome : Ordering) : (outcome != .gt) = outcome.isLE := by
    cases outcome with
    | _ => rfl
  unfold sort
  simp only [same]
  rfl

/-- Whether the keys of two documents put the first before the second. -/
def ComesBefore (order : OrderBy) (left right : Document) : Prop :=
  match order.direction with
  | .ascending => (order.key left).sortCompare (order.key right) = .lt
  | .descending => (order.key left).sortCompare (order.key right) = .gt

/-- Whether the keys of two documents leave it open which of them comes first. -/
def IsTie (order : OrderBy) (left right : Document) : Prop :=
  (order.key left).sortCompare (order.key right) = .eq

theorem compare_eq_lt_iff {order : OrderBy} {left right : Document} :
    order.compare left right = .lt ↔ order.ComesBefore left right := by
  obtain ⟨field, direction⟩ := order
  cases direction with
  | ascending => rfl
  | descending => exact Std.OrientedCmp.gt_iff_lt.symm

theorem compare_eq_eq_iff {order : OrderBy} {left right : Document} :
    order.compare left right = .eq ↔ order.IsTie left right := by
  obtain ⟨field, direction⟩ := order
  cases direction with
  | ascending => rfl
  | descending => exact Std.OrientedCmp.eq_comm

theorem pairwise_sort (order : OrderBy) (documents : List Document) :
    (order.sort documents).Pairwise fun left right =>
      order.ComesBefore left right ∨ order.IsTie left right := by
  rw [sort_eq]
  apply (pairwise_sortBy documents).imp
  intro left right inOrder
  rw [← compare_eq_lt_iff, ← compare_eq_eq_iff]
  exact Ordering.isLE_iff_eq_lt_or_eq_eq.mp inOrder

theorem exists_positions_of_documents (order : OrderBy) (documents : List Document) :
    ∃ positions : List (Fin documents.length), positions.Perm (List.finRange documents.length) ∧
      order.sort documents = positions.map documents.get ∧
      positions.Pairwise fun first second =>
        order.ComesBefore (documents.get first) (documents.get second) ∨
          order.IsTie (documents.get first) (documents.get second) ∧ first < second := by
  let comparePlaces (first second : Fin documents.length) : Ordering :=
    order.compare (documents.get first) (documents.get second)
  have trans : Std.TransCmp comparePlaces := transCmp_on order.compare documents.get
  refine ⟨sortBy comparePlaces (List.finRange documents.length), sortBy_perm _, ?_, ?_⟩
  · calc
      order.sort documents = sortBy order.compare documents := order.sort_eq documents
      _ = sortBy order.compare ((List.finRange documents.length).map documents.get) := by
        rw [List.map_get_finRange]
      _ = _ := sortBy_map documents.get _
  · apply (pairwise_sortBy_of_pairwise (List.pairwise_lt_finRange _)).imp
    intro first second inOrder
    rw [← compare_eq_lt_iff, ← compare_eq_eq_iff]
    exact inOrder

theorem sort_descending (field : String) (documents : List Document) :
    sort ⟨field, .descending⟩ documents = (sort ⟨field, .ascending⟩ documents.reverse).reverse := by
  rw [sort_eq, sort_eq]
  exact sortBy_opposite documents

/-- Sorting is stable in both directions. It rearranges the documents so that their keys are in order, and
documents with keys that compare equal stay in the order in which they were. Descending order is therefore
the reverse of ascending order of the reversed list, sorting again changes nothing, and sorting commutes
with every filter. -/
theorem sort_is_stable (order : OrderBy) (documents : List Document) :
    (order.sort documents).Perm documents ∧
    ((order.sort documents).Pairwise fun left right =>
      order.ComesBefore left right ∨ order.IsTie left right) ∧
    (∃ positions : List (Fin documents.length), positions.Perm (List.finRange documents.length) ∧
      order.sort documents = positions.map documents.get ∧
      positions.Pairwise fun first second =>
        order.ComesBefore (documents.get first) (documents.get second) ∨
          order.IsTie (documents.get first) (documents.get second) ∧ first < second) ∧
    sort ⟨order.field, .descending⟩ documents =
      (sort ⟨order.field, .ascending⟩ documents.reverse).reverse ∧
    order.sort (order.sort documents) = order.sort documents ∧
    ∀ keep : Document → Bool,
      (order.sort documents).filter keep = order.sort (documents.filter keep) := by
  refine ⟨?_, order.pairwise_sort documents, order.exists_positions_of_documents documents,
    sort_descending order.field documents, ?_, ?_⟩
  · exact List.mergeSort_perm _ _
  · rw [sort_eq, sort_eq, sortBy_sortBy]
  · intro keep
    rw [sort_eq, sort_eq, filter_sortBy]

end OrderBy

end DocStore

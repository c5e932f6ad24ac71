import DocStore.Error
import DocStore.Store.IdSupply

/-!
Cascades: documents that are created together with their children.

A field that is named after a known list and holds an array stands for children of the document.
They are taken out of it and go into that list, with a reference to their parent. A cascade ends
because a child, even with its reference, holds fewer documents than its parent did.
-/

namespace DocStore

/-! ## Counting documents -/

mutual

/-- The number of documents in a value, at every depth. The scope of code is one, too. -/
def Value.nodes : Value → Nat
  | .array items => Value.nodesOfItems items
  | .document fields | .scopedCode _ fields => 1 + Value.nodesOfFields fields
  | _ => 0
termination_by structural value => value

def Value.nodesOfItems : List Value → Nat
  | [] => 0
  | item :: items => Value.nodes item + Value.nodesOfItems items
termination_by structural items => items

def Value.nodesOfFields : List (String × Value) → Nat
  | [] => 0
  | (_, value) :: fields => Value.nodes value + Value.nodesOfFields fields
termination_by structural fields => fields

end

namespace Document

def nodes (document : Document) : Nat :=
  1 + Value.nodesOfFields document

def maxNodes (documents : List Document) : Nat :=
  documents.foldr (fun document most => max document.nodes most) 0

/-! ## Children -/

/-- Whether a field holds children: its name is that of a known list, and its value an array. -/
def isNested (known : String → Bool) : String × Value → Bool
  | (name, .array _) => known name
  | _ => false

def nestedFields (known : String → Bool) (document : Document) : List (String × List Value) :=
  document.filterMap fun field =>
    match field with
    | (name, .array items) => if known name then some (name, items) else none
    | _ => none

def withoutNested (known : String → Bool) (document : Document) : Document :=
  document.filter fun field => !isNested known field

def checkNested (known : String → Bool) (document : Document) : Except StoreError Unit :=
  (document.nestedFields known).forM fun (field, items) =>
    items.forM fun item =>
      match item with
      | .document _ => .ok ()
      | other => .error (.invalidDocument (.nestedNotDocument field other))

def withParent (list : String) (parent child : Document) : Document :=
  child.insert (foreignKey list) (parent.id?.getD .null)

def childrenOf (list : String) (parent : Document) (items : List Value) : List Document :=
  (items.filterMap Value.document?).map (withParent list parent)

end Document

namespace Document

/-! ## Children hold fewer documents -/

theorem nodes_pos (document : Document) : 0 < document.nodes := by
  simp only [nodes]; omega

theorem nodesOfFields_filter (keep : String × Value → Bool) (fields : List (String × Value)) :
    Value.nodesOfFields fields = Value.nodesOfFields (fields.filter keep) +
      Value.nodesOfFields (fields.filter fun field => !keep field) := by
  induction fields with
  | nil => simp [Value.nodesOfFields]
  | cons field fields induction =>
    obtain ⟨key, value⟩ := field
    cases kept : keep (key, value) <;>
      simp only [List.filter_cons, kept, Value.nodesOfFields, induction, Bool.not_true,
        Bool.not_false, Bool.false_eq_true, ↓reduceIte] <;>
      omega

theorem nodes_le_nodesOfFields {key : String} {value : Value} {fields : List (String × Value)}
    (member : (key, value) ∈ fields) : value.nodes ≤ Value.nodesOfFields fields := by
  induction fields with
  | nil => simp at member
  | cons field fields induction =>
    obtain ⟨other, held⟩ := field
    simp only [Value.nodesOfFields]
    rcases List.mem_cons.1 member with equal | member
    · cases equal; omega
    · have := induction member; omega

theorem nodes_le_nodesOfItems {value : Value} {items : List Value} (member : value ∈ items) :
    value.nodes ≤ Value.nodesOfItems items := by
  induction items with
  | nil => simp at member
  | cons item items induction =>
    simp only [Value.nodesOfItems]
    rcases List.mem_cons.1 member with equal | member
    · cases equal; omega
    · have := induction member; omega

theorem nodesOfFields_insert_le (document : Document) (key : String) (value : Value) :
    Value.nodesOfFields (document.insert key value) ≤
      Value.nodesOfFields document + value.nodes := by
  induction document with
  | nil => simp [Fields.insert, Value.nodesOfFields]
  | cons field fields induction =>
    obtain ⟨existing, old⟩ := field
    simp only [Fields.insert]
    split <;> simp only [Value.nodesOfFields] <;> omega

theorem nodes_withId_le (document : Document) (fresh : String) :
    (document.withId fresh).nodes ≤ document.nodes := by
  unfold withId
  split
  · exact Nat.le_refl _
  · have split := nodesOfFields_filter (fun field => field.1 != idKey) document
    simp only [nodes, Value.nodesOfFields, Value.nodes, Fields.erase]
    omega

theorem nodes_id?_le (document : Document) :
    (document.id?.getD .null).nodes ≤ Value.nodesOfFields document := by
  have found : ∀ value, document.get? idKey = some value →
      value.nodes ≤ Value.nodesOfFields document := by
    intro value equation
    simp only [Fields.get?, Option.map_eq_some_iff] at equation
    obtain ⟨⟨key, held⟩, lookup, rfl⟩ := equation
    exact nodes_le_nodesOfFields (List.mem_of_find?_eq_some lookup)
  unfold id?
  split
  · simp [Value.nodes]
  · simp [Value.nodes]
  · next value equation => simpa using found _ equation

theorem nodes_withParent_lt {known : String → Bool} {parent : Document} {field list : String}
    {items : List Value} {child : Document} (nested : (field, items) ∈ parent.nestedFields known)
    (member : Value.document child ∈ items) :
    (withParent list (parent.withoutNested known) child).nodes < parent.nodes := by
  have held : (field, Value.array items) ∈ parent.filter (isNested known) := by
    simp only [nestedFields, List.mem_filterMap] at nested
    obtain ⟨⟨name, value⟩, position, equation⟩ := nested
    cases value <;> simp at equation
    obtain ⟨isKnown, rfl, rfl⟩ := equation
    exact List.mem_filter.2 ⟨position, by simpa [isNested] using isKnown⟩
  have childNodes : child.nodes ≤ Value.nodesOfFields (parent.filter (isNested known)) := by
    have inItems := nodes_le_nodesOfItems member
    have inFields := nodes_le_nodesOfFields held
    simp only [Value.nodes] at inItems inFields
    simp only [nodes]
    omega
  have idNodes := nodes_id?_le (parent.withoutNested known)
  have stamped := nodesOfFields_insert_le child (foreignKey list)
    (((parent.withoutNested known).id?).getD .null)
  have split := nodesOfFields_filter (isNested known) parent
  simp only [withoutNested] at idNodes stamped split ⊢
  simp only [withParent, nodes] at childNodes ⊢
  omega

theorem nodes_le_maxNodes {document : Document} {documents : List Document}
    (member : document ∈ documents) : document.nodes ≤ maxNodes documents := by
  induction documents with
  | nil => simp at member
  | cons first rest induction =>
    simp only [maxNodes, List.foldr_cons]
    rcases List.mem_cons.1 member with equal | member
    · cases equal; omega
    · have := induction member; simp only [maxNodes] at this; omega

theorem maxNodes_lt {documents : List Document} {bound : Nat} (positive : 0 < bound)
    (below : ∀ document ∈ documents, document.nodes < bound) : maxNodes documents < bound := by
  induction documents with
  | nil => simpa [maxNodes] using positive
  | cons first rest induction =>
    have head := below first (by simp)
    have tail := induction fun document member => below document (by simp [member])
    simp only [maxNodes, List.foldr_cons] at tail ⊢
    omega

theorem maxNodes_childrenOf_lt {known : String → Bool} {parent : Document} {field list : String}
    {items : List Value} (nested : (field, items) ∈ parent.nestedFields known) :
    maxNodes (childrenOf list (parent.withoutNested known) items) < parent.nodes := by
  refine maxNodes_lt parent.nodes_pos fun child member => ?_
  simp only [childrenOf, List.mem_map, List.mem_filterMap] at member
  obtain ⟨document, ⟨item, position, equation⟩, rfl⟩ := member
  cases item <;> simp [Value.document?] at equation
  cases equation
  exact nodes_withParent_lt nested position

theorem nodes_le_of_mem_identify {document : Document} {documents : List Document}
    {supply : IdSupply} (member : document ∈ supply.identify documents) :
    document.nodes ≤ maxNodes documents := by
  simp only [IdSupply.identify, List.mem_mapIdx] at member
  obtain ⟨index, bound, rfl⟩ := member
  exact Nat.le_trans (nodes_withId_le _ _) (nodes_le_maxNodes (List.getElem_mem bound))

theorem maxNodes_children_lt {known : String → Bool} {supply : IdSupply}
    {documents : List Document} {document : Document} {index place : Nat} {field list : String}
    {items : List Value} (member : (document, index) ∈ (supply.identify documents).zipIdx)
    (nested : ((field, items), place) ∈ (document.nestedFields known).zipIdx) :
    maxNodes (childrenOf list (document.withoutNested known) items) < maxNodes documents :=
  Nat.lt_of_lt_of_le (maxNodes_childrenOf_lt (List.fst_mem_of_mem_zipIdx nested))
    (nodes_le_of_mem_identify (List.fst_mem_of_mem_zipIdx member))

end Document

end DocStore

import DocStore.Proofs.Fields
import DocStore.Value.Basic

/-!
Induction on values through their parts: the items of arrays and the fields of documents and scopes;
conditions that are put on a value and everything in it; and what occurs in a value.
-/

namespace DocStore.Value

def hasParts : Value → Bool
  | .array _ | .document _ | .scopedCode _ _ => true
  | _ => false

theorem induction_on_parts {holds : Value → Prop}
    (array : ∀ items, (∀ item ∈ items, holds item) → holds (.array items))
    (document : ∀ fields, (∀ field ∈ fields, holds field.2) → holds (.document fields))
    (scopedCode : ∀ source scope, (∀ field ∈ scope, holds field.2) →
      holds (.scopedCode source scope))
    (leaf : ∀ value, value.hasParts = false → holds value) (value : Value) : holds value := by
  refine @Value.rec holds (fun items => ∀ item ∈ items, holds item)
    (fun fields => ∀ field ∈ fields, holds field.2) (fun field => holds field.2)
    ?null ?bool ?int32 ?int64 ?double ?string array document ?dateTime ?objectId ?binary ?timestamp
    ?regex ?symbol ?code scopedCode ?decimal128 ?pointer ?undefined ?minKey ?maxKey
    ?noItem ?item ?noField ?field (fun _ _ => id) value
  case noItem =>
      intro item member
      cases member
  case item =>
      intro first items firstHolds rest item member
      rcases List.mem_cons.mp member with rfl | later
      · exact firstHolds
      · exact rest item later
  case noField =>
      intro field member
      cases member
  case field =>
      intro first fields firstHolds rest field member
      rcases List.mem_cons.mp member with rfl | later
      · exact firstHolds
      · exact rest field later
  all_goals
    intros
    exact leaf _ rfl

def parts : Value → List Value
  | .array items => items
  | .document fields | .scopedCode _ fields => fields.map Prod.snd
  | _ => []

theorem parts_of_leaf {value : Value} (leaf : value.hasParts = false) : value.parts = [] := by
  cases value with
  | array items => cases leaf
  | document fields => cases leaf
  | scopedCode source scope => cases leaf
  | _ => rfl

/-! ## Conditions at every depth -/

mutual

def everywhere (condition : Value → Bool) : Value → Bool
  | .array items => condition (.array items) && everywhereInItems condition items
  | .document fields => condition (.document fields) && everywhereInFields condition fields
  | .scopedCode source scope =>
      condition (.scopedCode source scope) && everywhereInFields condition scope
  | leaf => condition leaf
termination_by structural value => value

def everywhereInItems (condition : Value → Bool) : List Value → Bool
  | [] => true
  | item :: items => everywhere condition item && everywhereInItems condition items
termination_by structural items => items

def everywhereInFields (condition : Value → Bool) : List (String × Value) → Bool
  | [] => true
  | (_, value) :: fields => everywhere condition value && everywhereInFields condition fields
termination_by structural fields => fields

end

def namesOnce : Value → Bool
  | .document fields | .scopedCode _ fields => decide (Fields.keys fields).Nodup
  | _ => true

variable {condition : Value → Bool}

theorem everywhere_of_leaf {value : Value} (leaf : value.hasParts = false) :
    everywhere condition value = condition value := by
  cases value with
  | array items => cases leaf
  | document fields => cases leaf
  | scopedCode source scope => cases leaf
  | _ => rfl

theorem of_everywhere {value : Value} (holds : everywhere condition value = true) :
    condition value = true := by
  cases value with
  | array items | document fields | scopedCode source fields => exact (Bool.and_eq_true _ _ ▸ holds).1
  | _ => exact holds

theorem everywhereInItems_iff {items : List Value} :
    everywhereInItems condition items = true ↔
      ∀ item ∈ items, everywhere condition item = true := by
  induction items with
  | nil => simp [everywhereInItems]
  | cons item items induction => simp [everywhereInItems, induction]

theorem everywhereInFields_iff {fields : Document} :
    everywhereInFields condition fields = true ↔
      ∀ field ∈ fields, everywhere condition field.2 = true := by
  induction fields with
  | nil => simp [everywhereInFields]
  | cons field fields induction => simp [everywhereInFields, induction]

theorem everywhere_array_iff {items : List Value} :
    everywhere condition (.array items) = true ↔
      condition (.array items) = true ∧ ∀ item ∈ items, everywhere condition item = true := by
  rw [everywhere, Bool.and_eq_true, everywhereInItems_iff]

theorem everywhere_document_iff {fields : Document} :
    everywhere condition (.document fields) = true ↔
      condition (.document fields) = true ∧ ∀ field ∈ fields, everywhere condition field.2 = true := by
  rw [everywhere, Bool.and_eq_true, everywhereInFields_iff]

theorem everywhere_scopedCode_iff {source : String} {scope : Document} :
    everywhere condition (.scopedCode source scope) = true ↔
      condition (.scopedCode source scope) = true ∧
        ∀ field ∈ scope, everywhere condition field.2 = true := by
  rw [everywhere, Bool.and_eq_true, everywhereInFields_iff]

theorem everywhere_mono {weaker : Value → Bool}
    (implies : ∀ value, condition value = true → weaker value = true) {value : Value}
    (holds : value.everywhere condition = true) : value.everywhere weaker = true := by
  induction value using induction_on_parts with
  | array items each =>
      rw [everywhere_array_iff] at holds ⊢
      exact ⟨implies _ holds.1, fun item member => each item member (holds.2 item member)⟩
  | document fields each =>
      rw [everywhere_document_iff] at holds ⊢
      exact ⟨implies _ holds.1, fun field member => each field member (holds.2 field member)⟩
  | scopedCode source scope each =>
      rw [everywhere_scopedCode_iff] at holds ⊢
      exact ⟨implies _ holds.1, fun field member => each field member (holds.2 field member)⟩
  | leaf value leaf =>
      rw [everywhere_of_leaf leaf] at holds ⊢
      exact implies value holds

/-! ## What occurs in a value -/

/-- A value occurs in itself, in an array if it occurs in an item, and in a document or a scope if it
occurs in what they have under a key. -/
inductive OccursIn (part : Value) : Value → Prop
  | here : OccursIn part part
  | item {items : List Value} {item : Value} (member : item ∈ items) (inside : OccursIn part item) :
      OccursIn part (.array items)
  | field {fields : Document} {key : String} {value : Value} (found : fields.get? key = some value)
      (inside : OccursIn part value) : OccursIn part (.document fields)
  | scope {source : String} {scope : Document} {key : String} {value : Value}
      (found : scope.get? key = some value) (inside : OccursIn part value) :
      OccursIn part (.scopedCode source scope)

theorem OccursIn.eq_of_leaf {part value : Value} (occurs : OccursIn part value)
    (leaf : value.hasParts = false) : part = value := by
  cases occurs with
  | here => rfl
  | item | field | scope => cases leaf

theorem OccursIn.of_everywhere {part value : Value} (occurs : OccursIn part value)
    (holds : value.everywhere condition = true) : condition part = true := by
  induction occurs with
  | here => exact Value.of_everywhere holds
  | item member _ induction => exact induction ((everywhere_array_iff.mp holds).2 _ member)
  | field found _ induction =>
      exact induction ((everywhere_document_iff.mp holds).2 _ (Fields.mem_of_get?_eq_some found))
  | scope found _ induction =>
      exact induction ((everywhere_scopedCode_iff.mp holds).2 _ (Fields.mem_of_get?_eq_some found))

end DocStore.Value

namespace DocStore.Document

/-- Induction on documents through the documents two levels below them. -/
theorem induction_two_levels_below {holds : Document → Prop}
    (step : ∀ document : Document,
      (∀ field ∈ document, ∀ inner, .document inner ∈ field.2.parts → holds inner) → holds document)
    (document : Document) : holds document := by
  -- Between the two levels stands a value that need not be a document, so both carry a statement.
  suffices both : ∀ value : Value, (∀ document, value = .document document → holds document) ∧
      ∀ inner, .document inner ∈ value.parts → holds inner from
    (both (.document document)).1 document rfl
  intro value
  induction value using Value.induction_on_parts with
  | array items each => exact ⟨nofun, fun inner member => (each _ member).1 inner rfl⟩
  | document fields each =>
      refine ⟨?_, fun inner member => ?_⟩
      · rintro _ ⟨⟩
        exact step fields fun field member inner => (each field member).2 inner
      · rcases List.mem_map.mp member with ⟨field, inside, same⟩
        exact (each field inside).1 inner same
  | scopedCode source scope each =>
      refine ⟨nofun, fun inner member => ?_⟩
      rcases List.mem_map.mp member with ⟨field, inside, same⟩
      exact (each field inside).1 inner same
  | leaf value leaf =>
      rw [Value.parts_of_leaf leaf]
      refine ⟨?_, nofun⟩
      rintro document rfl
      cases leaf

/-! ## Documents that name each field once -/

/-- No two fields have the same key, at any depth. -/
def IsProper (document : Document) : Prop :=
  (Value.document document).everywhere Value.namesOnce = true

instance (document : Document) : Decidable document.IsProper :=
  inferInstanceAs (Decidable (_ = true))

variable {document : Document}

theorem isProper_iff :
    document.IsProper ↔ (Fields.keys document).Nodup ∧
      ∀ field ∈ document, field.2.everywhere Value.namesOnce = true := by
  rw [IsProper, Value.everywhere_document_iff, Value.namesOnce, decide_eq_true_iff]

theorem isProper_of_sublist {kept : Document} (sublist : kept.Sublist document)
    (proper : document.IsProper) : kept.IsProper := by
  rw [isProper_iff] at proper ⊢
  exact ⟨(sublist.map Prod.fst).nodup proper.1, fun field member =>
    proper.2 field (sublist.mem member)⟩

end DocStore.Document

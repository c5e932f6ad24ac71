import DocStore.Proofs.Snapshot.Values
import DocStore.Proofs.Value.Equality

/-!
Values that a snapshot keeps. They equal what is read back of them, although the types of integers may
have changed; only in a scope of code, where numbers of different types differ, they may not.
-/

namespace DocStore.Value

/-! ## What is kept -/

def keepsType : Value → Bool
  | .int32 value => decide (0 ≤ value.toInt)
  | .int64 value => !decide (0 ≤ value.toInt ∧ value.toInt < Nat.pow 2 31)
  | _ => true

def isKept : Value → Bool
  | .double value =>
      match rereadDouble? value with
      | some (.double other) => other.equals value
      | _ => false
  | .binary subtype _ => subtype != 0
  | .regex _ options => sortedOptions options == options
  | .scopedCode _ scope => everywhereInFields keepsType scope
  | .decimal128 bytes => canonicalDecimal bytes == bytes
  | _ => true

/-- A snapshot keeps the value and everything in it. -/
def IsDurable (value : Value) : Prop :=
  value.everywhere isKept = true

instance (value : Value) : Decidable value.IsDurable :=
  inferInstanceAs (Decidable (_ = true))

/-! ## What is kept is equal -/

variable {numbers : NumberEquality}

theorem number?_ofInteger (value : Int64) : (ofInteger value.toInt).number? = some (.integer value) := by
  rw [ofInteger]
  split
  · next small =>
    rw [Nat.pow_eq] at small
    have narrow : (Int32.ofInt value.toInt).toInt = value.toInt :=
      Int32.toInt_ofInt_of_le (by omega) (by omega)
    have wide : (Int32.ofInt value.toInt).toInt64 = value := by
      apply Int64.toInt_inj.mp
      rw [Int32.toInt_toInt64, narrow]
    rw [number?, wide]
  · rw [number?, Int64.ofInt_toInt]

theorem ofInteger_of_keepsType_int32 {value : Int32} (keeps : keepsType (.int32 value) = true) :
    ofInteger value.toInt = .int32 value := by
  have greatest := value.toInt_lt
  rw [keepsType, decide_eq_true_eq] at keeps
  rw [ofInteger, if_pos ⟨keeps, by rw [Nat.pow_eq]; omega⟩, Int32.ofInt_toInt]

theorem ofInteger_of_keepsType_int64 {value : Int64} (keeps : keepsType (.int64 value) = true) :
    ofInteger value.toInt = .int64 value := by
  rw [keepsType, Bool.not_eq_true', decide_eq_false_iff_not] at keeps
  rw [ofInteger, if_neg keeps, Int64.ofInt_toInt]

theorem agrees_of_number? {left right : Value} {value : Int64}
    (first : left.number? = some (.integer value)) (second : right.number? = some (.integer value)) :
    agrees .byValue left right = true :=
  (equals_of_number? first second).trans (Number.equals_self (.integer value))

theorem get?_reloadedFields (fields : Document) (key : String) :
    Fields.get? (reloadedFields fields) key = (Fields.get? fields key).map reloaded := by
  induction fields with
  | nil => rfl
  | cons field fields induction =>
      rcases field with ⟨existing, value⟩
      rw [reloadedFields, Fields.get?_cons, Fields.get?_cons, induction]
      split
      · rfl
      · rfl

theorem agrees_double {left right : Double} (equal : left.equals right = true) :
    agrees numbers (.double left) (.double right) = true := by
  cases numbers with
  | byType => exact equal
  | byValue => exact equal

theorem agrees_ofInteger_int32 {value : Int32}
    (types : numbers = .byType → keepsType (.int32 value) = true) :
    agrees numbers (ofInteger value.toInt) (.int32 value) = true := by
  cases numbers with
  | byValue =>
      have wide := number?_ofInteger value.toInt64
      rw [Int32.toInt_toInt64] at wide
      exact agrees_of_number? wide rfl
  | byType =>
      rw [ofInteger_of_keepsType_int32 (types rfl)]
      exact beq_self_eq_true value

theorem agrees_ofInteger_int64 {value : Int64}
    (types : numbers = .byType → keepsType (.int64 value) = true) :
    agrees numbers (ofInteger value.toInt) (.int64 value) = true := by
  cases numbers with
  | byValue => exact agrees_of_number? (number?_ofInteger value) rfl
  | byType =>
      rw [ofInteger_of_keepsType_int64 (types rfl)]
      exact beq_self_eq_true value

theorem agrees_reloaded_double {value : Double} (kept : isKept (.double value) = true) :
    agrees numbers (reloaded (.double value)) (.double value) = true := by
  rw [isKept] at kept
  rw [reloaded]
  split at kept
  · next other read =>
    rw [read, Option.getD_some]
    exact agrees_double kept
  · cases kept

theorem itemsAgree_reloadedItems {items : List Value}
    (each : ∀ item ∈ items, agrees numbers (reloaded item) item = true) :
    itemsAgree numbers (reloadedItems items) items = true := by
  induction items with
  | nil => rfl
  | cons item items induction =>
      rw [reloadedItems, itemsAgree, Bool.and_eq_true]
      exact ⟨each item List.mem_cons_self,
        induction fun other member => each other (List.mem_cons_of_mem item member)⟩

theorem fieldsAgree_reloadedFields {fields : Document}
    (each : ∀ field ∈ fields, agrees numbers (reloaded field.2) field.2 = true) :
    (fieldsAgree numbers [] (reloadedFields fields) fields &&
      keysInclude (reloadedFields fields) fields) = true := by
  rw [agrees_document_iff]
  intro key
  rw [get?_reloadedFields]
  cases found : Fields.get? fields key with
  | none => exact .none
  | some value => exact .some (each (key, value) (Fields.mem_of_get?_eq_some found))

theorem agrees_reloaded_of_leaf {value : Value} (leaf : value.hasParts = false)
    (kept : isKept value = true) (types : numbers = .byType → keepsType value = true) :
    agrees numbers value.reloaded value = true := by
  cases value with
  | array items => cases leaf
  | document fields => cases leaf
  | scopedCode source scope => cases leaf
  | int32 value => exact agrees_ofInteger_int32 types
  | int64 value => exact agrees_ofInteger_int64 types
  | double value => exact agrees_reloaded_double kept
  | binary subtype bytes =>
      have special : subtype ≠ 0 := bne_iff_ne.mp kept
      rw [reloaded, if_neg special]
      exact agrees_self rfl
  | regex pattern options =>
      have sorted : sortedOptions options = options := beq_iff_eq.mp kept
      rw [reloaded, sorted]
      exact agrees_self rfl
  | decimal128 bytes =>
      have canonical : canonicalDecimal bytes = bytes := beq_iff_eq.mp kept
      rw [reloaded, canonical]
      exact agrees_self rfl
  | _ => exact agrees_self rfl

theorem agrees_reloaded {value : Value} (kept : value.IsDurable)
    (types : numbers = .byType → value.everywhere keepsType = true) :
    agrees numbers value.reloaded value = true := by
  rw [IsDurable] at kept
  induction value using induction_on_parts generalizing numbers with
  | array items each =>
      have parts := (everywhere_array_iff.mp kept).2
      refine itemsAgree_reloadedItems fun item member => each item member (parts item member) ?_
      exact fun strict => (everywhere_array_iff.mp (types strict)).2 item member
  | document fields each =>
      have parts := (everywhere_document_iff.mp kept).2
      refine fieldsAgree_reloadedFields fun field member =>
        each field member (parts field member) ?_
      exact fun strict => (everywhere_document_iff.mp (types strict)).2 field member
  | scopedCode source scope each =>
      have parts := everywhere_scopedCode_iff.mp kept
      have inScope := everywhereInFields_iff.mp parts.1
      have strict : ∀ field ∈ scope, agrees .byType (reloaded field.2) field.2 = true :=
        fun field member => each field member (parts.2 field member) fun _ => inScope field member
      have fields := fieldsAgree_reloadedFields strict
      rw [reloaded, agrees, Bool.and_assoc, fields, beq_self_eq_true]
      rfl
  | leaf value leaf =>
      exact agrees_reloaded_of_leaf leaf (of_everywhere kept) fun strict => of_everywhere (types strict)

theorem equals_reloaded {value : Value} (durable : value.IsDurable) (other : Value) :
    value.reloaded.equals other = value.equals other := by
  have same : value.reloaded.equals value = true := agrees_reloaded durable nofun
  exact Bool.eq_iff_iff.mpr ⟨equals_trans (agrees_symm same), equals_trans same⟩

theorem equals_self_of_isDurable {value : Value} (durable : value.IsDurable) :
    value.equals value = true := by
  rw [← equals_reloaded durable]
  exact agrees_reloaded durable nofun

end DocStore.Value

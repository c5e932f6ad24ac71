import DocStore.Predicate.Parser
import DocStore.Proofs.Snapshot.Collections
import DocStore.Proofs.Snapshot.Durable
import DocStore.Proofs.Store.Mirror

/-!
Snapshots of plain data: null, booleans, integers, strings, arrays, and documents whose keys do not
start with a dollar sign. The text of a snapshot says everything about them apart from the types of
integers, so that reading undoes writing up to those types, and writing again gives the same text.
-/

namespace DocStore

namespace Value

/-! ## Plain data -/

def isPlain : Value → Bool
  | .null | .bool _ | .int32 _ | .int64 _ | .string _ | .array _ => true
  | .document fields =>
      decide (Fields.keys fields).Nodup && fields.all fun (key, _) => !isOperatorKey key
  | _ => false

def IsPlain (value : Value) : Prop :=
  value.everywhere isPlain = true

instance (value : Value) : Decidable value.IsPlain :=
  inferInstanceAs (Decidable (_ = true))

theorem isOperatorKey_of_isTag {key : String} (tag : isTag key = true) :
    isOperatorKey key = true :=
  (by decide : ∀ key ∈ tags, isOperatorKey key = true) key (mem_tags_of_isTag tag)

/-- Whether a value is read back as it was saved, apart from the types of integers, if the values in it
are. A key may start with a dollar sign as long as it is no tag. -/
def isRestorable : Value → Bool
  | .null | .bool _ | .int32 _ | .int64 _ | .string _ | .array _ => true
  | .document fields => isPlainDocument fields
  | _ => false

theorem isRestorable_of_isPlain (value : Value) (plain : isPlain value = true) :
    isRestorable value = true := by
  cases value with
  | document fields =>
      simp only [isPlain, isRestorable, isPlainDocument, Bool.and_eq_true, List.all_eq_true,
        Bool.not_eq_true', ← Bool.not_eq_true] at plain ⊢
      exact ⟨plain.1, fun field member tag => plain.2 field member (isOperatorKey_of_isTag tag)⟩
  | _ => exact plain

theorem isReadable_of_isRestorable (value : Value) (restorable : isRestorable value = true) :
    isReadable value = true := by
  cases value with
  | document fields => exact restorable
  | regex pattern options => cases restorable
  | scopedCode source scope => cases restorable
  | _ => rfl

/-! ## The types of integers -/

mutual

def widened : Value → Value
  | .int32 value => .int64 value.toInt64
  | .array items => .array (widenedItems items)
  | .document fields => .document (widenedFields fields)
  | .scopedCode source scope => .scopedCode source (widenedFields scope)
  | value => value
termination_by structural value => value

def widenedItems : List Value → List Value
  | [] => []
  | item :: items => widened item :: widenedItems items
termination_by structural items => items

def widenedFields : List (String × Value) → List (String × Value)
  | [] => []
  | (key, value) :: fields => (key, widened value) :: widenedFields fields
termination_by structural fields => fields

end

theorem widened_of_number? {value : Value} {number : Int64}
    (isNumber : value.number? = some (.integer number)) : value.widened = .int64 number := by
  cases value with
  | int32 value =>
      cases isNumber
      rfl
  | int64 value =>
      cases isNumber
      rfl
  | _ => cases isNumber

theorem widenedItems_reloadedItems {items : List Value}
    (each : ∀ item ∈ items, item.reloaded.widened = item.widened) :
    widenedItems (reloadedItems items) = widenedItems items := by
  induction items with
  | nil => rfl
  | cons item items induction =>
      have here := each item List.mem_cons_self
      have later := induction fun other member => each other (List.mem_cons_of_mem item member)
      rw [reloadedItems, widenedItems, widenedItems, here, later]

theorem widenedFields_reloadedFields {fields : Document}
    (each : ∀ field ∈ fields, field.2.reloaded.widened = field.2.widened) :
    widenedFields (reloadedFields fields) = widenedFields fields := by
  induction fields with
  | nil => rfl
  | cons field fields induction =>
      rcases field with ⟨key, value⟩
      have here : value.reloaded.widened = value.widened := each (key, value) List.mem_cons_self
      have later := induction fun other member => each other (List.mem_cons_of_mem _ member)
      rw [reloadedFields, widenedFields, widenedFields, here, later]

theorem widened_reloaded {value : Value} (restorable : value.everywhere isRestorable = true) :
    value.reloaded.widened = value.widened := by
  induction value using induction_on_parts with
  | array items each =>
      have parts := (everywhere_array_iff.mp restorable).2
      have same := widenedItems_reloadedItems fun item member => each item member (parts item member)
      rw [reloaded, widened, widened, same]
  | document fields each =>
      have parts := (everywhere_document_iff.mp restorable).2
      have same := widenedFields_reloadedFields fun field member =>
        each field member (parts field member)
      rw [reloaded, widened, widened, same]
  | scopedCode source scope each => cases restorable
  | leaf value leaf =>
      rw [everywhere_of_leaf leaf] at restorable
      cases value with
      | int32 value =>
          have wide := number?_ofInteger value.toInt64
          rw [Int32.toInt_toInt64] at wide
          exact widened_of_number? wide
      | int64 value => exact widened_of_number? (number?_ofInteger value)
      | array items => cases leaf
      | document fields => cases leaf
      | null => rfl
      | bool value => rfl
      | string text => rfl
      | _ => cases restorable

theorem encodeItems_widenedItems {items : List Value}
    (each : ∀ item ∈ items, item.widened.encode = item.encode) :
    encodeItems (widenedItems items) = encodeItems items := by
  induction items with
  | nil => rfl
  | cons item items induction =>
      have here := each item List.mem_cons_self
      have later := induction fun other member => each other (List.mem_cons_of_mem item member)
      rw [widenedItems, encodeItems, encodeItems, here, later]

theorem encodeFields_widenedFields {fields : Document}
    (each : ∀ field ∈ fields, field.2.widened.encode = field.2.encode) :
    encodeFields (widenedFields fields) = encodeFields fields := by
  induction fields with
  | nil => rfl
  | cons field fields induction =>
      rcases field with ⟨key, value⟩
      have here : value.widened.encode = value.encode := each (key, value) List.mem_cons_self
      have later := induction fun other member => each other (List.mem_cons_of_mem _ member)
      rw [widenedFields, encodeFields, encodeFields, here, later]

theorem encode_widened (value : Value) : value.widened.encode = value.encode := by
  induction value using induction_on_parts with
  | array items each => rw [widened, encode, encode, encodeItems_widenedItems each]
  | document fields each => rw [widened, encode, encode, encodeFields_widenedFields each]
  | scopedCode source scope each => rw [widened, encode, encode, encodeFields_widenedFields each]
  | leaf value leaf =>
      cases value with
      | int32 value => rw [widened, encode, encode, Int32.toInt_toInt64]
      | array items => cases leaf
      | document fields => cases leaf
      | scopedCode source scope => cases leaf
      | _ => rfl

end Value

/-! ## Collections -/

namespace Document

/-- The document with every integer in it as one of 64 bits. -/
def widened (document : Document) : Document :=
  Value.widenedFields document

/-- The document and everything in it is plain. -/
def IsPlain (document : Document) : Prop :=
  (Value.document document).IsPlain

instance (document : Document) : Decidable document.IsPlain :=
  inferInstanceAs (Decidable (_ = true))

/-- The document and everything in it is read back as it was saved, apart from the types of integers. -/
def IsRestorable (document : Document) : Prop :=
  (Value.document document).everywhere Value.isRestorable = true

theorem isRestorable_of_isPlain {document : Document} (plain : document.IsPlain) :
    document.IsRestorable :=
  Value.everywhere_mono Value.isRestorable_of_isPlain plain

theorem isReadable_of_isRestorable {document : Document} (restorable : document.IsRestorable) :
    document.IsReadable :=
  Value.everywhere_mono Value.isReadable_of_isRestorable restorable

theorem isReadable_of_isPlain {document : Document} (plain : document.IsPlain) :
    document.IsReadable :=
  isReadable_of_isRestorable (isRestorable_of_isPlain plain)

theorem widened_reloaded {document : Document} (restorable : document.IsRestorable) :
    document.reloaded.widened = document.widened :=
  Value.document.inj (Value.widened_reloaded restorable)

theorem encode_widened (document : Document) :
    (Value.document document.widened).encode = (Value.document document).encode :=
  Value.encode_widened (.document document)

end Document

namespace Collections

/-- The collections with every integer in them as one of 64 bits. -/
def widened (collections : Collections) : Collections :=
  collections.map fun _ documents => documents.map Document.widened

theorem names_reloaded (collections : Collections) : collections.reloaded.names = collections.names := by
  rw [names, names, reloaded, Std.ExtTreeMap.toList_map, List.map_map]
  rfl

theorem widened_reloaded {collections : Collections}
    (plain : collections.Each fun documents => ∀ document ∈ documents, document.IsPlain) :
    collections.reloaded.widened = collections.widened := by
  apply Std.ExtTreeMap.ext_getElem?
  intro list
  rw [widened, widened, reloaded, Std.ExtTreeMap.getElem?_map, Std.ExtTreeMap.getElem?_map,
    Std.ExtTreeMap.getElem?_map]
  cases found : collections[list]? with
  | none => rfl
  | some documents =>
      have same : (documents.map Document.reloaded).map Document.widened =
          documents.map Document.widened := by
        rw [List.map_map]
        exact List.map_congr_left fun document member => Document.widened_reloaded
          (Document.isRestorable_of_isPlain (plain list documents found document member))
      exact congrArg some same

end Collections

namespace Snapshot

theorem render_widened (collections : Collections) :
    render collections.widened = render collections := by
  have documents (documents : List Document) :
      encodeDocuments (documents.map Document.widened) = encodeDocuments documents := by
    rw [encodeDocuments, encodeDocuments, List.map_map]
    exact congrArg Json.array (List.map_congr_left fun document _ => document.encode_widened)
  rw [render, render, toJson, toJson, Collections.widened, Std.ExtTreeMap.toList_map, List.map_map]
  simp only [Function.comp_def, documents]

variable {σ : Type} [Medium σ] [LawfulMedium σ]

/-- Collections of plain data are read from the snapshot that was saved of them, with the same names,
documents, fields and values, apart from the types of integers. Saving what was read writes the same
text. -/
theorem load_save {medium : σ} {path : String} {collections : Collections}
    (plain : collections.Each fun documents => ∀ document ∈ documents, document.IsPlain)
    (shallow : (toJson collections).depth ≤ Json.nestingLimit)
    (saved : (save medium path collections).1 = .ok ()) :
    ∃ loaded, load (save medium path collections).2 path = .ok loaded ∧
      loaded.names = collections.names ∧ loaded.widened = collections.widened ∧
      render loaded = render collections ∧
      ∀ (other : σ) (place : String), save other place loaded = save other place collections := by
  have readable : collections.Each fun documents => ∀ document ∈ documents, document.IsReadable :=
    fun list documents found document member =>
      Document.isReadable_of_isPlain (plain list documents found document member)
  have text : Medium.read (save medium path collections).2 (Path.ofText path) =
      .text (render collections) := by
    rw [read_save, saved]
  have loaded : load (save medium path collections).2 path = .ok collections.reloaded := by
    rw [load, text]
    dsimp only
    rw [parse?_render readable shallow]
  have same := Collections.widened_reloaded plain
  have rendered : render collections.reloaded = render collections := by
    rw [← render_widened, same, render_widened]
  refine ⟨_, loaded, collections.names_reloaded, same, rendered, fun other place => ?_⟩
  rw [save, save, rendered]

private def escapedUser : Document :=
  [("id", .int64 7), ("na\tme", .string "\"ü\" \\ \x01"), ("tags", .array [.array [], .document [],
    .int32 (-5), .document [("", .bool true), ("a$", .null)]])]

private def notesAndUsers : Collections :=
  Std.ExtTreeMap.ofList [("notes \n", []), ("users", [escapedUser, [("id", .int32 8)]])]

theorem load_save_notes_and_users :
    (notesAndUsers.Each fun documents => ∀ document ∈ documents, document.IsPlain) ∧
      (toJson notesAndUsers).depth ≤ Json.nestingLimit ∧
      (save Disk.empty "/db.json" notesAndUsers).1 = .ok () ∧
      ∃ loaded, load (save Disk.empty "/db.json" notesAndUsers).2 "/db.json" = .ok loaded ∧
        loaded.names = notesAndUsers.names ∧ loaded.widened = notesAndUsers.widened ∧
        render loaded = render notesAndUsers ∧
        ∀ (other : Disk) (place : String), save other place loaded = save other place notesAndUsers := by
  have plain : notesAndUsers.Each fun documents => ∀ document ∈ documents, document.IsPlain := by
    decide +kernel
  have shallow : (toJson notesAndUsers).depth ≤ Json.nestingLimit := by decide +kernel
  have saved : (save Disk.empty "/db.json" notesAndUsers).1 = .ok () := by with_unfolding_all rfl
  exact ⟨plain, shallow, saved, load_save plain shallow saved⟩

end Snapshot

end DocStore

import Mathlib.Algebra.Group.Int.Defs
import Mathlib.Algebra.Group.Nat.Defs
import DocStore.Proofs.Fields
import DocStore.Proofs.Json.Reading
import DocStore.Proofs.Number.DecimalText
import DocStore.Proofs.Number.DoubleText
import DocStore.Proofs.Text.Bytes
import DocStore.Proofs.Value.Induction
import DocStore.Snapshot.Decoding
import DocStore.Snapshot.Encoding

/-!
Values in a snapshot. JSON text does not keep all types of values apart, so that a value may be another
one when it is read back: an integer has the type that its size asks for, plain binary data is an array
of numbers, and a double that is no number is null. A few values cannot be read back at all.

The main statement is that every other value is read back, and what it is then.
-/

namespace DocStore

namespace Value

/-! ## What is read back -/

def ofInteger (number : Int) : Value :=
  if 0 ≤ number ∧ number < Nat.pow 2 31 then .int32 (Int32.ofInt number)
  else .int64 (Int64.ofInt number)

def rereadDouble? (value : Double) : Option Value :=
  if value.isNaN || value.isInfinite then some .null
  else (JsonNumber.double value).numeral.read?.bind ofJsonNumber?

mutual

def reloaded : Value → Value
  | .int32 value => ofInteger value.toInt
  | .int64 value => ofInteger value.toInt
  | .double value => (rereadDouble? value).getD (.double value)
  | .array items => .array (reloadedItems items)
  | .document fields => .document (reloadedFields fields)
  | .binary subtype bytes =>
      if subtype = 0 then .array (bytes.map fun byte => ofInteger byte.toNat)
      else .binary subtype bytes
  | .regex pattern options => .regex pattern (sortedOptions options)
  | .scopedCode source scope => .scopedCode source (reloadedFields scope)
  | .decimal128 bytes => .decimal128 (canonicalDecimal bytes)
  | value => value
termination_by structural value => value

def reloadedItems : List Value → List Value
  | [] => []
  | item :: items => reloaded item :: reloadedItems items
termination_by structural items => items

def reloadedFields : List (String × Value) → List (String × Value)
  | [] => []
  | (key, value) :: fields => (key, reloaded value) :: reloadedFields fields
termination_by structural fields => fields

end

/-- Whether a key makes an object stand for a value of another type. -/
def isTag (key : String) : Bool :=
  key == "$code" || key == "$scope" || (tag? key).isSome

def tags : List String :=
  ["$code", "$scope", "$oid", "$symbol", "$numberInt", "$numberLong", "$numberDouble",
    "$numberDecimal", "$numberDecimalBytes", "$binary", "$uuid", "$timestamp", "$regularExpression",
    "$dbPointer", "$date", "$undefined", "$minKey", "$maxKey"]

theorem mem_tags_of_isTag {key : String} (tag : isTag key = true) : key ∈ tags := by
  rw [isTag, Bool.or_eq_true, Bool.or_eq_true, beq_iff_eq, beq_iff_eq] at tag
  rcases tag with (rfl | rfl) | known
  · decide
  · decide
  unfold tag? at known
  split at known
  · next read text =>
    unfold textTag? at text
    split at text
    case h_7 => cases text
    all_goals decide
  · split at known
    case h_11 => cases known
    all_goals decide

/-- Whether a document is read as one: no two fields have the same key, and no key is a tag. -/
def isPlainDocument (fields : Document) : Bool :=
  decide (Fields.keys fields).Nodup && fields.all fun (key, _) => !isTag key

def isReadable : Value → Bool
  | .document fields => isPlainDocument fields
  | .regex pattern options =>
      !pattern.toList.contains '\x00' && !options.toList.contains '\x00'
  | .scopedCode _ scope => isPlainDocument scope
  | _ => true

/-! ## Integers -/

theorem reread_ofInt {number : Int} (least : -2 ^ 63 ≤ number) (greatest : number < 2 ^ 63) :
    (Json.ofInt number).reread = Json.ofInt number := by
  rw [Json.ofInt]
  split
  · next positive =>
    have small : number.toNat ≤ Numeral.significandLimit := by
      have limit : Numeral.significandLimit = 2 ^ 64 - 1 := rfl
      omega
    have read := Numeral.read?_ofInt_natural small
    rw [Json.reread, Json.ofNumber, Json.ofNumeral, JsonNumber.numeral, read]
  · next negative =>
    have value := Int64.toInt_ofInt_of_le least greatest
    have read : (Numeral.ofInt (Int64.ofInt number).toInt).read? =
        some (.negative (Int64.ofInt number)) := Numeral.read?_ofInt_negative (by omega)
    rw [Json.reread, Json.ofNumber, Json.ofNumeral, JsonNumber.numeral, read]

theorem decode?_ofInt {number : Int} (least : -2 ^ 63 ≤ number) (greatest : number < 2 ^ 63) :
    decode? (Json.ofInt number).reread = some (ofInteger number) := by
  rw [reread_ofInt least greatest, Json.ofInt, decode?, ofInteger]
  simp only [Nat.pow_eq]
  split
  · next positive =>
    have same : ((number.toNat : Nat) : Int) = number := Int.toNat_of_nonneg positive
    rw [ofJsonNumber?]
    simp only [Nat.pow_eq, ← Int32.ofInt_eq_ofNat, ← Int64.ofInt_eq_ofNat, same]
    split
    · rw [if_pos (by omega)]
    · rw [if_pos (by omega), if_neg (by omega)]
  · next negative =>
    rw [if_neg (fun inside => negative inside.1)]
    rfl

theorem ofNat_eq_ofInt (number : Nat) : Json.ofNat number = Json.ofInt number := by
  rw [Json.ofNat, Json.ofInt, if_pos (Int.natCast_nonneg number), Int.toNat_natCast]

theorem reread_ofNat {number : Nat} (small : number < 2 ^ 63) :
    (Json.ofNat number).reread = Json.ofNat number := by
  rw [ofNat_eq_ofInt]
  exact reread_ofInt (by omega) (by omega)

theorem decode?_ofNat {number : Nat} (small : number < 2 ^ 63) :
    decode? (Json.ofNat number).reread = some (ofInteger number) := by
  rw [ofNat_eq_ofInt]
  exact decode?_ofInt (by omega) (by omega)

/-! ## Tagged values -/

theorem decodeMembers?_cons {key : String} (noCode : key ≠ "$code") (noScope : key ≠ "$scope")
    (before : Document) (content : Json) (rest : List (String × Json)) :
    decodeMembers? before ((key, content) :: rest) =
      match tag? key with
      | some read => if rest.isEmpty then read content else none
      | none =>
          match decode? content with
          | some value => decodeMembers? (before.insert key value) rest
          | none => none := by
  rw [decodeMembers?.eq_def]
  exact (if_neg noCode).trans (if_neg noScope)

theorem decode?_tagged (tag : String) {read : Json → Option Value} (isTag : tag? tag = some read)
    (noCode : tag ≠ "$code") (noScope : tag ≠ "$scope") (content : Json) :
    decode? (tagged tag content) = read content := by
  rw [tagged, decode?, decodeMembers?_cons noCode noScope, isTag]
  rfl

theorem vector?_toList {count : Nat} (bytes : Vector UInt8 count) :
    vector? count bytes.toList = some bytes := by
  rcases bytes with ⟨⟨bytes⟩, size⟩
  exact dif_pos size

theorem objectIdOfText?_encode (bytes : Vector UInt8 12) :
    objectIdOfText? (String.ofList (Hex.encode bytes.toList)) = some bytes := by
  rw [objectIdOfText?, String.toList_ofList, Hex.decode?_encode]
  exact vector?_toList bytes

theorem decode?_objectId (bytes : Vector UInt8 12) :
    decode? (encode (.objectId bytes)).reread = some (.objectId bytes) := by
  refine (decode?_tagged "$oid" rfl (by decide) (by decide) _).trans ?_
  change (objectIdOfText? _).map objectId = _
  rw [objectIdOfText?_encode]
  rfl

theorem decode?_dateTime (millis : Int64) :
    decode? (encode (.dateTime millis)).reread = some (.dateTime millis) := by
  refine (decode?_tagged "$date" rfl (by decide) (by decide) _).trans ?_
  change (NumberText.int64? (toString millis.toInt)).bind (fun value => some (dateTime value)) = _
  rw [NumberText.int64?_toString]
  rfl

theorem decode?_binary {subtype : UInt8} (special : subtype ≠ 0) (bytes : List UInt8) :
    decode? (encode (.binary subtype bytes)).reread = some (.binary subtype bytes) := by
  have base64 : Base64.decode? (String.ofList (Base64.encode bytes)).toList = some bytes := by
    rw [String.toList_ofList, Base64.decode?_encode]
  have hex : Hex.decode? (String.ofList (Hex.encodeByte subtype)).toList = some [subtype] := by
    have one := Hex.decode?_encode [subtype]
    rwa [String.toList_ofList]
  rw [encode, encodeBinary, if_neg special]
  refine (decode?_tagged "$binary" rfl (by decide) (by decide) _).trans ?_
  change binaryOfText? _ _ = _
  simp only [binaryOfText?, base64, hex, bind, Option.bind]

theorem decode?_timestamp (time increment : UInt32) :
    decode? (encode (.timestamp time increment)).reread = some (.timestamp time increment) := by
  have natural (number : UInt32) : (Json.ofNat number.toNat).reread = Json.ofNat number.toNat := by
    have bound := number.toNat_lt
    exact reread_ofNat (by omega)
  have within (number : UInt32) :
      (Json.ofNat number.toNat).natWithin? (Nat.pow 2 32 - 1) = some number.toNat := by
    have bound := number.toNat_lt
    exact if_pos (by rw [Nat.pow_eq]; omega)
  refine (decode?_tagged "$timestamp" rfl (by decide) (by decide) _).trans ?_
  simp only [Json.reread, Json.rereadMembers, natural]
  change (do
    let time ← (Json.ofNat time.toNat).natWithin? (Nat.pow 2 32 - 1)
    let increment ← (Json.ofNat increment.toNat).natWithin? (Nat.pow 2 32 - 1)
    return timestamp (UInt32.ofNat time) (UInt32.ofNat increment)) = _
  rw [within, within]
  simp only [bind, Option.bind, pure, UInt32.ofNat_toNat]

theorem decode?_regex {pattern options : String}
    (noNull : (!pattern.toList.contains '\x00' && !options.toList.contains '\x00') = true) :
    decode? (encode (.regex pattern options)).reread =
      some (.regex pattern (sortedOptions options)) := by
  refine (decode?_tagged "$regularExpression" rfl (by decide) (by decide) _).trans ?_
  change regexOfText? pattern options = _
  rw [Bool.and_eq_true] at noNull
  have allowed : (guard (!pattern.toList.contains '\x00' ∧ !options.toList.contains '\x00') :
      Option Unit) = some () := if_pos noNull
  rw [regexOfText?, allowed]
  rfl

theorem decode?_pointer (list : String) (id : Vector UInt8 12) :
    decode? (encode (.pointer list id)).reread = some (.pointer list id) := by
  refine (decode?_tagged "$dbPointer" rfl (by decide) (by decide) _).trans ?_
  change (do return pointer list (← objectIdOfText? (String.ofList (Hex.encode id.toList)))) = _
  rw [objectIdOfText?_encode]
  rfl

theorem decode?_decimal128 (bytes : Vector UInt8 16) :
    decode? (encode (.decimal128 bytes)).reread = some (.decimal128 (canonicalDecimal bytes)) := by
  have read := Decimal128.ofText?_text (Decimal128.isWithin_ofBytes bytes)
  refine (decode?_tagged "$numberDecimal" rfl (by decide) (by decide) _).trans ?_
  change (Decimal128.ofText? (Decimal128.ofBytes bytes).text).map
    (fun content => decimal128 content.toBytes) = _
  rw [read, canonicalDecimal]
  cases Decimal128.ofBytes bytes with
  | _ => rfl

theorem exists_rereadDouble? (value : Double) : ∃ other, rereadDouble? value = some other := by
  rw [rereadDouble?]
  split
  · exact ⟨.null, rfl⟩
  · next number =>
    rw [Bool.or_eq_true, not_or, Bool.not_eq_true, Bool.not_eq_true] at number
    rcases Numeral.exists_read?_ofDouble number.1 number.2 with ⟨other, read⟩
    exact ⟨.double other, by rw [JsonNumber.numeral, read]; rfl⟩

theorem decode?_double (value : Double) :
    decode? (encode (.double value)).reread = some (reloaded (.double value)) := by
  rcases exists_rereadDouble? value with ⟨other, read⟩
  rw [encode, encodeDouble, reloaded, read, Option.getD_some]
  rw [rereadDouble?] at read
  split at read
  · next noNumber =>
    cases read
    rw [if_pos noNumber]
    rfl
  · next number =>
    rcases Option.bind_eq_some_iff.mp read with ⟨result, here, decoded⟩
    rw [if_neg number, Json.reread, Json.ofNumber, Json.ofNumeral, here]
    exact decoded

/-! ## Values with parts -/

theorem decodeItems?_encodeItems {items : List Value}
    (each : ∀ item ∈ items, decode? (encode item).reread = some (reloaded item)) :
    decodeItems? (Json.rereadItems (encodeItems items)) = some (reloadedItems items) := by
  induction items with
  | nil => rfl
  | cons item items induction =>
      have here := each item List.mem_cons_self
      have later := induction fun other member => each other (List.mem_cons_of_mem item member)
      rw [encodeItems, Json.rereadItems, decodeItems?, here, later]
      rfl

theorem decode?_byteNumbers (bytes : List UInt8) :
    decode? (byteNumbers bytes).reread =
      some (.array (bytes.map fun byte => ofInteger byte.toNat)) := by
  have items : decodeItems? (Json.rereadItems (bytes.map fun byte => Json.ofNat byte.toNat)) =
      some (bytes.map fun byte => ofInteger byte.toNat) := by
    induction bytes with
    | nil => rfl
    | cons byte bytes induction =>
        have bound := byte.toNat_lt
        have here : decode? (Json.ofNat byte.toNat).reread = some (ofInteger byte.toNat) :=
          decode?_ofNat (by omega)
        rw [List.map_cons, Json.rereadItems, decodeItems?, here, induction]
        rfl
  rw [byteNumbers, Json.reread, decode?, items]
  rfl

theorem decodeMembers?_encodeFields {fields : Document} (before : Document)
    (distinct : (Fields.keys before ++ Fields.keys fields).Nodup)
    (plain : ∀ field ∈ fields, isTag field.1 = false)
    (each : ∀ field ∈ fields, decode? (encode field.2).reread = some (reloaded field.2)) :
    decodeMembers? before (Json.rereadMembers (encodeFields fields)) =
      some (.document (before ++ reloadedFields fields)) := by
  induction fields generalizing before with
  | nil =>
      rw [encodeFields, Json.rereadMembers, decodeMembers?, reloadedFields, List.append_nil]
  | cons field fields induction =>
      rcases field with ⟨key, value⟩
      have noTag := plain (key, value) List.mem_cons_self
      simp only [isTag, Bool.or_eq_false_iff, beq_eq_false_iff_ne, Option.isSome_eq_false_iff,
        Option.isNone_iff_eq_none] at noTag
      have here : decode? (encode value).reread = some (reloaded value) :=
        each (key, value) List.mem_cons_self
      have fresh : key ∉ Fields.keys before := by
        intro member
        exact (List.nodup_append.mp distinct).2.2 key member key List.mem_cons_self rfl
      have moved : Fields.keys (before ++ [(key, reloaded value)]) ++ Fields.keys fields =
          Fields.keys before ++ Fields.keys ((key, value) :: fields) := by
        simp [Fields.keys]
      have later := induction (before ++ [(key, reloaded value)]) (moved ▸ distinct)
        (fun other member => plain other (List.mem_cons_of_mem _ member))
        (fun other member => each other (List.mem_cons_of_mem _ member))
      rw [encodeFields, Json.rereadMembers, decodeMembers?_cons noTag.1.1 noTag.1.2, noTag.2, here]
      simp only [Fields.insert_of_not_mem fresh, later, List.append_assoc, List.cons_append,
        List.nil_append, reloadedFields]

theorem decode?_encodeFields {fields : Document} (plain : isPlainDocument fields = true)
    (each : ∀ field ∈ fields, decode? (encode field.2).reread = some (reloaded field.2)) :
    decode? (.object (Json.rereadMembers (encodeFields fields))) =
      some (.document (reloadedFields fields)) := by
  simp only [isPlainDocument, Bool.and_eq_true, decide_eq_true_eq, List.all_eq_true,
    Bool.not_eq_true'] at plain
  exact decodeMembers?_encodeFields [] plain.1 plain.2 each

theorem decode?_encode_of_leaf {value : Value} (leaf : value.hasParts = false)
    (readable : isReadable value = true) : decode? value.encode.reread = some value.reloaded := by
  cases value with
  | array items => cases leaf
  | document fields => cases leaf
  | scopedCode source scope => cases leaf
  | int32 value =>
      have least := value.le_toInt
      have greatest := value.toInt_lt
      exact decode?_ofInt (by omega) (by omega)
  | int64 value => exact decode?_ofInt value.le_toInt value.toInt_lt
  | double value => exact decode?_double value
  | dateTime millis => exact decode?_dateTime millis
  | objectId bytes => exact decode?_objectId bytes
  | binary subtype bytes =>
      by_cases generic : subtype = 0
      · rw [encode, encodeBinary, reloaded, if_pos generic, if_pos generic]
        exact decode?_byteNumbers bytes
      · rw [reloaded, if_neg generic]
        exact decode?_binary generic bytes
  | timestamp time increment => exact decode?_timestamp time increment
  | regex pattern options => exact decode?_regex readable
  | symbol text => exact decode?_tagged "$symbol" rfl (by decide) (by decide) _
  | code source => rfl
  | decimal128 bytes => exact decode?_decimal128 bytes
  | pointer list id => exact decode?_pointer list id
  | undefined => exact decode?_tagged "$undefined" rfl (by decide) (by decide) _
  | minKey => rfl
  | maxKey => rfl
  | _ => rfl

/-- What is written of a readable value is read back. -/
theorem decode?_encode {value : Value} (readable : value.everywhere isReadable = true) :
    decode? value.encode.reread = some value.reloaded := by
  induction value using induction_on_parts with
  | array items each =>
      have parts := (everywhere_array_iff.mp readable).2
      have read := decodeItems?_encodeItems fun item member => each item member (parts item member)
      rw [encode, Json.reread, decode?, read]
      rfl
  | document fields each =>
      have parts := everywhere_document_iff.mp readable
      exact decode?_encodeFields parts.1 fun field member =>
        each field member (parts.2 field member)
  | scopedCode source scope each =>
      have parts := everywhere_scopedCode_iff.mp readable
      have read := decode?_encodeFields parts.1 fun field member =>
        each field member (parts.2 field member)
      rw [encode, Json.reread, decode?]
      simp only [Json.rereadMembers, Json.reread, decodeMembers?.eq_def [] (_ :: _), Json.text?,
        beq_self_eq_true, read]
      rfl
  | leaf value leaf => exact decode?_encode_of_leaf leaf (of_everywhere readable)

end Value

end DocStore

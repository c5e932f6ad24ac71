import DocStore.Proofs.Query.IncludeOptions

/-!
Queries as they are written. The parts of a query are given as they stand in a document, with the calls
that they stand for beside it.

The main statement is that exactly the written queries are read, and that reading them gives what the
calls build.
-/

namespace DocStore

/-! ## Directions -/

theorem toNat_toLower (letter : Char) :
    letter.toLower.val.toNat =
      if 65 ≤ letter.val.toNat ∧ letter.val.toNat ≤ 90 then letter.val.toNat + 32
      else letter.val.toNat := by
  have low : letter.val ≥ 'A'.val ↔ 65 ≤ letter.val.toNat := UInt32.le_iff_toNat_le
  have high : letter.val ≤ 'Z'.val ↔ letter.val.toNat ≤ 90 := UInt32.le_iff_toNat_le
  have step : ('a'.val - 'A'.val).toNat = 32 := by decide
  unfold Char.toLower
  simp only [low, high]
  split
  · simp only [UInt32.toNat_add, step]
    omega
  · rfl

theorem toNat_toUpper (letter : Char) :
    letter.toUpper.val.toNat =
      if 97 ≤ letter.val.toNat ∧ letter.val.toNat ≤ 122 then letter.val.toNat - 32
      else letter.val.toNat := by
  have low : 'a'.val ≤ letter.val ↔ 97 ≤ letter.val.toNat := UInt32.le_iff_toNat_le
  have high : letter.val ≤ 'z'.val ↔ letter.val.toNat ≤ 122 := UInt32.le_iff_toNat_le
  have step : ('A'.val - 'a'.val).toNat = 4294967264 := by decide
  unfold Char.toUpper
  simp only [low, high]
  split
  · simp only [UInt32.toNat_add, step]
    omega
  · rfl

theorem toLower_eq_iff {letter small : Char} (lower : small.isLower = true) :
    letter.toLower = small ↔ letter = small ∨ letter = small.toUpper := by
  have same (left right : Char) : left = right ↔ left.val.toNat = right.val.toNat := by
    rw [Char.ext_iff, UInt32.toNat_inj]
  have range : 97 ≤ small.val.toNat ∧ small.val.toNat ≤ 122 := by
    have within := Bool.and_eq_true_iff.mp lower
    exact ⟨UInt32.le_iff_toNat_le.mp (of_decide_eq_true within.1),
      UInt32.le_iff_toNat_le.mp (of_decide_eq_true within.2)⟩
  simp only [same, toNat_toLower, toNat_toUpper, range, and_self, if_true]
  split
  · omega
  · omega

namespace Direction

def letters : Direction → List Char
  | .ascending => ['a', 's', 'c']
  | .descending => ['d', 'e', 's', 'c']

/-- Whether a text names the direction, in small or large letters. -/
def IsSpelled (direction : Direction) (text : String) : Prop :=
  List.Forall₂ (fun letter small => letter = small ∨ letter = small.toUpper) text.toList
    direction.letters

theorem map_toLower_eq_iff {text smalls : List Char} (lower : ∀ small ∈ smalls, small.isLower = true) :
    text.map Char.toLower = smalls ↔
      List.Forall₂ (fun letter small => letter = small ∨ letter = small.toUpper) text smalls := by
  induction smalls generalizing text with
  | nil => rw [List.map_eq_nil_iff, List.forall₂_nil_right_iff]
  | cons small smalls induction =>
      rw [List.forall_mem_cons] at lower
      cases text with
      | nil => simp
      | cons letter text =>
          rw [List.map_cons, List.cons.injEq, List.forall₂_cons, toLower_eq_iff lower.1,
            induction lower.2]

theorem map_toLower_eq_iff_isSpelled {direction : Direction} {text : String} :
    text.map Char.toLower = String.ofList direction.letters ↔ direction.IsSpelled text := by
  have lower : direction.letters.all Char.isLower = true := by
    cases direction with
    | ascending | descending => rfl
  rw [IsSpelled, ← map_toLower_eq_iff (List.all_eq_true.mp lower), ← String.toList_inj, String.toList_map,
    String.toList_ofList]

end Direction

namespace Query

theorem directionOf_eq_ok_iff {text : String} {direction : Direction} :
    directionOf text = .ok direction ↔ direction.IsSpelled text := by
  rw [← Direction.map_toLower_eq_iff_isSpelled, directionOf]
  generalize text.map Char.toLower = lower
  by_cases ascending : lower = "asc"
  · cases direction with
    | ascending => simp [ascending, Direction.letters]
    | descending => simp [ascending, Direction.letters]
  · by_cases descending : lower = "desc"
    · cases direction with
      | ascending => simp [descending, Direction.letters]
      | descending => simp [descending, Direction.letters]
    · cases direction with
      | ascending => simp [ascending, descending, Direction.letters]
      | descending => simp [ascending, descending, Direction.letters]

end Query

/-! ## Parts -/

namespace QueryPart

inductive Count where
  | int32 (count : Int32) (natural : 0 ≤ count.toInt)
  | int64 (count : Int64) (natural : 0 ≤ count.toInt)

namespace Count

def value : Count → Value
  | .int32 count _ => .int32 count
  | .int64 count _ => .int64 count

def rows : Count → Nat
  | .int32 count _ => count.toInt.toNat
  | .int64 count _ => count.toInt.toNat

end Count

inductive OrderForm where
  | plain (field : String)
  | alone (field : String)
  | directed (field text : String) (direction : Direction) (spelled : direction.IsSpelled text)

namespace OrderForm

def value : OrderForm → Value
  | .plain field => .string field
  | .alone field => .array [.string field]
  | .directed field text _ _ => .array [.string field, .string text]

def order : OrderForm → OrderBy
  | .plain field | .alone field => { field, direction := .ascending }
  | .directed field _ direction _ => { field, direction }

end OrderForm

end QueryPart

/-- One part of a query. -/
inductive QueryPart where
  | filter (clause : Document) (predicate : Predicate)
      (read : Predicate.ofDocument clause = .ok predicate)
  | includes (entries : List (String × List IncludeOption))
  | limit (count : QueryPart.Count)
  | offset (count : QueryPart.Count)
  | order (form : QueryPart.OrderForm)

namespace QueryPart

def field : QueryPart → String × Value
  | .filter clause _ _ => ("where", .document clause)
  | .includes entries => ("include", .document (IncludeOption.entriesDocument entries))
  | .limit count => ("limit", count.value)
  | .offset count => ("offset", count.value)
  | .order form => ("orderBy", form.value)

def call (query : Query) : QueryPart → Query
  | .filter _ predicate _ => query.filteredBy predicate
  | .includes entries =>
      entries.foldl (fun query (list, options) =>
        query.including list (IncludeOption.callAll {} options)) query
  | .limit count => query.limitedTo count.rows
  | .offset count => query.startingAt count.rows
  | .order form => query.orderedBy form.order.field form.order.direction

end QueryPart

/-! ## Reading parts -/

namespace Query

theorem countOf_eq_ok_iff {key : String} {value : Value} {rows : Nat} :
    countOf key value = .ok rows ↔
      ∃ count : QueryPart.Count, count.value = value ∧ count.rows = rows := by
  constructor
  · intro read
    unfold countOf at read
    cases value with
    | int32 count =>
        dsimp only at read
        split at read
        · cases read
        · next natural => exact ⟨.int32 count (Int.not_lt.mp natural), rfl, Except.ok.inj read⟩
    | int64 count =>
        dsimp only at read
        split at read
        · cases read
        · next natural => exact ⟨.int64 count (Int.not_lt.mp natural), rfl, Except.ok.inj read⟩
    | _ => cases read
  · rintro ⟨count, rfl, rfl⟩
    cases count with
    | int32 count natural | int64 count natural => exact if_neg (Int.not_lt.mpr natural)

theorem orderOf_eq_ok_iff {value : Value} {order : OrderBy} :
    orderOf value = .ok order ↔
      ∃ form : QueryPart.OrderForm, form.value = value ∧ form.order = order := by
  constructor
  · intro read
    unfold orderOf at read
    split at read
    · next field => exact ⟨.plain field, rfl, Except.ok.inj read⟩
    · next field => exact ⟨.alone field, rfl, Except.ok.inj read⟩
    · next field text =>
      rcases Outcome.bind_eq_ok_iff.mp read with ⟨direction, spelled, same⟩
      exact ⟨.directed field text direction (directionOf_eq_ok_iff.mp spelled), rfl,
        Except.ok.inj same⟩
    · cases read
  · rintro ⟨form, rfl, rfl⟩
    cases form with
    | plain field | alone field => rfl
    | directed field text direction spelled =>
        exact Outcome.bind_eq_ok_iff.mpr ⟨direction, directionOf_eq_ok_iff.mpr spelled, rfl⟩

theorem exists_part_of_setPart {query result : Query} {key : String} {value : Value}
    (read : query.setPart key value = .ok result) : ∃ part : QueryPart, part.field = (key, value) := by
  unfold setPart at read
  split at read
  · next clause =>
    rcases Outcome.bind_eq_ok_iff.mp read with ⟨predicate, read, _⟩
    exact ⟨.filter clause predicate read, rfl⟩
  · next fields =>
    rcases Outcome.bind_eq_ok_iff.mp read with ⟨includes, read, _⟩
    rcases IncludeOption.exists_entries_of_ofDocument read with ⟨entries, rfl⟩
    exact ⟨.includes entries, rfl⟩
  · rcases Outcome.bind_eq_ok_iff.mp read with ⟨rows, read, _⟩
    rcases countOf_eq_ok_iff.mp read with ⟨count, rfl, _⟩
    exact ⟨.limit count, rfl⟩
  · rcases Outcome.bind_eq_ok_iff.mp read with ⟨rows, read, _⟩
    rcases countOf_eq_ok_iff.mp read with ⟨count, rfl, _⟩
    exact ⟨.offset count, rfl⟩
  · rcases Outcome.bind_eq_ok_iff.mp read with ⟨order, read, _⟩
    rcases orderOf_eq_ok_iff.mp read with ⟨form, rfl, _⟩
    exact ⟨.order form, rfl⟩
  · cases read

end Query

namespace QueryPart

theorem call_includes (query : Query) (entries : List (String × List IncludeOption)) :
    call query (.includes entries) =
      { query with
        includes := Fields.insertAll query.includes (IncludeOption.built entries) } := by
  rw [call]
  induction entries generalizing query with
  | nil => rfl
  | cons entry entries induction => exact induction _

/-- Whether a query is as it was at first as far as a part adds to it. -/
def IsFresh (query : Query) : QueryPart → Prop
  | .includes _ => query.includes = []
  | _ => True

theorem isFresh_empty (part : QueryPart) : IsFresh {} part := by
  cases part with
  | includes entries => rfl
  | _ => trivial

theorem isFresh_call {query : Query} {part other : QueryPart}
    (different : part.field.1 ≠ other.field.1) (fresh : IsFresh query other) :
    IsFresh (call query part) other := by
  cases other with
  | includes entries =>
      cases part with
      | includes others => exact absurd rfl different
      | _ => exact fresh
  | _ => trivial

theorem setPart_field (query : Query) (part : QueryPart) :
    ∃ result, query.setPart part.field.1 part.field.2 = .ok result ∧
      (part.field.2.everywhere Value.namesOnce = true → IsFresh query part →
        result = call query part) := by
  cases part with
  | filter clause predicate read =>
      refine ⟨{ query with filter := predicate }, ?_, fun _ _ => rfl⟩
      exact Outcome.bind_eq_ok_iff.mpr ⟨predicate, read, rfl⟩
  | includes entries =>
      rcases IncludeOption.ofDocument_entriesDocument entries with ⟨includes, read, called⟩
      refine ⟨{ query with includes }, Outcome.bind_eq_ok_iff.mpr ⟨includes, read, rfl⟩, ?_⟩
      intro proper fresh
      have unset : query.includes = [] := fresh
      rw [call_includes, called proper, unset]
      rfl
  | limit count =>
      refine ⟨query.limitedTo count.rows, Outcome.bind_eq_ok_iff.mpr ⟨count.rows, ?_, rfl⟩,
        fun _ _ => rfl⟩
      exact Query.countOf_eq_ok_iff.mpr ⟨count, rfl, rfl⟩
  | offset count =>
      refine ⟨query.startingAt count.rows, Outcome.bind_eq_ok_iff.mpr ⟨count.rows, ?_, rfl⟩,
        fun _ _ => rfl⟩
      exact Query.countOf_eq_ok_iff.mpr ⟨count, rfl, rfl⟩
  | order form =>
      refine ⟨{ query with order := some form.order },
        Outcome.bind_eq_ok_iff.mpr ⟨form.order, ?_, rfl⟩, fun _ _ => rfl⟩
      exact Query.orderOf_eq_ok_iff.mpr ⟨form, rfl, rfl⟩

theorem nameListsOnce_call {query : Query} (once : query.includes.NameListsOnce) (part : QueryPart) :
    (call query part).includes.NameListsOnce := by
  cases part with
  | includes entries =>
      rw [call_includes]
      exact IncludeOption.nameListsOnce_built once entries
  | _ => exact once

theorem nameListsOnce_calls {query : Query} (once : query.includes.NameListsOnce)
    (parts : List QueryPart) : (parts.foldl call query).includes.NameListsOnce := by
  induction parts generalizing query with
  | nil => exact once
  | cons part parts induction => exact induction (nameListsOnce_call once part)

end QueryPart

/-! ## Reading queries -/

namespace Query

theorem exists_parts_of_ofDocument {document : Document} {query : Query}
    (read : ofDocument document = .ok query) :
    ∃ parts : List QueryPart, parts.map QueryPart.field = document :=
  Document.exists_parts_of_foldlM (fun _ _ _ _ => exists_part_of_setPart) read

theorem ofDocument_fields (parts : List QueryPart) :
    ∃ query, ofDocument (parts.map QueryPart.field) = .ok query ∧
      (Document.IsProper (parts.map QueryPart.field) → query = parts.foldl QueryPart.call {}) := by
  have reads : ∃ query, ofDocument (parts.map QueryPart.field) = .ok query ∧
      (Document.IsProper (parts.map QueryPart.field) →
        (∀ part ∈ parts, QueryPart.IsFresh {} part) → query = parts.foldl QueryPart.call {}) :=
    Document.foldlM_parts (fun part _ query => QueryPart.setPart_field query part)
      (fun _ _ _ => QueryPart.isFresh_call) {}
  rcases reads with ⟨query, read, called⟩
  exact ⟨query, read, fun proper => called proper fun part _ => QueryPart.isFresh_empty part⟩

/-- Exactly the written queries are read: those whose entries are parts. Everything else is an invalid
query. What is read of a document, in which documents name each field once, is what the calls for its
parts build in their order, and no list is named twice among its includes, at any depth. -/
theorem canonical_documents_read_as_built (document : Document) :
    ((∃ query, ofDocument document = .ok query) ↔
        ∃ parts : List QueryPart, parts.map QueryPart.field = document) ∧
      ((¬ ∃ parts : List QueryPart, parts.map QueryPart.field = document) → ∃ cause,
        (ofDocument document).mapError StoreError.invalidQuery = .error (.invalidQuery cause)) ∧
      ∀ (parts : List QueryPart) (query : Query), parts.map QueryPart.field = document →
        ofDocument document = .ok query → document.IsProper →
        query = parts.foldl QueryPart.call {} ∧ query.includes.NameListsOnce := by
  have accepted : (∃ query, ofDocument document = .ok query) ↔
      ∃ parts : List QueryPart, parts.map QueryPart.field = document := by
    constructor
    · rintro ⟨query, read⟩
      exact exists_parts_of_ofDocument read
    · rintro ⟨parts, rfl⟩
      rcases ofDocument_fields parts with ⟨query, read, _⟩
      exact ⟨query, read⟩
  refine ⟨accepted, fun other => ?_, ?_⟩
  · cases read : ofDocument document with
    | ok query => exact absurd (accepted.mp ⟨query, read⟩) other
    | error cause => exact ⟨cause, rfl⟩
  · rintro parts query rfl read proper
    rcases ofDocument_fields parts with ⟨result, readAgain, called⟩
    cases Except.ok.inj (read.symm.trans readAgain)
    have built := called proper
    exact ⟨built, built ▸ QueryPart.nameListsOnce_calls Includes.nameListsOnce_nil parts⟩

/-! Messages of a type with their users, who must have an avatar, in falling order of their names. -/

private def messagesDocument : Document :=
  [("where", .document [("type", .string "A")]),
    ("include", .document [("users", .document [("on", .document [("users_id", .string "id")]),
      ("required", .bool true),
      ("include", .document [("avatars", .document [("required", .bool false)])])])]),
    ("orderBy", .array [.string "name", .string "DEsc"]), ("offset", .int32 2), ("limit", .int64 5)]

private def messagesQuery : Query :=
  ((((({} : Query).filteredBy (.fieldEquals "type" (.string "A"))).including "users"
    (((({} : Include).joinOn "users_id" "id").require).including "avatars" {})).orderedBy "name"
    .descending).startingAt 2).limitedTo 5

private def messagesParts : List QueryPart :=
  [.filter [("type", .string "A")] (.fieldEquals "type" (.string "A")) rfl,
    .includes [("users",
      [.on [("users_id", "id")], .required true, .includes [("avatars", [.required false])]])],
    .order (.directed "name" "DEsc" .descending (directionOf_eq_ok_iff.mp (by with_unfolding_all rfl))),
    .offset (.int32 2 (by decide)), .limit (.int64 5 (by decide))]

theorem messages_document_read_as_built :
    messagesParts.map QueryPart.field = messagesDocument ∧
      ofDocument messagesDocument = .ok messagesQuery ∧ Document.IsProper messagesDocument ∧
      messagesQuery = messagesParts.foldl QueryPart.call {} ∧
      messagesQuery.includes.NameListsOnce := by
  have written : messagesParts.map QueryPart.field = messagesDocument := by with_unfolding_all rfl
  have read : ofDocument messagesDocument = .ok messagesQuery := by with_unfolding_all rfl
  have proper : Document.IsProper messagesDocument := by decide +kernel
  exact ⟨written, read, proper,
    (canonical_documents_read_as_built messagesDocument).2.2 messagesParts messagesQuery written read
      proper⟩

end Query

end DocStore

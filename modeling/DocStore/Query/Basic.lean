import DocStore.Query.Includes
import DocStore.Query.Sorting

/-!
Queries on one list: a predicate, includes, an order and a page.
-/

namespace DocStore

structure Query where
  filter : Predicate := {}
  includes : Includes := []
  limit : Option Nat := none
  offset : Option Nat := none
  order : Option OrderBy := none

namespace Query

def page {α : Type} (query : Query) (rows : List α) : List α :=
  let rest := rows.drop (query.offset.getD 0)
  match query.limit with
  | some limit => rest.take limit
  | none => rest

/-! ## Reading -/

def countOf (key : String) (value : Value) : Except QueryError Nat :=
  let count? : Option Int :=
    match value with
    | .int32 count => some count.toInt
    | .int64 count => some count.toInt
    | _ => none
  match count? with
  | none => .error (.countNotInteger key value)
  | some count => if count < 0 then .error (.negativeCount key) else .ok count.toNat

/-- Reads a direction in any case of ASCII letters. -/
def directionOf (text : String) : Except QueryError Direction :=
  let lower := text.map Char.toLower
  if lower = "asc" then .ok .ascending
  else if lower = "desc" then .ok .descending
  else .error (.unknownDirection lower)

/-- Reads an order: a field, or an array of a field and perhaps a direction. -/
def orderOf : Value → Except QueryError OrderBy
  | .string field => .ok { field }
  | .array [.string field] => .ok { field }
  | .array [.string field, .string direction] => do
      return { field, direction := ← directionOf direction }
  | _ => .error .malformedOrder

def setPart (query : Query) (key : String) (value : Value) : Except QueryError Query :=
  match key, value with
  | "where", .document filter => do return { query with filter := ← Predicate.ofDocument filter }
  | "include", .document includes => do
      return { query with includes := ← Includes.ofDocument includes }
  | "limit", _ => do return { query with limit := some (← countOf "limit" value) }
  | "offset", _ => do return { query with offset := some (← countOf "offset" value) }
  | "orderBy", _ => do return { query with order := some (← orderOf value) }
  | _, _ => .error (.unexpectedQueryKey key)

def ofDocument (document : Document) : Except QueryError Query :=
  document.foldlM (fun query (key, value) => query.setPart key value) {}

end Query

end DocStore

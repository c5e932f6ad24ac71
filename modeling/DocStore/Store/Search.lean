import DocStore.Predicate.Patterns
import DocStore.Query.Basic
import DocStore.Store.Joins

/-!
Answers to queries.
-/

namespace DocStore.Collections

variable (collections : Collections) (list : String) (query : Query)

def selected : Except StoreError (List Document) := do
  query.filter.checkPatterns
  let rows := query.filter.select (← collections.documents list)
  return match query.order with
    | some order => order.sort rows
    | none => rows

/-- Answers a query. Required includes drop rows, so they are attached before the page is cut;
otherwise only the page gets them. -/
def find : Except StoreError (List Document) := do
  let rows ← selected collections list query
  if query.includes.hasRequired then
    return query.page (← collections.attach list query.includes rows)
  else
    collections.attach list query.includes (query.page rows)

/-- The first document that answers a query, whatever its limit. -/
def findOne : Except StoreError (Option Document) := do
  return (← collections.find list { query with limit := some 1 }).head?

end DocStore.Collections

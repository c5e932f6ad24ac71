import DocStore.Value.Basic

/-!
The two orders of values: the partial one of range conditions, which only compares values of one
kind, and the total one for sorting.
-/

namespace DocStore

inductive Scalar where
  | bool (value : Bool)
  | number (value : Number)
  | string (text : String)
  | dateTime (millis : Int64)

namespace Scalar

def compare? : Scalar → Scalar → Option Ordering
  | .bool left, .bool right => some (compare left right)
  | .number left, .number right => left.compare? right
  | .string left, .string right => some (compare left right)
  | .dateTime left, .dateTime right => some (compare left.toInt right.toInt)
  | _, _ => none

end Scalar

namespace Value

def scalar? : Value → Option Scalar
  | .bool value => some (.bool value)
  | .int32 value => some (.number (.integer value.toInt64))
  | .int64 value => some (.number (.integer value))
  | .double value => some (.number (.double value))
  | .string text => some (.string text)
  | .dateTime millis => some (.dateTime millis)
  | _ => none

def compare? (left right : Value) : Option Ordering :=
  match left.scalar?, right.scalar? with
  | some left, some right => left.compare? right
  | _, _ => none

def rank : Value → Nat
  | .null => 0
  | .bool _ => 1
  | .int32 _ | .int64 _ | .double _ => 2
  | .string _ => 3
  | .dateTime _ => 4
  | .array _ => 5
  | .document _ => 6
  | _ => 7

/-- The order for sorting: by kind, then by value where the kind has an order. -/
def sortCompare (left right : Value) : Ordering :=
  match left.scalar?, right.scalar? with
  | some (.bool left), some (.bool right) => compare left right
  | some (.number left), some (.number right) => left.sortCompare right
  | some (.string left), some (.string right) => compare left right
  | some (.dateTime left), some (.dateTime right) => compare left.toInt right.toInt
  | _, _ => compare left.rank right.rank

end Value

end DocStore

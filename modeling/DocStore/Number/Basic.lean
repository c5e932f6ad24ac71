import DocStore.Number.Double

/-!
Numbers as values hold them: 64-bit integers and doubles, ordered by the number they stand for.
-/

namespace DocStore

inductive Number where
  | integer (value : Int64)
  | double (value : Double)
deriving DecidableEq, Repr

namespace Number

def isNaN : Number → Bool
  | .integer _ => false
  | .double value => value.isNaN

def compare? : Number → Number → Option Ordering
  | .integer left, .integer right => some (compare left.toInt right.toInt)
  | .integer left, .double right => right.compareInt? left
  | .double left, .integer right => (left.compareInt? right).map Ordering.swap
  | .double left, .double right => left.compare? right

def equals (left right : Number) : Bool :=
  left.compare? right == some .eq

/-- The order for sorting: a NaN comes after every other number and beside every NaN. -/
def sortCompare (left right : Number) : Ordering :=
  match left.isNaN, right.isNaN with
  | true, true => .eq
  | true, false => .gt
  | false, true => .lt
  | false, false => (left.compare? right).getD .eq

end Number

end DocStore

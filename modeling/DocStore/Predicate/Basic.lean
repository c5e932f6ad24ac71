import DocStore.Value.Equality
import DocStore.Value.Order
import DocStore.Text.Like

/-!
Predicates on documents: conditions on fields that must all hold, and alternatives of which one
must hold.
-/

namespace DocStore

inductive Operator where
  | like
  | notLike
  | gt
  | gte
  | lt
  | lte
  | oneOf
deriving DecidableEq, Repr

namespace Operator

def all : List Operator :=
  [.like, .notLike, .gt, .gte, .lt, .lte, .oneOf]

def name : Operator → String
  | .like => "$like"
  | .notLike => "$notLike"
  | .gt => "$gt"
  | .gte => "$gte"
  | .lt => "$lt"
  | .lte => "$lte"
  | .oneOf => "$in"

def ofName? (name : String) : Option Operator :=
  all.find? (·.name == name)

end Operator

inductive Condition where
  | equal (value : Value)
  | compare (operator : Operator) (argument : Value)

structure Predicate where
  conditions : List (String × Condition) := []
  /-- If given, at least one of these must hold too. -/
  alternatives : Option (List Predicate) := none

namespace Predicate

def isEmpty (predicate : Predicate) : Bool :=
  predicate.conditions.isEmpty && predicate.alternatives.isNone

def add (predicate : Predicate) (field : String) (condition : Condition) : Predicate :=
  { predicate with conditions := predicate.conditions ++ [(field, condition)] }

def fieldEquals (field : String) (value : Value) : Predicate where
  conditions := [(field, .equal value)]

end Predicate

/-! ## Evaluation -/

namespace Operator

/-- Whether a string field matches a string pattern. Everything else matches nothing. -/
def likeHolds : Option Value → Value → Bool
  | some (.string text), .string pattern => Like.isMatch pattern text
  | _, _ => false

def comparesAs (outcomes : List Ordering) : Option Value → Value → Bool
  | some found, argument =>
      match found.compare? argument with
      | some outcome => outcomes.contains outcome
      | none => false
  | none, _ => false

def oneOfHolds : Option Value → Value → Bool
  | some found, .array candidates => candidates.any (found.equals ·)
  | _, _ => false

def holds (operator : Operator) (found : Option Value) (argument : Value) : Bool :=
  match operator with
  | .like => likeHolds found argument
  | .notLike => !likeHolds found argument
  | .gt => comparesAs [.gt] found argument
  | .gte => comparesAs [.gt, .eq] found argument
  | .lt => comparesAs [.lt] found argument
  | .lte => comparesAs [.lt, .eq] found argument
  | .oneOf => oneOfHolds found argument

end Operator

def Condition.holds (condition : Condition) (found : Option Value) : Bool :=
  match condition, found with
  | .equal value, some found => found.equals value
  | .equal _, none => false
  | .compare operator argument, found => operator.holds found argument

namespace Predicate

def allHold (conditions : List (String × Condition)) (document : Document) : Bool :=
  conditions.all fun (field, condition) => condition.holds (document.get? field)

mutual

def accepts : Predicate → Document → Bool
  | ⟨conditions, none⟩, document => allHold conditions document
  | ⟨conditions, some alternatives⟩, document =>
      allHold conditions document && anyAccepts alternatives document
termination_by structural predicate => predicate

def anyAccepts : List Predicate → Document → Bool
  | [], _ => false
  | predicate :: predicates, document =>
      accepts predicate document || anyAccepts predicates document
termination_by structural predicates => predicates

end

def select (predicate : Predicate) (documents : List Document) : List Document :=
  documents.filter predicate.accepts

end Predicate

end DocStore

import DocStore.Predicate.Basic
import DocStore.Error

/-!
Predicates read from documents: a key with a plain value is an equality, a key with a document of
operators stands for one condition each, and `$or` holds the alternatives.
-/

namespace DocStore

def orKey : String := "$or"

def isOperatorKey (key : String) : Bool :=
  key.toList.head? == some '$'

/-- The condition for one operator; some operators restrict their argument. -/
def Condition.ofOperator (field operator : String) (argument : Value) :
    Except QueryError Condition :=
  match Operator.ofName? operator, argument with
  | none, _ => .error (.unknownOperator operator field)
  | some .like, .string _ => .ok (.compare .like argument)
  | some .like, _ => .error (.patternNotString operator field)
  | some .notLike, .string _ => .ok (.compare .notLike argument)
  | some .notLike, _ => .error (.patternNotString operator field)
  | some .oneOf, .array _ => .ok (.compare .oneOf argument)
  | some .oneOf, _ => .error (.candidatesNotArray field)
  | some operator, _ => .ok (.compare operator argument)

namespace Predicate

def conditionsOf (field : String) (value : Value) :
    Except QueryError (List (String × Condition)) :=
  match value with
  | .document entries =>
      if entries.any (isOperatorKey ·.1) then
        if entries.all (isOperatorKey ·.1) then
          entries.mapM fun (operator, argument) => do
            return (field, ← Condition.ofOperator field operator argument)
        else .error (.mixedConstraint field)
      else .ok [(field, .equal value)]
  | _ => .ok [(field, .equal value)]

def ofField (key : String) (value : Value) : Except QueryError Predicate :=
  if isOperatorKey key then .error (.unknownTopLevelOperator key)
  else (conditionsOf key value).map fun conditions => { conditions }

def join (first others : Predicate) : Predicate where
  conditions := first.conditions ++ others.conditions
  alternatives := others.alternatives <|> first.alternatives

mutual

def ofValue (key : String) : Value → Except QueryError Predicate
  | .array items =>
      if key = orKey then
        match ofAlternatives items with
        | .ok alternatives => .ok { alternatives := some alternatives }
        | .error cause => .error cause
      else ofField key (.array items)
  | value => if key = orKey then .error .alternativesNotArray else ofField key value
termination_by structural value => value

def ofAlternative : Value → Except QueryError Predicate
  | .document fields => ofDocument fields
  | _ => .error .alternativeNotDocument
termination_by structural value => value

def ofAlternatives : List Value → Except QueryError (List Predicate)
  | [] => .ok []
  | item :: items =>
      match ofAlternative item with
      | .error cause => .error cause
      | .ok predicate =>
          match ofAlternatives items with
          | .error cause => .error cause
          | .ok predicates => .ok (predicate :: predicates)
termination_by structural items => items

/-- Reads a predicate. The first fault in the order of the document is reported. -/
def ofDocument : List (String × Value) → Except QueryError Predicate
  | [] => .ok {}
  | (key, value) :: fields =>
      match ofValue key value with
      | .error cause => .error cause
      | .ok first =>
          match ofDocument fields with
          | .error cause => .error cause
          | .ok others => .ok (first.join others)
termination_by structural fields => fields

end

end Predicate

end DocStore

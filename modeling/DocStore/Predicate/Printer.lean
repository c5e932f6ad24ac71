import DocStore.Predicate.Parser

/-!
The canonical document of a predicate: operators of one field are gathered, and the alternatives
come last.
-/

namespace DocStore.Predicate

/-- Adds an operator to those already gathered under a field. Anything else there is replaced. -/
def addOperator (document : Document) (field : String) (operator : Operator) (argument : Value) :
    Document :=
  let gathered : Document :=
    match document.get? field with
    | some (.document operators) => if operators.all (isOperatorKey ·.1) then operators else []
    | _ => []
  document.insert field (.document (gathered.insert operator.name argument))

def addCondition (document : Document) : String × Condition → Document
  | (field, .equal value) => document.insert field value
  | (field, .compare operator argument) => addOperator document field operator argument

mutual

def toDocument : Predicate → Document
  | ⟨conditions, none⟩ => conditions.foldl addCondition []
  | ⟨conditions, some alternatives⟩ =>
      Fields.insert (conditions.foldl addCondition []) orKey (.array (toValues alternatives))
termination_by structural predicate => predicate

def toValues : List Predicate → List Value
  | [] => []
  | predicate :: predicates => .document (toDocument predicate) :: toValues predicates
termination_by structural predicates => predicates

end

def display (predicate : Predicate) : String :=
  predicate.toDocument.display

end DocStore.Predicate

import DocStore.Value.Basic

/-!
Equality of values: arrays by position, documents by key in any order, numbers by the number they
stand for. A scope of code is compared more strictly: there an integer never equals a double.
-/

namespace DocStore

/-- When two numbers count as equal. -/
inductive NumberEquality where
  | byValue
  | byType
deriving DecidableEq, Repr

namespace Value

def sameLeaf : Value → Value → Bool
  | .null, .null => true
  | .bool left, .bool right => left == right
  | .int32 left, .int32 right => left == right
  | .int64 left, .int64 right => left == right
  | .double left, .double right => left.equals right
  | .string left, .string right => left == right
  | .dateTime left, .dateTime right => left == right
  | .objectId left, .objectId right => left == right
  | .binary leftType left, .binary rightType right => leftType == rightType && left == right
  | .timestamp leftTime left, .timestamp rightTime right => leftTime == rightTime && left == right
  | .regex left leftOptions, .regex right rightOptions =>
      left == right && leftOptions == rightOptions
  | .symbol left, .symbol right => left == right
  | .code left, .code right => left == right
  | .decimal128 left, .decimal128 right => left == right
  | .pointer leftList left, .pointer rightList right => leftList == rightList && left == right
  | .undefined, .undefined => true
  | .minKey, .minKey => true
  | .maxKey, .maxKey => true
  | _, _ => false

def leafAgrees (numbers : NumberEquality) (left right : Value) : Bool :=
  match numbers, left.number?, right.number? with
  | .byValue, some left, some right => left.equals right
  | _, _, _ => sameLeaf left right

def keysInclude (document others : Document) : Bool :=
  others.all fun (key, _) => document.contains key

mutual

def agrees (numbers : NumberEquality) : Value → Value → Bool
  | .array items, right =>
      match right with
      | .array others => itemsAgree numbers items others
      | _ => false
  | .document fields, right =>
      match right with
      | .document others => fieldsAgree numbers [] fields others && keysInclude fields others
      | _ => false
  | .scopedCode source scope, right =>
      match right with
      | .scopedCode otherSource others =>
          source == otherSource && fieldsAgree .byType [] scope others && keysInclude scope others
      | _ => false
  | left, right => leafAgrees numbers left right
termination_by structural value => value

def itemsAgree (numbers : NumberEquality) : List Value → List Value → Bool
  | [], others => others.isEmpty
  | item :: items, others =>
      match others with
      | [] => false
      | other :: others => agrees numbers item other && itemsAgree numbers items others
termination_by structural items => items

/-- Whether every field, apart from those under the keys already seen, agrees with the other
document's field of the same key. -/
def fieldsAgree (numbers : NumberEquality) (seen : List String) :
    List (String × Value) → Document → Bool
  | [], _ => true
  | (key, value) :: fields, others =>
      (seen.contains key ||
        match Fields.get? others key with
        | some other => agrees numbers value other
        | none => false) &&
      fieldsAgree numbers (key :: seen) fields others
termination_by structural fields => fields

end

def equals (left right : Value) : Bool :=
  left.agrees .byValue right

end Value

end DocStore

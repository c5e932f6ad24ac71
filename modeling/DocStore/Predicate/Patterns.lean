import DocStore.Error
import DocStore.Predicate.Basic

/-!
The patterns in a predicate. They are checked before the predicate is evaluated, whether any
document would meet them or not.
-/

namespace DocStore

def Condition.pattern? : Condition → Option String
  | .compare .like (.string pattern) => some pattern
  | .compare .notLike (.string pattern) => some pattern
  | _ => none

namespace Predicate

def conditionPatterns (conditions : List (String × Condition)) : List String :=
  conditions.filterMap fun (_, condition) => condition.pattern?

mutual

/-- The patterns of a predicate: first those of its conditions, then those of its alternatives,
one after another. -/
def patterns : Predicate → List String
  | ⟨conditions, none⟩ => conditionPatterns conditions
  | ⟨conditions, some alternatives⟩ =>
      conditionPatterns conditions ++ alternativePatterns alternatives
termination_by structural predicate => predicate

def alternativePatterns : List Predicate → List String
  | [] => []
  | predicate :: predicates => patterns predicate ++ alternativePatterns predicates
termination_by structural predicates => predicates

end

def checkPattern (pattern : String) : Except StoreError Unit :=
  if Like.isCompilable pattern then .ok () else .error (.invalidQuery (.patternTooLarge pattern))

def checkPatterns (predicate : Predicate) : Except StoreError Unit :=
  predicate.patterns.forM checkPattern

/-- Whether a document meets a predicate whose patterns can all be used. -/
def evaluate (predicate : Predicate) (document : Document) : Except StoreError Bool := do
  predicate.checkPatterns
  return predicate.accepts document

end Predicate

end DocStore

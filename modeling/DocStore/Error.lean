import DocStore.Text.Like
import DocStore.Value.Display

/-!
Everything that can go wrong, by cause, and the message for each.
-/

namespace DocStore

inductive QueryError where
  | alternativesNotArray
  | alternativeNotDocument
  | unknownTopLevelOperator (key : String)
  | mixedConstraint (field : String)
  | unknownOperator (operator field : String)
  | patternNotString (operator field : String)
  | patternTooLarge (pattern : String)
  | candidatesNotArray (field : String)
  | foreignFieldNotString (localField : String)
  | unexpectedIncludeOption (key : String)
  | includeNotDocument (list : String)
  | countNotInteger (key : String) (found : Value)
  | negativeCount (key : String)
  | malformedOrder
  | unknownDirection (direction : String)
  | unexpectedQueryKey (key : String)
  | unexpectedUpdateKey (key : String)

inductive DocumentError where
  | notADocument (typeName : String)
  | idNotUpdatable
  | nestedNotDocument (field : String) (found : Value)

inductive ConfigurationError where
  | unreadable (path : String)
  | noBackends
  | unknownBackend (list backend : String)
  | unassignedList (list : String)
  | unknownType (backend typeName : String) (registered : List String)
  | invalidMemorySettings
  | unroutedList (list : String)
  | missingBackend (backend : String)
  | missingAction (list action : String)

inductive SnapshotStep where
  | read
  | parse
  | write
  | replace
deriving DecidableEq, Repr

inductive StoreError where
  | configuration (cause : ConfigurationError)
  | startup (name : String) (cause : StoreError)
  | serialization
  | documentAlreadyExists (id : Value) (list : String)
  | collectionNotFound (list : String)
  | invalidDocument (cause : DocumentError)
  | invalidQuery (cause : QueryError)
  | persistence (step : SnapshotStep) (path : String)
  | backend (description : String)

/-! ## Messages -/

def QueryError.message : QueryError → String
  | .alternativesNotArray => "$or requires an array of predicates"
  | .alternativeNotDocument => "$or entries must be documents"
  | .unknownTopLevelOperator key => "unknown top-level operator '" ++ key ++ "'"
  | .mixedConstraint field => "constraint on '" ++ field ++ "' mixes operators and plain fields"
  | .unknownOperator operator field => "unknown operator '" ++ operator ++ "' on '" ++ field ++ "'"
  | .patternNotString operator field =>
      operator ++ " on '" ++ field ++ "' requires a string pattern"
  | .patternTooLarge pattern =>
      "bad $like pattern '" ++ pattern ++ "': Compiled regex exceeds size limit of " ++
        toString Like.sizeLimit ++ " bytes."
  | .candidatesNotArray field => "$in on '" ++ field ++ "' requires an array"
  | .foreignFieldNotString localField =>
      "include 'on." ++ localField ++ "' must name a foreign field"
  | .unexpectedIncludeOption key => "unexpected include option '" ++ key ++ "'"
  | .includeNotDocument list => "include '" ++ list ++ "' must be a document"
  | .countNotInteger key found => key ++ " must be an integer, got " ++ found.display
  | .negativeCount key => key ++ " must not be negative"
  | .malformedOrder => "orderBy must be [field, direction]"
  | .unknownDirection direction => "unknown sort direction '" ++ direction ++ "'"
  | .unexpectedQueryKey key => "unexpected query key '" ++ key ++ "'"
  | .unexpectedUpdateKey key => "unexpected update key '" ++ key ++ "'"

def DocumentError.message : DocumentError → String
  | .notADocument typeName => "expected a document, got " ++ typeName
  | .idNotUpdatable => "'" ++ Document.idKey ++ "' cannot be updated"
  | .nestedNotDocument field found =>
      "nested '" ++ field ++ "' entries must be documents, found " ++ found.display

def ConfigurationError.message : ConfigurationError → String
  | .unreadable path => "cannot read " ++ path
  | .noBackends => "no backends configured"
  | .unknownBackend list backend =>
      "list '" ++ list ++ "' is routed to unknown backend '" ++ backend ++ "'"
  | .unassignedList list => "list '" ++ list ++ "' does not name a backend"
  | .unknownType backend typeName registered =>
      "backend '" ++ backend ++ "' has unknown type '" ++ typeName ++ "' (registered: " ++
        ", ".intercalate registered ++ ")"
  | .invalidMemorySettings => "invalid memory backend config"
  | .unroutedList list => "list '" ++ list ++ "' is not routed to any backend"
  | .missingBackend backend => "backend '" ++ backend ++ "' is not configured"
  | .missingAction list action =>
      "'" ++ list ++ "' list backend is missing the '" ++ action ++ "' action"

def SnapshotStep.verb : SnapshotStep → String
  | .read => "read"
  | .parse => "parse"
  | .write => "write"
  | .replace => "replace"

/-- An identifier in a message; a string stands without quotes. -/
def Value.label : Value → String
  | .string text => text
  | id => id.display

def StoreError.message : StoreError → String
  | .configuration cause => "Configuration error: " ++ cause.message
  | .startup name cause => "Initialization error: backend '" ++ name ++ "': " ++ cause.message
  | .serialization => "Serialization error"
  | .documentAlreadyExists id list =>
      "Document " ++ id.label ++ " already exists in collection " ++ list
  | .collectionNotFound list => "Collection not found: " ++ list
  | .invalidDocument cause => "Invalid document: " ++ cause.message
  | .invalidQuery cause => "Invalid query: " ++ cause.message
  | .persistence step path => "Persistence error: cannot " ++ step.verb ++ " " ++ path
  | .backend description => "Backend error: " ++ description

end DocStore

import DocStore.Value.Basic

/-!
What is created by one request, and what the answer holds.
-/

namespace DocStore

inductive NewDocuments where
  | one (document : Document)
  | many (documents : List Document)

def NewDocuments.toList : NewDocuments → List Document
  | .one document => [document]
  | .many documents => documents

/-- Whether a caller wants the documents back that it creates. -/
inductive Reply where
  | documents
  | acknowledgement
deriving DecidableEq, Repr

inductive Created where
  | one (document : Document)
  | many (documents : List Document)
  | acknowledged

namespace Created

def documents : Created → List Document
  | .one document => [document]
  | .many documents => documents
  | .acknowledged => []

def isAcknowledged : Created → Bool
  | .acknowledged => true
  | _ => false

def of (requested : NewDocuments) (reply : Reply) (created : List Document) : Created :=
  match reply, requested, created with
  | .acknowledgement, _, _ => .acknowledged
  | .documents, .one _, [document] => .one document
  | .documents, _, documents => .many documents

end Created

end DocStore

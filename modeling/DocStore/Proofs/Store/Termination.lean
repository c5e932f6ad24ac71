import DocStore.Medium.Disk
import DocStore.Proofs.Session
import DocStore.Proofs.Store.Creation
import Mathlib.Logic.Function.Iterate

/-!
The depth of creations. The children of a document, each with a copy of its identifier, hold fewer
documents than it does, so that a creation calls for creations within each other only as often as a
document that is created holds documents.

The main statement says so of the recursion itself: what would be done in deeper calls does not matter.
-/

namespace DocStore

/-! ## Calls -/

/-- Whether a document that goes into a list calls for the creation of its children in another: whatever
lists are known then, they are what stands in one of its fields. -/
def Document.CallsFor (list : String) (parent : Document) (field : String)
    (children : List Document) : Prop :=
  ∃ known items, (field, items) ∈ parent.nestedFields known ∧
    children = Document.childrenOf list (parent.withoutNested known) items

namespace Document

variable {list field : String} {parent child : Document} {children : List Document}

theorem nodes_lt_of_callsFor (calls : parent.CallsFor list field children)
    (member : child ∈ children) : child.nodes < parent.nodes := by
  rcases calls with ⟨known, items, nested, rfl⟩
  exact Nat.lt_of_le_of_lt (nodes_le_maxNodes member) (maxNodes_childrenOf_lt nested)

theorem maxNodes_lt_of_callsFor {ids : IdSupply} {documents : List Document}
    (member : parent ∈ ids.identify documents) (calls : parent.CallsFor list field children) :
    maxNodes children < maxNodes documents := by
  have smaller : maxNodes children < parent.nodes :=
    maxNodes_lt parent.nodes_pos fun _ inside => nodes_lt_of_callsFor calls inside
  exact Nat.lt_of_lt_of_le smaller (nodes_le_of_mem_identify member)

end Document

namespace Store

variable {σ : Type} [Medium σ] {ids : IdSupply} {list : String} {documents : List Document}

/-! ## One level -/

theorem createLevel_congr {first second : Creation σ}
    (same : ∀ parent ∈ ids.identify documents, ∀ place field children,
      parent.CallsFor list field children → first place field children = second place field children) :
    createLevel first ids list documents = createLevel second ids list documents := by
  refine bind_congr fun known => bind_congr fun _ => bind_congr fun _ => ?_
  refine Session.mapM_congr ?_
  rintro ⟨document, index⟩ position
  refine congrArg (· >>= _) (Session.mapM_congr ?_)
  rintro ⟨⟨field, items⟩, place⟩ nested
  have calls : document.CallsFor list field
      (Document.childrenOf list (document.withoutNested known) items) :=
    ⟨known, items, List.fst_mem_of_mem_zipIdx nested, rfl⟩
  dsimp only
  rw [same document (List.fst_mem_of_mem_zipIdx position) _ field _ calls]

/-! ## All levels -/

/-- As many levels as the documents hold documents, and one more, make up a creation. -/
theorem createIn_eq_iterate (beyond : Creation σ) {levels : Nat}
    (enough : Document.maxNodes documents < levels) :
    createIn ids list documents = createLevel^[levels] beyond ids list documents := by
  induction levels generalizing ids list documents with
  | zero => exact absurd enough (Nat.not_lt_zero _)
  | succ levels induction =>
      rw [createIn_eq, Function.iterate_succ_apply']
      refine createLevel_congr fun parent member place field children calls => ?_
      have smaller := Document.maxNodes_lt_of_callsFor member calls
      exact induction (by omega)

/-- A creation ends. It creates the children of its documents by creations of their own, and by no others;
each child, with the reference to its parent, holds fewer documents than the parent did with its
identifier and all its children; and so at most as many creations are within each other, below the first,
as a document that was given holds documents. Whatever else would be done in place of deeper ones makes
no difference, to the answer, to the store or to the medium. -/
theorem creation_ends (ids : IdSupply) (list : String) (requested : NewDocuments) (reply : Reply) :
    (createIn ids list requested.toList : Session Store σ (List Document)) =
      createLevel createIn ids list requested.toList ∧
    (∀ first second : Creation σ,
      (∀ parent ∈ ids.identify requested.toList, ∀ place field children,
        parent.CallsFor list field children →
        first place field children = second place field children) →
      createLevel first ids list requested.toList = createLevel second ids list requested.toList) ∧
    (∀ parent ∈ ids.identify requested.toList, ∀ field children,
      parent.CallsFor list field children → ∀ child ∈ children, child.nodes < parent.nodes) ∧
    ∀ beyond : Creation σ, create ids list requested reply = do
      return .of requested reply
        (← createLevel^[Document.maxNodes requested.toList + 1] beyond ids list requested.toList) := by
  refine ⟨createIn_eq ids list _, fun first second => createLevel_congr,
    fun parent _ field children calls child => Document.nodes_lt_of_callsFor calls, fun beyond => ?_⟩
  rw [create, createIn_eq_iterate beyond (Nat.lt_succ_self _)]

/-! A user is identified by an array, which the reference in its message repeats. There is a list that is
called like the reference, so that what is in the array is created there, as children of the message. -/

private def referenceLists : Store where
  collections := ((∅ : Collections).insert "messages" []).insert "users_id" []

private def newIds : IdSupply where
  text _ := "new"

private def repeatedUser : Document :=
  [("id", .array [.document [("part", .document [])]]),
    ("messages", .array [.document [("text", .string "hello")]])]

private def repeatingMessage : Document :=
  [("text", .string "hello"), ("users_id", .array [.document [("part", .document [])]])]

private def createdUser : Document :=
  let part : Value :=
    .document [("id", .string "new"), ("part", .document []), ("messages_id", .string "new")]
  let message : Value :=
    .document [("id", .string "new"), ("text", .string "hello"), ("users_id", .array [part])]
  [("id", .array [.document [("part", .document [])]]), ("messages", .array [message])]

private def refuseFrom (bound : Nat) : Creation Disk := fun _ _ documents =>
  if bound ≤ Document.maxNodes documents then throw .serialization else pure []

theorem user_with_repeated_reference_ends :
    let requested : NewDocuments := .one repeatedUser
    repeatedUser ∈ newIds.identify requested.toList ∧
      repeatedUser.CallsFor "users" "messages" [repeatingMessage] ∧
      repeatingMessage.nodes < repeatedUser.nodes ∧
      createLevel (refuseFrom 4) newIds "users" requested.toList =
        createLevel (refuseFrom 5) newIds "users" requested.toList ∧
      (createLevel^[5] (refuseFrom 0) newIds "users" requested.toList
        (referenceLists, Disk.empty)).1 = .ok [createdUser] ∧
      (create newIds "users" requested .documents (referenceLists, Disk.empty)).1 =
        .ok (.one createdUser) := by
  intro requested
  have member : repeatedUser ∈ newIds.identify requested.toList := List.mem_cons_self
  have nested : ("messages", [.document [("text", .string "hello")]]) ∈
      repeatedUser.nestedFields referenceLists.collections.knows := List.mem_cons_self
  have calls : repeatedUser.CallsFor "users" "messages" [repeatingMessage] :=
    ⟨_, _, nested, rfl⟩
  have size : Document.maxNodes requested.toList = 4 := rfl
  have iterated : (createLevel^[5] (refuseFrom 0) newIds "users" requested.toList
      (referenceLists, Disk.empty)).1 = .ok [createdUser] := by
    with_unfolding_all rfl
  have ends := creation_ends (σ := Disk) newIds "users" requested .documents
  refine ⟨member, calls, ends.2.2.1 _ member _ _ calls _ List.mem_cons_self,
    ends.2.1 _ _ fun parent position place field children called => ?_, iterated, ?_⟩
  · have smaller := Document.maxNodes_lt_of_callsFor position called
    rw [refuseFrom, refuseFrom, if_neg (by omega), if_neg (by omega)]
  · rw [ends.2.2.2 (refuseFrom 0), size, bind_pure_comp, Session.map_apply, iterated]
    rfl

end Store

end DocStore

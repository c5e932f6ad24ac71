import Mathlib.Data.List.Forall2
import DocStore.Proofs.Outcome
import DocStore.Proofs.Query.Selection
import DocStore.Proofs.Store.Creation
import DocStore.Proofs.Store.Request

/-!
What operations make of the collections. Every operation adopts what may follow the collections it
finds, once or, for a creation with children, several times.

The main statement is that what holds whenever such collections are saved and adopted holds of
every request.
-/

namespace DocStore

namespace Collections

/-! ## Transitions -/

inductive Revision (collections : Collections) : Collections → Prop where
  | stay : Revision collections collections
  | addLists (lists : List String) :
      Revision collections (collections.withLists (collections.missing lists))
  | addList (ids : IdSupply) (list : String) (documents : List Document)
      (absent : collections.knows list = false)
      (checked : checkIds list [] (ids.identify documents) = .ok ()) :
      Revision collections (collections.insert list (ids.identify documents))
  | removeList (list : String) : Revision collections (collections.erase list)
  | update {list : String} {documents updated : List Document} (update : Update)
      (found : collections[list]? = some documents) (valid : update.validate = .ok ())
      (each : List.Forall₂ (fun old new => new = old ∨ new = update.apply old) documents updated) :
      Revision collections (collections.insert list updated)
  | delete {list : String} {documents : List Document} (filter : Predicate)
      (found : collections[list]? = some documents) :
      Revision collections
        (collections.insert list (documents.filter fun document => !filter.accepts document))

/-- Collections that may follow others, if they can be saved. -/
inductive Transition (collections : Collections) : Collections → Prop where
  | revise {next : Collections} (revision : collections.Revision next) : Transition collections next
  | append (list : String) (documents : List Document)
      (checked : checkIds list (collections.documentsOrEmpty list) documents = .ok ()) :
      Transition collections
        (collections.insert list (collections.documentsOrEmpty list ++ documents))

end Collections

namespace Request

/-- What a request makes of collections, if it can be saved. A creation is put together of several
changes, and a request that answers leaves nothing new. -/
inductive Leaves : Request → Collections → Collections → Prop where
  | prepare {collections : Collections} {lists : List String} :
      Leaves (.prepare lists) collections (collections.withLists (collections.missing lists))
  | createList {collections : Collections} {ids : IdSupply} {list : String}
      {documents : List Document} (absent : collections.knows list = false)
      (checked : Collections.checkIds list [] (ids.identify documents) = .ok ()) :
      Leaves (.createList ids list documents) collections
        (collections.insert list (ids.identify documents))
  | removeList {collections : Collections} {list : String} :
      Leaves (.removeList list) collections (collections.erase list)
  | updateOne {collections : Collections} {list : String} {update : Update}
      {documents : List Document} (found : collections[list]? = some documents)
      (valid : update.validate = .ok ()) :
      Leaves (.updateOne list update) collections (collections.insert list
        (documents.modify (documents.findIdx update.filter.accepts) update.apply))
  | updateMany {collections : Collections} {list : String} {update : Update}
      {documents : List Document} (found : collections[list]? = some documents)
      (valid : update.validate = .ok ()) :
      Leaves (.updateMany list update) collections (collections.insert list
        (documents.map fun document =>
          if update.filter.accepts document then update.apply document else document))
  | delete {collections : Collections} {list : String} {filter : Predicate}
      {documents : List Document} (found : collections[list]? = some documents) :
      Leaves (.delete list filter) collections
        (collections.insert list (documents.filter fun document => !filter.accepts document))
  | close {collections : Collections} : Leaves .close collections collections

variable {collections : Collections} {list : String}

/-! ## Decisions -/

theorem leaves_of_addList {ids : IdSupply} {initial documents : List Document} {value : Unit}
    (decided : collections.addList ids list initial =
      .ok { answer := value, documents := some documents }) :
    Leaves (.createList ids list initial) collections (collections.insert list documents) := by
  rw [Collections.addList] at decided
  cases known : collections.knows list with
  | true =>
      rw [if_pos known] at decided
      cases decided
  | false =>
      rw [if_neg (by simp [known])] at decided
      rcases Outcome.bind_eq_ok_iff.mp decided with ⟨_, checked, equal⟩
      cases equal
      exact .createList known checked

theorem leaves_of_updateOne {update : Update} {documents : List Document}
    {value : Option Document}
    (decided : collections.updateOne list update =
      .ok { answer := value, documents := some documents }) :
    Leaves (.updateOne list update) collections (collections.insert list documents) := by
  rcases Outcome.bind_eq_ok_iff.mp decided with ⟨_, valid, decided⟩
  rcases Outcome.bind_eq_ok_iff.mp decided with ⟨_, _, decided⟩
  rcases Outcome.bind_eq_ok_iff.mp decided with ⟨present, found, decided⟩
  split at decided
  · cases decided
  · cases decided
    exact .updateOne (Collections.documents_eq_ok_iff.mp found) valid

theorem leaves_of_updateMany {update : Update} {documents : List Document} {value : Nat}
    (decided : collections.updateMany list update =
      .ok { answer := value, documents := some documents }) :
    Leaves (.updateMany list update) collections (collections.insert list documents) := by
  rcases Outcome.bind_eq_ok_iff.mp decided with ⟨_, valid, decided⟩
  rcases Outcome.bind_eq_ok_iff.mp decided with ⟨_, _, decided⟩
  rcases Outcome.bind_eq_ok_iff.mp decided with ⟨present, found, decided⟩
  have parts := Change.mk.inj (Outcome.pure_eq_ok_iff.mp decided)
  rcases Option.ite_none_left_eq_some.mp parts.2 with ⟨_, ⟨⟩⟩
  exact .updateMany (Collections.documents_eq_ok_iff.mp found) valid

theorem leaves_of_delete {filter : Predicate} {documents : List Document} {value : Nat}
    (decided : collections.delete list filter =
      .ok { answer := value, documents := some documents }) :
    Leaves (.delete list filter) collections (collections.insert list documents) := by
  rcases Outcome.bind_eq_ok_iff.mp decided with ⟨_, _, decided⟩
  rcases Outcome.bind_eq_ok_iff.mp decided with ⟨present, found, decided⟩
  have parts := Change.mk.inj (Outcome.pure_eq_ok_iff.mp decided)
  rcases Option.ite_none_left_eq_some.mp parts.2 with ⟨_, ⟨⟩⟩
  exact .delete (Collections.documents_eq_ok_iff.mp found)

theorem transition_of_append {added documents : List Document} {value : Unit}
    (decided : collections.append list added =
      .ok { answer := value, documents := some documents }) :
    collections.Transition (collections.insert list documents) := by
  rcases Outcome.bind_eq_ok_iff.mp decided with ⟨_, checked, equal⟩
  cases equal
  exact .append list added checked

/-! ## Revisions -/

theorem forall₂_modify (documents : List Document) (position : Nat) (update : Update) :
    List.Forall₂ (fun old new => new = old ∨ new = update.apply old) documents
      (documents.modify position update.apply) := by
  induction documents generalizing position with
  | nil =>
      rw [List.modify_nil]
      exact .nil
  | cons document documents induction =>
      cases position with
      | zero => exact .cons (.inr rfl) (List.forall₂_same.mpr fun _ _ => .inl rfl)
      | succ position => exact .cons (.inl rfl) (induction position)

theorem Leaves.revision {request : Request} {next : Collections}
    (leaves : request.Leaves collections next) : collections.Revision next := by
  cases leaves with
  | prepare => exact .addLists _
  | createList absent checked => exact .addList _ _ _ absent checked
  | removeList => exact .removeList _
  | updateOne found valid => exact .update _ found valid (forall₂_modify _ _ _)
  | @updateMany _ _ update _ found valid =>
      apply Collections.Revision.update update found valid
      apply List.forall₂_map_right_iff.mpr
      apply List.forall₂_same.mpr
      intro document _
      cases update.filter.accepts document with
      | true => exact .inr rfl
      | false => exact .inl rfl
  | delete found => exact .delete _ found
  | close => exact .stay

end Request

namespace Store

variable {σ α : Type} [Medium σ]
variable {related : (succeeded : Bool) → (before after : Store × σ) → Prop}

/-! ## Operations that adopt once -/

def AdoptionsObey (follows : Collections → Collections → Prop)
    (related : (succeeded : Bool) → (before after : Store × σ) → Prop) : Prop :=
  ∀ {α : Type} (value : α) (store : Store) (medium : σ) (next : Collections),
    follows store.collections next →
      related (adopt value next (store, medium)).1.isOk (store, medium)
        (adopt value next (store, medium)).2

theorem obeys_changeList {follows : Collections → Collections → Prop}
    (idle : ∀ succeeded state, related succeeded state state)
    (adoptions : AdoptionsObey follows related) {list : String}
    {decision : Collections → Except StoreError (Change α)}
    (decides : ∀ collections value documents,
      decision collections = .ok { answer := value, documents := some documents } →
        follows collections (collections.insert list documents)) :
    Session.Obeys related (changeList list decision) := by
  intro state
  rcases state with ⟨store, medium⟩
  rw [changeList_apply]
  cases decided : decision store.collections with
  | error cause => exact idle false (store, medium)
  | ok change =>
      rcases change with ⟨value, _ | documents⟩
      · exact idle true (store, medium)
      · exact adoptions value store medium _ (decides _ value documents decided)

theorem obeys_append (idle : ∀ succeeded state, related succeeded state state)
    (adoptions : AdoptionsObey Collections.Transition related) (list : String)
    (documents : List Document) :
    Session.Obeys related (changeList list fun collections => collections.append list documents) :=
  obeys_changeList idle adoptions fun _ _ _ => Request.transition_of_append

theorem obeys_prepare {lists : List String}
    (adoptions : AdoptionsObey (Request.Leaves (.prepare lists)) related) :
    Session.Obeys related (prepare lists) := by
  intro state
  rcases state with ⟨store, medium⟩
  rw [prepare_apply]
  exact adoptions () store medium _ .prepare

theorem obeys_removeList {list : String} (idle : ∀ succeeded state, related succeeded state state)
    (adoptions : AdoptionsObey (Request.Leaves (.removeList list)) related) :
    Session.Obeys related (removeList list) := by
  intro state
  rcases state with ⟨store, medium⟩
  rw [removeList_apply]
  cases store.collections.documents list with
  | error cause => exact idle false (store, medium)
  | ok documents => exact adoptions () store medium _ .removeList

theorem obeys_close (adoptions : AdoptionsObey (Request.Leaves .close) related) :
    Session.Obeys related close := by
  intro state
  rcases state with ⟨store, medium⟩
  rw [close_apply]
  exact adoptions true store medium _ .close

end Store

namespace Request

open Store

variable {σ : Type} [Medium σ]
variable {related : (succeeded : Bool) → (before after : Store × σ) → Prop}

/-! ## Requests -/

def isCreation : Request → Bool
  | create .. => true
  | _ => false

theorem obeys_run_of_not_creation {request : Request}
    (idle : ∀ succeeded state, related succeeded state state)
    (adoptions : AdoptionsObey request.Leaves related) (single : request.isCreation = false) :
    Session.Obeys related request.run := by
  cases request with
  | prepare lists => exact Session.obeys_map (obeys_prepare adoptions) _
  | createList ids list documents =>
      exact Session.obeys_map (obeys_changeList idle adoptions fun _ _ _ => leaves_of_addList) _
  | removeList list => exact Session.obeys_map (obeys_removeList idle adoptions) _
  | listNames => exact Session.obeys_map (obeys_answer idle _) _
  | create ids list requested reply => cases single
  | find list query => exact Session.obeys_map (obeys_answer idle _) _
  | findOne list query => exact Session.obeys_map (obeys_answer idle _) _
  | updateOne list update =>
      exact Session.obeys_map (obeys_changeList idle adoptions fun _ _ _ => leaves_of_updateOne) _
  | updateMany list update =>
      exact Session.obeys_map (obeys_changeList idle adoptions fun _ _ _ => leaves_of_updateMany) _
  | delete list filter =>
      exact Session.obeys_map (obeys_changeList idle adoptions fun _ _ _ => leaves_of_delete) _
  | close => exact Session.obeys_map (obeys_close adoptions) _

/-- What can be put together, and holds whenever collections are adopted, holds of every request. -/
theorem obeys_run (composes : Session.Composes related)
    (adoptions : AdoptionsObey Collections.Transition related) (request : Request) :
    Session.Obeys related request.run := by
  cases creation : request.isCreation with
  | false =>
      have single : AdoptionsObey request.Leaves related := fun value store medium next leaves =>
        adoptions value store medium next (.revise leaves.revision)
      exact obeys_run_of_not_creation composes.idle single creation
  | true =>
      cases request with
      | create ids list requested reply =>
          apply Session.obeys_map
          exact obeys_create composes (obeys_append composes.idle adoptions) ids list requested reply
      | _ => cases creation

end Request

end DocStore

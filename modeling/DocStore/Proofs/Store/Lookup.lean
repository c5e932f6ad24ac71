import DocStore.Medium.Disk
import DocStore.Proofs.Predicate.Evaluation
import DocStore.Proofs.Store.Commutation
import DocStore.Proofs.Store.Durability
import DocStore.Proofs.Store.Modification

/-!
Created documents can be looked up. As long as no request addresses a document that was created without
children, a query for its identifier finds it and nothing else, in whatever form the identifier is given.
-/

namespace DocStore

/-! ## Forms of an identifier -/

namespace Document

theorem hasId_congr {form id : Value} (same : form.equals id = true) (document : Document) :
    document.hasId form = document.hasId id := by
  have symmetric : id.equals form = true := by rw [Value.equals_comm, same]
  rw [hasId, hasId]
  cases document.id? with
  | none => rfl
  | some other =>
      have forth : other.equals form = true → other.equals id = true := fun equal =>
        Value.equals_trans equal same
      have back : other.equals id = true → other.equals form = true := fun equal =>
        Value.equals_trans equal symmetric
      exact Bool.eq_iff_iff.mpr ⟨forth, back⟩

end Document

namespace Collections

theorem find_form {collections : Collections} {list : String} {document : Document}
    {id form : Value} (unique : collections.HasUniqueIds)
    (member : document ∈ collections.documentsOrEmpty list) (has : document.id? = some id)
    (same : form.equals id = true) :
    collections.find list { filter := .fieldEquals Document.idKey form } = .ok [document] := by
  rcases exists_found_of_mem member with ⟨documents, found⟩
  rw [documentsOrEmpty_of_found found] at member
  have notNull : form ≠ .null := by
    rintro rfl
    have null : id ≠ .null := (Document.id?_eq_some_iff.mp has).2
    cases id with
    | null => exact null rfl
    | _ => cases same
  have reflexive : id.equals id = true :=
    Value.equals_trans (by rw [Value.equals_comm, same]) same
  have rows : documents.filter (fun other => (other.get? Document.idKey).any (·.equals form)) =
      documents.filter (Document.hasId id) := by
    apply List.filter_congr
    intro other _
    rw [Document.any_equals_idKey notNull, Document.hasId_congr same]
  rw [find_fieldEquals found, rows, filter_hasId (unique list documents found) member has reflexive]

end Collections

/-! ## Requests that leave a document alone -/

namespace Request

def selection? : Request → Option (String × Predicate)
  | updateOne list update | updateMany list update => some (list, update.filter)
  | delete list filter => some (list, filter)
  | _ => none

/-- Whether the request is about the document: it removes the list, or asks for documents of the list
that meet a predicate, which this one does. -/
def Addresses (list : String) (document : Document) (request : Request) : Prop :=
  request = .removeList list ∨
    ∃ filter, request.selection? = some (list, filter) ∧ filter.evaluate document = .ok true

variable {request : Request} {list : String} {document : Document}

theorem accepts_of_mem_selected {documents : List Document}
    (chosen : document ∈ request.selected list documents) :
    request = .removeList list ∨
      ∃ filter, request.selection? = some (list, filter) ∧ filter.accepts document = true := by
  cases request with
  | removeList name =>
      rw [selected] at chosen
      split at chosen
      · next same => exact .inl (congrArg _ same)
      · cases chosen
  | updateOne name update =>
      rw [selected] at chosen
      split at chosen
      · next same =>
        have found := List.find?_some (Option.mem_toList.mp chosen)
        exact .inr ⟨update.filter, by rw [selection?, same], found⟩
      · cases chosen
  | updateMany name update =>
      rw [selected] at chosen
      split at chosen
      · next same => exact .inr ⟨update.filter, by rw [selection?, same], (List.mem_filter.mp chosen).2⟩
      · cases chosen
  | delete name filter =>
      rw [selected] at chosen
      split at chosen
      · next same => exact .inr ⟨filter, by rw [selection?, same], (List.mem_filter.mp chosen).2⟩
      · cases chosen
  | _ => cases chosen

variable {σ : Type} [Medium σ] {state : Store × σ}

theorem after_step_of_unusable {name : String} {filter : Predicate} {cause : StoreError}
    (selects : request.selection? = some (name, filter))
    (unusable : filter.checkPatterns = .error cause) : (request.step state).after = state := by
  rcases state with ⟨store, medium⟩
  cases request with
  | updateOne list update =>
      cases selects
      have refused : ∃ cause, store.collections.updateOne name update = .error cause := by
        rw [Collections.updateOne, unusable]
        cases update.validate with
        | error other => exact ⟨other, rfl⟩
        | ok => exact ⟨cause, rfl⟩
      rcases refused with ⟨other, refused⟩
      rw [step, run, Session.map_apply, Store.updateOne, Store.changeList_refused refused]
  | updateMany list update =>
      cases selects
      have refused : ∃ cause, store.collections.updateMany name update = .error cause := by
        rw [Collections.updateMany, unusable]
        cases update.validate with
        | error other => exact ⟨other, rfl⟩
        | ok => exact ⟨cause, rfl⟩
      rcases refused with ⟨other, refused⟩
      rw [step, run, Session.map_apply, Store.updateMany, Store.changeList_refused refused]
  | delete list filter =>
      cases selects
      have refused : store.collections.delete name filter = .error cause := by
        rw [Collections.delete, unusable]
        rfl
      rw [step, run, Session.map_apply, Store.delete, Store.changeList_refused refused]
  | _ => cases selects

theorem mem_after_step_of_not_addresses
    (member : document ∈ state.1.collections.documentsOrEmpty list)
    (spared : ¬ request.Addresses list document) :
    document ∈ (request.step state).after.1.collections.documentsOrEmpty list := by
  by_cases chosen : document ∈ request.selected list (state.1.collections.documentsOrEmpty list)
  · rcases accepts_of_mem_selected chosen with removes | ⟨filter, selects, accepted⟩
    · exact absurd (.inl removes) spared
    · cases checked : filter.checkPatterns with
      | error cause =>
          rw [after_step_of_unusable selects checked]
          exact member
      | ok =>
          have met : filter.evaluate document = .ok true := by
            rw [Predicate.evaluate, checked, accepted]
            rfl
          exact absurd (.inr ⟨filter, selects, met⟩) spared
  · exact mem_after_step member chosen

end Request

section

variable {σ : Type} [Medium σ]

theorem mem_reached_of_not_addresses {list : String} {document : Document} {requests : List Request}
    {start : Store × σ} (member : document ∈ start.1.collections.documentsOrEmpty list)
    (spared : ∀ request ∈ requests, ¬ request.Addresses list document) :
    document ∈ (reached requests start).1.collections.documentsOrEmpty list := by
  induction requests generalizing start with
  | nil => exact member
  | cons request requests induction =>
      rw [List.forall_mem_cons] at spared
      exact induction (Request.mem_after_step_of_not_addresses member spared.1) spared.2

theorem stored_of_answered {ids : IdSupply} {list : String} {document stored : Document} {reply : Reply}
    {state : Store × σ}
    (flat : document.nestedFields state.1.collections.knows = [])
    (answered : ((Request.create ids list (.one document) reply).step state).outcome =
      .ok (.created (.one stored))) :
    (∃ fresh, stored = document.withId fresh) ∧
      stored ∈ ((Request.create ids list (.one document) reply).step
        state).after.1.collections.documentsOrEmpty list := by
  rcases state with ⟨store, medium⟩
  have isFlat : (Request.create ids list (.one document) reply).IsFlat store.collections := by
    simpa [Request.IsFlat, NewDocuments.toList] using flat
  have created := Request.run_create_flat isFlat medium
  rw [Request.step] at answered ⊢
  dsimp only at answered ⊢
  rw [created] at answered ⊢
  cases checked : Collections.checkIds list (store.collections.documentsOrEmpty list)
      (ids.identify [document]) with
  | error cause =>
      simp only [NewDocuments.toList, checked] at answered
      cases answered
  | ok =>
      simp only [NewDocuments.toList, checked] at answered ⊢
      rcases Store.saved_of_adopt_eq_ok answered with ⟨saved, equal⟩
      cases reply with
      | acknowledgement => cases equal
      | documents =>
          cases equal
          refine ⟨⟨_, rfl⟩, ?_⟩
          rw [(Store.adopt_of_saved saved).2, Collections.documentsOrEmpty_insert, if_pos rfl]
          exact List.mem_append_right _ List.mem_cons_self

/-- A document without children that a creation answers with is what a query for its identifier finds,
in any form of the identifier, whatever was requested before, and whatever is requested later that does
not address it. -/
theorem created_document_stays_found {start : Store × σ} {earlier later : List Request}
    {ids : IdSupply} {list : String} {document stored : Document} {reply : Reply} {created : Step σ}
    (unique : start.1.collections.HasUniqueIds)
    (creates : created =
      (Request.create ids list (.one document) reply).step (reached earlier start))
    (flat : document.nestedFields created.before.1.collections.knows = [])
    (answered : created.outcome = .ok (.created (.one stored)))
    (spared : ∀ request ∈ later, ¬ request.Addresses list stored) :
    ∃ id, stored.id? = some id ∧ (id.FreeOfNaN → id.equals id = true) ∧
      ∀ form, form.equals id = true →
        (Store.find list { filter := .fieldEquals Document.idKey form }
          (reached later created.after)).1 = .ok [stored] := by
  subst creates
  rcases stored_of_answered flat answered with ⟨⟨fresh, identified⟩, inserted⟩
  rcases Document.exists_id?_withId document fresh with ⟨id, has⟩
  rw [← identified] at has
  have present := mem_reached_of_not_addresses inserted spared
  have uniqueBefore := hasUniqueIds_reached unique earlier
  have uniqueCreated := hasUniqueIds_reached uniqueBefore [.create ids list (.one document) reply]
  have uniqueAfter := hasUniqueIds_reached uniqueCreated later
  exact ⟨id, has, Value.equals_self, fun form => Collections.find_form uniqueAfter present has⟩

end

private def lookupStart : Store × Disk :=
  ({ file := some "/db.json" }, Disk.empty)

private def otherRequests : List Request :=
  [.create (.seeded 1) "users" (.one [("id", .int32 1)]) .documents,
    .create (.seeded 2) "users" (.many [[("id", .int32 2)], [("id", .int32 3)]]) .documents,
    .updateMany "users" { filter := .fieldEquals "id" (.int32 2), data := [("name", .string "ann")] },
    .delete "users" (.fieldEquals "id" (.int32 3)), .removeList "notes"]

theorem user_stays_found :
    let user : Document := [("name", .string "jane doe"), ("id", .int64 1)]
    let created := (Request.create (.seeded 0) "users" (.one user) .documents).step
      (reached [.prepare ["users"]] lookupStart)
    created.outcome = .ok (.created (.one user)) ∧
      (∀ request ∈ otherRequests, ¬ request.Addresses "users" user) ∧
      (steps otherRequests created.after).map Step.succeeded = [false, true, true, true, false] ∧
      (Store.find "users" { filter := .fieldEquals "id" (.double ⟨0x3FF0000000000000⟩) }
        (reached otherRequests created.after)).1 = .ok [user] := by
  intro user created
  have answered : created.outcome = .ok (.created (.one user)) := by with_unfolding_all rfl
  have spared : ∀ request ∈ otherRequests, ¬ request.Addresses "users" user := by
    have others : (Predicate.fieldEquals "id" (.int32 2)).evaluate user = .ok false ∧
        (Predicate.fieldEquals "id" (.int32 3)).evaluate user = .ok false := ⟨rfl, rfl⟩
    simp [otherRequests, Request.Addresses, Request.selection?, others]
  have unique : lookupStart.1.collections.HasUniqueIds := Collections.each_empty
  rcases created_document_stays_found unique rfl rfl answered spared with
    ⟨id, has, _, finds⟩
  cases has
  exact ⟨answered, spared, by decide +kernel, finds _ (by decide +kernel)⟩

end DocStore

import DocStore.Medium.Disk
import DocStore.Proofs.Query.Selection
import DocStore.Proofs.Snapshot.Collections
import DocStore.Proofs.Snapshot.Durable
import DocStore.Proofs.Store.Cascade
import DocStore.Proofs.Store.Identity
import DocStore.Proofs.Store.Mirror

/-!
Created documents survive a restart. A creation that succeeds has saved what it stored, later requests
leave alone what they do not select, and a store that is built from the snapshot finds the document by
its identifier, if the snapshot can keep what it says.
-/

namespace DocStore

/-! ## Documents that are left alone -/

namespace Request

/-- The documents of a list that the request changes or removes. -/
def selected (list : String) (documents : List Document) : Request → List Document
  | removeList name => if name = list then documents else []
  | updateOne name update =>
      if name = list then (documents.find? update.filter.accepts).toList else []
  | updateMany name update =>
      if name = list then documents.filter update.filter.accepts else []
  | delete name filter => if name = list then documents.filter filter.accepts else []
  | _ => []

end Request

theorem mem_modify_findIdx {documents : List Document} {document : Document}
    {accepts : Document → Bool} (change : Document → Document) (member : document ∈ documents)
    (spared : document ∉ (documents.find? accepts).toList) :
    document ∈ documents.modify (documents.findIdx accepts) change := by
  rcases List.getElem?_of_mem member with ⟨position, here⟩
  have different : documents.findIdx accepts ≠ position := by
    rintro rfl
    rw [← List.find?_eq_getElem?_findIdx] at here
    rw [here] at spared
    exact spared List.mem_cons_self
  have there : (documents.modify (documents.findIdx accepts) change)[position]? = some document := by
    rw [List.getElem?_modify_ne _ _ different, here]
  exact List.mem_of_getElem? there

namespace Request

variable {request : Request} {collections : Collections} {list name : String}
  {document : Document}

theorem mem_documentsOrEmpty_insert {documents changed : List Document}
    (found : collections[name]? = some documents)
    (member : document ∈ collections.documentsOrEmpty list)
    (kept : name = list → document ∈ documents → document ∈ changed) :
    document ∈ Collections.documentsOrEmpty (collections.insert name changed) list := by
  rw [Collections.documentsOrEmpty_insert]
  split
  · next same =>
    rw [← same, Collections.documentsOrEmpty_of_found found] at member
    exact kept same member
  · exact member

theorem mem_of_leaves {next : Collections} (leaves : request.Leaves collections next)
    (member : document ∈ collections.documentsOrEmpty list)
    (spared : document ∉ request.selected list (collections.documentsOrEmpty list)) :
    document ∈ next.documentsOrEmpty list := by
  cases leaves with
  | prepare =>
      rw [Collections.documentsOrEmpty_withLists]
      exact member
  | createList absent _ =>
      rw [Collections.documentsOrEmpty_insert, if_neg]
      · exact member
      · -- A list that is added has no documents yet.
        rintro rfl
        rcases Collections.exists_found_of_mem member with ⟨documents, found⟩
        rw [Collections.knows, Std.ExtTreeMap.contains_eq_isSome_getElem?, found] at absent
        cases absent
  | removeList =>
      rw [selected] at spared
      rw [Collections.documentsOrEmpty_erase]
      split
      · next same =>
        rw [if_pos same] at spared
        exact absurd member spared
      · exact member
  | updateOne found _ =>
      apply mem_documentsOrEmpty_insert found member
      intro same inside
      rw [selected, if_pos same, ← same, Collections.documentsOrEmpty_of_found found] at spared
      exact mem_modify_findIdx _ inside spared
  | updateMany found _ =>
      apply mem_documentsOrEmpty_insert found member
      intro same inside
      rw [selected, if_pos same, ← same, Collections.documentsOrEmpty_of_found found] at spared
      have rejected := fun accepted => spared (List.mem_filter.mpr ⟨inside, accepted⟩)
      exact List.mem_map.mpr ⟨document, inside, if_neg rejected⟩
  | delete found =>
      apply mem_documentsOrEmpty_insert found member
      intro same inside
      rw [selected, if_pos same, ← same, Collections.documentsOrEmpty_of_found found] at spared
      have rejected := fun accepted => spared (List.mem_filter.mpr ⟨inside, accepted⟩)
      exact List.mem_filter.mpr ⟨inside, by rw [Bool.eq_false_iff.mpr rejected]; rfl⟩
  | close => exact member

variable {σ : Type} [Medium σ] {state : Store × σ}

theorem mem_after_step (member : document ∈ state.1.collections.documentsOrEmpty list)
    (spared : document ∉ request.selected list (state.1.collections.documentsOrEmpty list)) :
    document ∈ (request.step state).after.1.collections.documentsOrEmpty list := by
  refine holds_step (fun collections => document ∈ collections.documentsOrEmpty list) member
    (fun next leaves => mem_of_leaves leaves member spared) fun batch _ collections present => ?_
  rw [Batch.documentsOrEmpty_addTo]
  exact List.mem_append_left _ present

end Request

/-! ## Created documents -/

namespace Cascade

variable {σ : Type} [Medium σ] {state : Store × σ} {ids : IdSupply} {list : String}
  {requested : NewDocuments} {reply : Reply} {batch : Batch} {document : Document}

theorem collections_step
    (succeeded : ((Request.create ids list requested reply).step state).succeeded = true) :
    ((Request.create ids list requested reply).step state).after.1.collections =
      Batch.addAll (batches state.1.collections.knows ids list requested.toList)
        state.1.collections := by
  rcases state with ⟨store, medium⟩
  rw [Step.succeeded, Request.step, Request.run, Session.map_apply] at succeeded
  rw [Request.step, Request.run, Session.map_apply]
  apply collections_create
  revert succeeded
  cases (Store.create ids list requested reply (store, medium)).1 with
  | error cause => exact id
  | ok created => exact id

variable
  (succeeded : ((Request.create ids list requested reply).step state).succeeded = true)
  (member : batch ∈ batches state.1.collections.knows ids list requested.toList)
  (stored : document ∈ batch.stored)

include succeeded member stored

theorem documentsOrEmpty_step : ∃ added, document ∈ added ∧
    ((Request.create ids list requested reply).step state).after.1.collections.documentsOrEmpty
      batch.list = state.1.collections.documentsOrEmpty batch.list ++ added := by
  have inside : document ∈
      Batch.storedIn batch.list (batches state.1.collections.knows ids list requested.toList) := by
    rw [Batch.storedIn, List.mem_flatMap]
    exact ⟨batch, List.mem_filter.mpr ⟨member, beq_self_eq_true batch.list⟩, stored⟩
  refine ⟨_, inside, ?_⟩
  rw [collections_step succeeded, Batch.documentsOrEmpty_addAll]

theorem mem_step : document ∈
    ((Request.create ids list requested reply).step state).after.1.collections.documentsOrEmpty
      batch.list := by
  rcases documentsOrEmpty_step succeeded member stored with ⟨added, inside, after⟩
  rw [after]
  exact List.mem_append_right _ inside

theorem collections_step_ne :
    ((Request.create ids list requested reply).step state).after.1.collections ≠
      state.1.collections := by
  intro same
  rcases documentsOrEmpty_step succeeded member stored with ⟨added, inside, after⟩
  rw [same, eq_comm, List.append_right_eq_self] at after
  rw [after] at inside
  cases inside

end Cascade

/-! ## Reopening -/

section

variable {σ : Type} [Medium σ] {path : String} {state : Store × σ}

theorem load_of_mirrored (mirrored : Mirrored path state)
    (readable : state.1.collections.Each fun documents => ∀ document ∈ documents, document.IsReadable)
    (shallow : (Snapshot.toJson state.1.collections).depth ≤ Json.nestingLimit) :
    Store.load state.2 (some path) =
      .ok { collections := state.1.collections.reloaded, file := some path } := by
  rw [Store.load, Snapshot.load, mirrored.text]
  dsimp only
  rw [Snapshot.parse?_render readable shallow]
  rfl

end

namespace Document

/-- Whether a document has an identifier does not change when it is read back, if its own one is
kept. -/
theorem any_equals_reloaded {document : Document} {id : Value}
    (durable : ∀ own, document.id? = some own → own.IsDurable) (notNull : id ≠ .null) :
    (document.reloaded.get? idKey).any (·.equals id) = document.hasId id := by
  rw [reloaded, Value.get?_reloadedFields, ← any_equals_idKey notNull]
  cases held : document.get? idKey with
  | none => rfl
  | some own =>
      by_cases null : own = .null
      · rw [null]
        rfl
      · exact Value.equals_reloaded (durable own (id?_eq_some_iff.mpr ⟨held, null⟩)) id

end Document

namespace Collections

variable {collections : Collections} {list : String}

theorem find_reloaded {document : Document} {id : Value} (unique : collections.HasUniqueIds)
    (durable : ∀ own ∈ Document.ids (collections.documentsOrEmpty list), own.IsDurable)
    (member : document ∈ collections.documentsOrEmpty list) (has : document.id? = some id) :
    collections.reloaded.find list { filter := .fieldEquals Document.idKey id } =
      .ok [document.reloaded] := by
  rcases exists_found_of_mem member with ⟨documents, found⟩
  rw [documentsOrEmpty_of_found found] at durable member
  have reread : collections.reloaded[list]? = some (documents.map Document.reloaded) := by
    rw [reloaded, Std.ExtTreeMap.getElem?_map, found]
    rfl
  have rows : documents.filter ((fun other => (other.get? Document.idKey).any (·.equals id)) ∘
      Document.reloaded) = documents.filter (Document.hasId id) :=
    List.filter_congr fun other inside => Document.any_equals_reloaded
      (fun own hasOwn => durable own (List.mem_filterMap.mpr ⟨other, inside, hasOwn⟩))
      (Document.id?_eq_some_iff.mp has).2
  have same : id.equals id = true :=
    Value.equals_self_of_isDurable (durable id (List.mem_filterMap.mpr ⟨document, member, has⟩))
  rw [find_fieldEquals reread, List.filter_map, rows,
    filter_hasId (unique list documents found) member has same]
  rfl

end Collections

/-! ## Runs -/

section

variable {σ : Type} [Medium σ]

theorem hasUniqueIds_reached {start : Store × σ} (unique : start.1.collections.HasUniqueIds)
    (requests : List Request) : (reached requests start).1.collections.HasUniqueIds := by
  refine holds_reached (fun state => state.1.collections.HasUniqueIds) ?_ unique
  intro step member before
  rw [eq_step_of_mem_steps member]
  exact step.request.obeys_run keepsUniqueIds_composes adoptions_keepsUniqueIds step.before before

theorem mem_reached {list : String} {document : Document} {requests : List Request}
    {start : Store × σ} (member : document ∈ start.1.collections.documentsOrEmpty list)
    (spared : ∀ step ∈ steps requests start, document ∉
      step.request.selected list (step.before.1.collections.documentsOrEmpty list)) :
    document ∈ (reached requests start).1.collections.documentsOrEmpty list := by
  refine holds_reached
    (fun state => document ∈ state.1.collections.documentsOrEmpty list) ?_ member
  intro step inside before
  have left := spared step inside
  rw [eq_step_of_mem_steps inside]
  exact Request.mem_after_step before left

variable [LawfulMedium σ]

theorem mirrored_reached {path : String} {start : Store × σ} (mirrored : Mirrored path start)
    (requests : List Request) : Mirrored path (reached requests start) := by
  refine holds_reached (Mirrored path) ?_ mirrored
  intro step member
  rw [eq_step_of_mem_steps member]
  exact (step.request.obeys_mirroring path step.before).kept

theorem file_reached {path : String} {start : Store × σ} (keeps : start.1.file = some path)
    (requests : List Request) : (reached requests start).1.file = some path := by
  refine holds_reached (fun state => state.1.file = some path) ?_ keeps
  intro step member before
  rw [eq_step_of_mem_steps member]
  exact (step.request.obeys_mirroring path step.before).file.trans before

/-- A document that a successful creation stores is found after a restart, whatever was requested
before, and whatever is requested later without selecting it. -/
theorem created_document_survives_restart {path : String} {start : Store × σ}
    {earlier later : List Request} {ids : IdSupply} {list : String} {requested : NewDocuments}
    {reply : Reply} {created : Step σ} {final : Store × σ} {batch : Batch} {document : Document}
    {id : Value} (keeps : start.1.file = some path) (unique : start.1.collections.HasUniqueIds)
    (creates : created = (Request.create ids list requested reply).step (reached earlier start))
    (succeeded : created.succeeded = true)
    (forest : batch ∈ Cascade.batches created.before.1.collections.knows ids list requested.toList)
    (stored : document ∈ batch.stored) (has : document.id? = some id)
    (ends : final = reached later created.after)
    (spared : ∀ step ∈ steps later created.after, document ∉
      step.request.selected batch.list (step.before.1.collections.documentsOrEmpty batch.list))
    (readable : final.1.collections.Each fun documents => ∀ document ∈ documents, document.IsReadable)
    (shallow : (Snapshot.toJson final.1.collections).depth ≤ Json.nestingLimit)
    (durable : ∀ own ∈ Document.ids (final.1.collections.documentsOrEmpty batch.list),
      own.IsDurable) :
    ∃ reopened, Store.load final.2 (some path) = .ok reopened ∧
      (Store.find batch.list { filter := .fieldEquals Document.idKey id } (reopened, final.2)).1 =
        .ok [document.reloaded] := by
  subst creates ends
  have mirroring := (Request.create ids list requested reply).obeys_mirroring path (reached earlier start)
  have changed := Cascade.collections_step_ne succeeded forest stored
  have mirrored := mirrored_reached
    (mirroring.restored (file_reached keeps earlier) succeeded changed) later
  have present := mem_reached (Cascade.mem_step succeeded forest stored) spared
  have uniqueBefore := hasUniqueIds_reached unique earlier
  have uniqueCreated := hasUniqueIds_reached uniqueBefore [.create ids list requested reply]
  have uniqueAfter := hasUniqueIds_reached uniqueCreated later
  exact ⟨_, load_of_mirrored mirrored readable shallow,
    Collections.find_reloaded uniqueAfter durable present has⟩

end

private def snapshotStart : Store × Disk :=
  ({ file := some "/db.json" }, Disk.empty)

private def negativeUser : Document :=
  [("id", .int32 (-1)), ("name", .string "jane doe")]

theorem user_survives_restart :
    let created := (Request.create (.seeded 0) "users" (.one negativeUser) .documents).step
      snapshotStart
    let later : List Request := [.create (.seeded 0) "users" (.one [("id", .int32 2)]) .documents,
      .delete "users" (.fieldEquals "id" (.int32 2))]
    let final := reached later created.after
    created.succeeded = true ∧ (∀ step ∈ steps later created.after, step.succeeded = true) ∧
      ∃ reopened, Store.load final.2 (some "/db.json") = .ok reopened ∧
        (Store.find "users" { filter := .fieldEquals "id" (.int32 (-1)) } (reopened, final.2)).1 =
          .ok [[("id", .int64 (-1)), ("name", .string "jane doe")]] := by
  intro created later final
  have succeeded : created.succeeded = true := by decide +kernel
  refine ⟨succeeded, by decide +kernel, ?_⟩
  have creates : created = (Request.create (.seeded 0) "users" (.one negativeUser) .documents).step
      (reached [] snapshotStart) := rfl
  have unique : snapshotStart.1.collections.HasUniqueIds := Collections.each_empty
  let batch : Batch := ⟨"users", [negativeUser], created.before.1.collections.knows⟩
  have forest : batch ∈ Cascade.batches created.before.1.collections.knows (.seeded 0) "users"
      [negativeUser] := Cascade.mem_batches_iff.mpr (.inl rfl)
  have stored : negativeUser ∈ batch.stored :=
    List.mem_map.mpr ⟨negativeUser, List.mem_cons_self, rfl⟩
  have spared : ∀ step ∈ steps later created.after, negativeUser ∉ step.request.selected "users"
      (step.before.1.collections.documentsOrEmpty "users") := by
    have others : ∀ step ∈ steps later created.after, ∀ other ∈ step.request.selected "users"
        (step.before.1.collections.documentsOrEmpty "users"), other.hasId (.int32 2) = true := by
      decide +kernel
    intro step member inside
    exact absurd (others step member negativeUser inside) (by decide)
  exact created_document_survives_restart rfl unique creates succeeded forest stored rfl rfl spared
    (by decide +kernel) (by decide +kernel) (by decide +kernel)

/-- A document with the key of a tagged value is stored, but taken for one when it is read. -/
theorem restart_refuses_user_with_tag :
    let created := (Request.create (.seeded 0) "users" (.one
      [("id", .int32 1), ("link", .document [("$oid", .string "home")])]) .documents).step
      snapshotStart
    created.succeeded = true ∧
      created.after.1.collections["users"]? =
        some [[("id", .int32 1), ("link", .document [("$oid", .string "home")])]] ∧
      Store.load created.after.2 (some "/db.json") = .error (.persistence .parse "/db.json") := by
  intro created
  refine ⟨by decide +kernel, by with_unfolding_all rfl, ?_⟩
  have saved : Medium.read created.after.2 (Path.ofText "/db.json") =
      .text (Snapshot.render created.after.1.collections) := by
    with_unfolding_all rfl
  have refused : Snapshot.ofJson? (Snapshot.toJson created.after.1.collections).reread = none :=
    Option.isNone_iff_eq_none.mp (by decide +kernel)
  rw [Store.load, Snapshot.load, saved]
  dsimp only
  rw [Snapshot.parse?, Snapshot.render, Json.read?_render (by decide +kernel), Option.bind_some,
    refused]
  rfl

end DocStore

import DocStore.Proofs.Fields
import DocStore.Proofs.Outcome
import DocStore.Proofs.Store.Saving
import DocStore.Proofs.Value.NonNull

/-!
Creation of documents with their children. What holds of the batches holds of the whole, and
documents without children are a single batch.
-/

namespace DocStore

namespace Document

variable {known : String → Bool} {document : Document}

theorem mem_nestedFields_iff {field : String} {items : List Value} :
    (field, items) ∈ document.nestedFields known ↔
      (field, .array items) ∈ document ∧ known field = true := by
  rw [nestedFields, List.mem_filterMap]
  constructor
  · rintro ⟨⟨name, value⟩, member, taken⟩
    cases value with
    | array held =>
        dsimp only at taken
        split at taken
        · next isKnown =>
          cases taken
          exact ⟨member, isKnown⟩
        · cases taken
    | _ => cases taken
  · rintro ⟨member, isKnown⟩
    exact ⟨(field, .array items), member, if_pos isKnown⟩

/-! ## Documents without children -/

theorem nestedFields_eq_nil_iff :
    document.nestedFields known = [] ↔ ∀ field ∈ document, isNested known field = false := by
  rw [nestedFields, List.filterMap_eq_nil_iff]
  refine forall_congr' fun field => imp_congr_right fun _ => ?_
  rcases field with ⟨name, value⟩
  cases value with
  | array items => simp [isNested]
  | _ => simp [isNested]

theorem nestedFields_mono {larger : String → Bool}
    (covered : ∀ name, known name = true → larger name = true)
    (flat : document.nestedFields larger = []) : document.nestedFields known = [] := by
  rw [nestedFields_eq_nil_iff] at flat ⊢
  intro field member
  have single := flat field member
  rcases field with ⟨name, value⟩
  cases value with
  | array items =>
      exact Bool.eq_false_iff.mpr fun isKnown => Bool.eq_false_iff.mp single (covered name isKnown)
  | _ => rfl

theorem withoutNested_of_flat (flat : document.nestedFields known = []) :
    document.withoutNested known = document := by
  rw [nestedFields_eq_nil_iff] at flat
  exact List.filter_eq_self.mpr fun field member => by rw [flat field member]; rfl

theorem checkNested_of_flat (flat : document.nestedFields known = []) :
    document.checkNested known = .ok () := by
  rw [checkNested, flat]
  rfl

theorem nestedFields_withId (flat : document.nestedFields known = []) (fresh : String) :
    (document.withId fresh).nestedFields known = [] := by
  rw [withId]
  split
  · exact flat
  · rw [nestedFields_eq_nil_iff] at flat ⊢
    intro field member
    rcases List.mem_cons.mp member with rfl | kept
    · rfl
    · exact flat field (List.mem_filter.mp kept).1

/-! ## Identifiers -/

theorem exists_id?_withId (document : Document) (fresh : String) :
    ∃ id, (document.withId fresh).id? = some id := by
  rw [withId]
  split
  · next id has => exact ⟨id, has⟩
  · refine ⟨.string fresh, id?_eq_some_iff.mpr ⟨?_, Value.noConfusion⟩⟩
    rw [Fields.get?_cons, if_pos rfl]

/-- Whether the identifier is no array. -/
def hasPlainId (document : Document) : Bool :=
  match document.id? with
  | some (.array _) => false
  | _ => true

theorem id?_withoutNested {id : Value} (has : document.id? = some id)
    (kept : known idKey = false ∨ document.hasPlainId = true) :
    (document.withoutNested known).id? = some id := by
  have found := id?_eq_some_iff.mp has
  refine id?_eq_some_iff.mpr ⟨Fields.get?_filter_of_kept found.1 ?_, found.2⟩
  cases id with
  | array items =>
      rcases kept with unknown | plain
      · simp [isNested, unknown]
      · rw [hasPlainId, has] at plain
        cases plain
  | _ => rfl

end Document

namespace IdSupply

theorem exists_id?_of_mem_identify {supply : IdSupply} {documents : List Document}
    {document : Document} (member : document ∈ supply.identify documents) :
    ∃ id, document.id? = some id := by
  rw [identify, List.mem_mapIdx] at member
  rcases member with ⟨index, bound, rfl⟩
  exact Document.exists_id?_withId _ _

theorem nestedFields_of_mem_identify {known : String → Bool} {documents : List Document}
    (flat : ∀ document ∈ documents, document.nestedFields known = []) {supply : IdSupply}
    {document : Document} (member : document ∈ supply.identify documents) :
    document.nestedFields known = [] := by
  rw [identify, List.mem_mapIdx] at member
  rcases member with ⟨index, bound, rfl⟩
  exact Document.nestedFields_withId (flat _ (List.getElem_mem bound)) _

end IdSupply

namespace Store

variable {σ : Type} [Medium σ]

/-! ## One level -/

abbrev Creation (σ : Type) := IdSupply → String → List Document → Session Store σ (List Document)

/-- The first level of a creation, with the children created in a given way. -/
def createLevel (createChildren : Creation σ) : Creation σ := fun ids list documents => do
  let known ← answer fun collections => .ok collections.knows
  let identified := ids.identify documents
  MonadExcept.ofExcept (identified.forM (Document.checkNested known))
  changeList list fun collections =>
    collections.append list (identified.map (Document.withoutNested known))
  identified.zipIdx.mapM fun (document, index) => do
    let stored := document.withoutNested known
    let fields ← (document.nestedFields known).zipIdx.mapM fun ((field, items), place) => do
      let created ← createChildren ((ids.branch index).branch place) field
        (Document.childrenOf list stored items)
      return (field, Value.array (created.map Value.document))
    return stored.insertAll fields

theorem createIn_eq (ids : IdSupply) (list : String) (documents : List Document) :
    (createIn ids list documents : Session Store σ (List Document)) =
      createLevel createIn ids list documents := by
  rw [createIn, createLevel]
  refine bind_congr fun known => bind_congr fun _ => bind_congr fun _ => ?_
  rw [List.mapM_subtype, List.unattach_attach]
  rintro ⟨document, index⟩ _
  dsimp only
  rw [List.mapM_subtype, List.unattach_attach]
  rintro ⟨⟨field, items⟩, place⟩ _
  rfl

/-! ## All batches -/

variable {related : (succeeded : Bool) → (before after : Store × σ) → Prop}

omit [Medium σ] in
theorem obeys_answer {α : Type} (idle : ∀ succeeded state, related succeeded state state)
    (query : Collections → Except StoreError α) : Session.Obeys related (answer query) :=
  fun (store, medium) => idle (query store.collections).isOk (store, medium)

/-- What holds from before to after each batch holds from before to after a whole creation. The
induction is on the size of the documents, which is smaller for children. -/
theorem obeys_createIn (composes : Session.Composes related)
    (batch : ∀ list documents, Session.Obeys related
      (changeList list fun collections => collections.append list documents))
    (ids : IdSupply) (list : String) (documents : List Document) :
    Session.Obeys related (createIn ids list documents) := by
  induction size : Document.maxNodes documents using Nat.strongRecOn
    generalizing ids list documents with
  | _ bound induction =>
      rw [createIn_eq]
      apply Session.obeys_bind composes (obeys_answer composes.idle _)
      intro known
      apply Session.obeys_bind composes (Session.obeys_ofExcept composes _)
      intro _
      apply Session.obeys_bind composes (batch list _)
      intro _
      apply Session.obeys_mapM composes
      rintro ⟨document, index⟩ member
      refine Session.obeys_bind composes ?_ fun fields => Session.obeys_pure composes _
      apply Session.obeys_mapM composes
      rintro ⟨⟨field, items⟩, place⟩ nested
      refine Session.obeys_bind composes ?_ fun created => Session.obeys_pure composes _
      have smaller : Document.maxNodes
          (Document.childrenOf list (document.withoutNested known) items) < bound :=
        size ▸ Document.maxNodes_children_lt member nested
      exact induction _ smaller _ field _ rfl

theorem obeys_create (composes : Session.Composes related)
    (batch : ∀ list documents, Session.Obeys related
      (changeList list fun collections => collections.append list documents))
    (ids : IdSupply) (list : String) (requested : NewDocuments) (reply : Reply) :
    Session.Obeys related (create ids list requested reply) :=
  Session.obeys_bind composes (obeys_createIn composes batch ids list requested.toList)
    fun created => Session.obeys_pure composes (Created.of requested reply created)

/-! ## One batch -/

theorem createIn_flat {store : Store} {documents : List Document}
    (flat : ∀ document ∈ documents, document.nestedFields store.collections.knows = [])
    (ids : IdSupply) (list : String) (medium : σ) :
    createIn ids list documents (store, medium) =
      ((do
        changeList list fun collections => collections.append list (ids.identify documents)
        return ids.identify documents) : Session Store σ (List Document)) (store, medium) := by
  have flatDocument : ∀ document ∈ ids.identify documents,
      document.nestedFields store.collections.knows = [] :=
    fun document member => IdSupply.nestedFields_of_mem_identify flat member
  have checked : (ids.identify documents).forM (Document.checkNested store.collections.knows) =
      .ok () :=
    Outcome.forM_eq_ok_iff.mpr fun document member =>
      Document.checkNested_of_flat (flatDocument document member)
  have stored : (ids.identify documents).map (Document.withoutNested store.collections.knows) =
      ids.identify documents := by
    have same : ∀ document ∈ ids.identify documents,
        document.withoutNested store.collections.knows = id document :=
      fun document member => Document.withoutNested_of_flat (flatDocument document member)
    rw [List.map_congr_left same, List.map_id]
  have positions : (ids.identify documents).zipIdx.map Prod.fst = ids.identify documents :=
    List.zipIdx_map_fst 0 _
  rw [createIn_eq, createLevel, answer_bind_apply]
  simp only [checked, stored]
  refine congrFun ((pure_bind () _).trans (bind_congr fun _ => ?_)) (store, medium)
  refine (Session.mapM_eq_pure fun entry member => ?_).trans (congrArg pure positions)
  rcases entry with ⟨document, index⟩
  have flatHere := flatDocument document (List.fst_mem_of_mem_zipIdx member)
  rw [flatHere, Document.withoutNested_of_flat flatHere]
  rfl

end Store

end DocStore

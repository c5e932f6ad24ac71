import DocStore.Proofs.Fields
import DocStore.Proofs.Store.Batches
import DocStore.Query.Update

/-!
What documents pass on. A condition on fields that identifiers and references meet, and that an array
of documents passes on to each of them, holds of all documents of a cascade if it holds of those that
it starts from.
-/

namespace DocStore

namespace Document

def Fits (allowed : String × Value → Prop) (document : Document) : Prop :=
  (Fields.keys document).Nodup ∧ ∀ field ∈ document, allowed field

/-- What a store adds to documents is allowed, and so are the children that it takes out of them. -/
structure PassesOn (allowed : String × Value → Prop) : Prop where
  fresh : ∀ text, allowed (idKey, .string text)
  noReference : ∀ list, allowed (foreignKey list, .null)
  reference : ∀ {id} list, allowed (idKey, id) → allowed (foreignKey list, id)
  child : ∀ {key items} {child : Document}, allowed (key, .array items) →
    Value.document child ∈ items → child.Fits allowed

variable {allowed : String × Value → Prop} {document : Document}

theorem fits_of_sublist {kept : Document} (sublist : kept.Sublist document)
    (fits : document.Fits allowed) : kept.Fits allowed :=
  ⟨(sublist.map Prod.fst).nodup fits.1, fun field member => fits.2 field (sublist.mem member)⟩

theorem fits_insert {key : String} {value : Value} (fits : document.Fits allowed)
    (here : allowed (key, value)) : Fits allowed (Fields.insert document key value) := by
  refine ⟨Fields.nodup_keys_insert fits.1 key value, fun field member => ?_⟩
  rcases Fields.mem_insert member with rfl | old
  · exact here
  · exact fits.2 field old

theorem fits_insertAll {entries : Document} (fits : document.Fits allowed)
    (each : ∀ entry ∈ entries, allowed entry) : Fits allowed (document.insertAll entries) := by
  induction entries generalizing document with
  | nil => exact fits
  | cons entry entries induction =>
      exact induction (fits_insert fits (each entry List.mem_cons_self))
        fun other member => each other (List.mem_cons_of_mem entry member)

theorem fits_withId (passes : PassesOn allowed) (fits : document.Fits allowed) (text : String) :
    (document.withId text).Fits allowed := by
  rw [withId]
  split
  · exact fits
  · have others := fits_of_sublist (List.filter_sublist (p := (·.1 != idKey))) fits
    refine ⟨List.nodup_cons.mpr ⟨?_, others.1⟩, fun field member => ?_⟩
    · intro member
      rcases List.mem_map.mp member with ⟨field, kept, same⟩
      have other := (List.mem_filter.mp kept).2
      rw [same, bne_self_eq_false] at other
      cases other
    · rcases List.mem_cons.mp member with rfl | kept
      · exact passes.fresh text
      · exact others.2 field kept

theorem allowed_reference (passes : PassesOn allowed) (fits : document.Fits allowed) (list : String) :
    allowed (foreignKey list, document.id?.getD .null) := by
  cases has : document.id? with
  | none => exact passes.noReference list
  | some id =>
      have member := Fields.mem_of_get?_eq_some (id?_eq_some_iff.mp has).1
      exact passes.reference list (fits.2 _ member)

theorem fits_of_mem_childrenOf {known : String → Bool} {list field : String} {items : List Value}
    {child : Document} (passes : PassesOn allowed) (fits : document.Fits allowed)
    (nested : (field, items) ∈ document.nestedFields known)
    (member : child ∈ childrenOf list (document.withoutNested known) items) : child.Fits allowed := by
  rw [childrenOf, List.mem_map] at member
  rcases member with ⟨original, member, rfl⟩
  rcases List.mem_filterMap.mp member with ⟨item, inside, isDocument⟩
  have held := fits.2 _ (mem_nestedFields_iff.mp nested).1
  cases item with
  | document fields =>
      cases isDocument
      exact fits_insert (passes.child held inside)
        (allowed_reference passes (fits_of_sublist List.filter_sublist fits) list)
  | _ => cases isDocument

end Document

variable {allowed : String × Value → Prop}

theorem IdSupply.fits_of_mem_identify (passes : Document.PassesOn allowed) (ids : IdSupply)
    {documents : List Document} (fits : ∀ document ∈ documents, document.Fits allowed) :
    ∀ document ∈ ids.identify documents, document.Fits allowed := by
  intro document member
  rw [identify, List.mem_mapIdx] at member
  rcases member with ⟨index, bound, rfl⟩
  exact Document.fits_withId passes (fits _ (List.getElem_mem bound)) _

theorem Cascade.fits_of_mem_batches (passes : Document.PassesOn allowed) {known : String → Bool}
    {ids : IdSupply} {list : String} {documents : List Document} {batch : Batch}
    (fits : ∀ document ∈ documents, document.Fits allowed)
    (member : batch ∈ batches known ids list documents) :
    ∀ document ∈ batch.documents, document.Fits allowed := by
  induction known, ids, list, documents using induction_on_children with
  | level known ids list documents induction =>
      have identified := IdSupply.fits_of_mem_identify passes ids fits
      rcases mem_batches_iff.mp member with
        rfl | ⟨document, index, field, items, place, position, nested, inside⟩
      · exact identified
      · refine induction document index field items place position nested ?_ inside
        intro child
        exact Document.fits_of_mem_childrenOf passes
          (identified document (List.fst_mem_of_mem_zipIdx position))
          (List.fst_mem_of_mem_zipIdx nested)

end DocStore

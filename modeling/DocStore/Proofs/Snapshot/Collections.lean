import DocStore.Proofs.Snapshot.Values
import DocStore.Proofs.Store.Saving
import DocStore.Snapshot.Basic

/-!
Collections in a snapshot. The text of a snapshot stands for its lists, each with its documents in
order, as they are read back.
-/

namespace DocStore

namespace Document

def reloaded (document : Document) : Document :=
  Value.reloadedFields document

def IsReadable (document : Document) : Prop :=
  (Value.document document).everywhere Value.isReadable = true

instance (document : Document) : Decidable document.IsReadable :=
  inferInstanceAs (Decidable (_ = true))

end Document

namespace Collections

def reloaded (collections : Collections) : Collections :=
  collections.map fun _ documents => documents.map Document.reloaded

end Collections

namespace Snapshot

theorem decodeDocuments?_encodeDocuments {documents : List Document}
    (readable : ∀ document ∈ documents, document.IsReadable) :
    decodeDocuments? (encodeDocuments documents).reread =
      some (documents.map Document.reloaded) := by
  rw [encodeDocuments, Json.reread, decodeDocuments?]
  induction documents with
  | nil => rfl
  | cons document documents induction =>
      have here := Value.decode?_encode (readable document List.mem_cons_self)
      have later := induction fun other member => readable other (List.mem_cons_of_mem document member)
      rw [List.map_cons, Json.rereadItems, List.mapM_cons, here, later]
      rfl

theorem foldlM_decodeDocuments? {lists : List (String × List Document)} (entries : Collections)
    (readable : ∀ list ∈ lists, ∀ document ∈ list.2, document.IsReadable) :
    (Json.rereadMembers (lists.map fun (list, documents) => (list, encodeDocuments documents))).foldlM
        (fun (entries : Collections) (list, documents) => do
          return entries.insert list (← decodeDocuments? documents)) entries =
      some ((lists.map fun (list, documents) => (list, documents.map Document.reloaded)).foldl
        (fun entries list => entries.insert list.1 list.2) entries) := by
  induction lists generalizing entries with
  | nil => rfl
  | cons first lists induction =>
      rcases first with ⟨list, documents⟩
      have here : decodeDocuments? (encodeDocuments documents).reread =
          some (documents.map Document.reloaded) :=
        decodeDocuments?_encodeDocuments (readable (list, documents) List.mem_cons_self)
      have later (entries : Collections) := induction entries
        fun other member => readable other (List.mem_cons_of_mem _ member)
      rw [List.map_cons, Json.rereadMembers, List.foldlM_cons]
      dsimp only
      rw [here, List.map_cons, List.foldl_cons]
      exact later _

theorem ofList_reloaded (collections : Collections) :
    (collections.toList.map fun (list, documents) => (list, documents.map Document.reloaded)).foldl
        (fun (entries : Collections) list => entries.insert list.1 list.2) ∅ =
      collections.reloaded := by
  rw [← Std.ExtTreeMap.ofList_eq_foldl]
  apply Std.ExtTreeMap.ext_getElem?
  intro name
  rw [Collections.reloaded, Std.ExtTreeMap.getElem?_map]
  cases found : collections[name]? with
  | some documents =>
      apply Std.ExtTreeMap.getElem?_ofList_of_mem Std.ReflCmp.compare_self
      · exact List.pairwise_map.mpr Std.ExtTreeMap.distinct_keys_toList
      · exact List.mem_map.mpr
          ⟨(name, documents), Std.ExtTreeMap.mem_toList_iff_getElem?_eq_some.mpr found, rfl⟩
  | none =>
      apply Std.ExtTreeMap.getElem?_ofList_of_contains_eq_false
      rw [List.map_map, ← Bool.not_eq_true, List.contains_iff_mem]
      intro member
      rcases List.mem_map.mp member with ⟨⟨list, documents⟩, inside, rfl⟩
      rw [Std.ExtTreeMap.mem_toList_iff_getElem?_eq_some] at inside
      cases found.symm.trans inside

theorem parse?_render {collections : Collections}
    (readable : collections.Each fun documents => ∀ document ∈ documents, document.IsReadable)
    (shallow : (toJson collections).depth ≤ Json.nestingLimit) :
    parse? (render collections) = some collections.reloaded := by
  have lists := foldlM_decodeDocuments? ∅ (Collections.each_iff.mp readable)
  rw [ofList_reloaded] at lists
  rw [parse?, render, Json.read?_render shallow, Option.bind_some]
  exact lists

end Snapshot

end DocStore

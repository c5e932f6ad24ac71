import DocStore.Fields

/-!
Looking up fields after setting some, and the keys that there are then. Setting fields merges them into
those that are there, and setting them once more changes nothing.
-/

namespace DocStore.Fields

variable {α : Type}

theorem get?_nil (key : String) : get? ([] : Fields α) key = none := rfl

theorem get?_cons (existing : String) (value : α) (fields : Fields α) (key : String) :
    get? ((existing, value) :: fields) key =
      if existing = key then some value else get? fields key := by
  by_cases same : existing = key
  · simp [get?, same]
  · simp [get?, same]

theorem get?_insert_other (fields : Fields α) {key other : String} (value : α)
    (different : other ≠ key) : get? (insert fields key value) other = get? fields other := by
  induction fields with
  | nil => simp [insert, get?_cons, get?_nil, different.symm]
  | cons field fields induction =>
      rcases field with ⟨existing, old⟩
      by_cases same : existing = key
      · subst same
        simp [insert, get?_cons, different.symm]
      · simp [insert, get?_cons, same, induction]

theorem get?_insert_self (fields : Fields α) (key : String) (value : α) :
    get? (insert fields key value) key = some value := by
  induction fields with
  | nil => simp [insert, get?_cons]
  | cons field fields induction =>
      rcases field with ⟨existing, old⟩
      by_cases same : existing = key
      · simp [insert, get?_cons, same]
      · simp [insert, get?_cons, same, induction]

theorem get?_insertAll_other {fields entries : Fields α} {key : String}
    (absent : contains entries key = false) :
    get? (insertAll fields entries) key = get? fields key := by
  induction entries generalizing fields with
  | nil => rfl
  | cons entry entries induction =>
      rcases entry with ⟨existing, value⟩
      simp only [contains, List.any_cons, Bool.or_eq_false_iff, beq_eq_false_iff_ne] at absent
      have step : insertAll fields ((existing, value) :: entries) =
          insertAll (insert fields existing value) entries := rfl
      rw [step, induction absent.2, get?_insert_other fields value absent.1.symm]

theorem mem_of_get?_eq_some {fields : Fields α} {key : String} {value : α}
    (found : get? fields key = some value) : (key, value) ∈ fields := by
  induction fields with
  | nil => cases found
  | cons field fields induction =>
      rcases field with ⟨existing, old⟩
      rw [get?_cons] at found
      split at found
      · next same =>
        cases same
        cases found
        exact List.mem_cons_self
      · exact List.mem_cons_of_mem _ (induction found)

theorem mem_insert {fields : Fields α} {key : String} {value : α} {field : String × α}
    (member : field ∈ insert fields key value) : field = (key, value) ∨ field ∈ fields := by
  induction fields with
  | nil => exact .inl (List.mem_singleton.mp member)
  | cons first fields induction =>
      rcases first with ⟨existing, old⟩
      rw [insert] at member
      split at member
      · rcases List.mem_cons.mp member with here | later
        · exact .inl here
        · exact .inr (List.mem_cons_of_mem _ later)
      · rcases List.mem_cons.mp member with rfl | later
        · exact .inr List.mem_cons_self
        · exact (induction later).imp_right (List.mem_cons_of_mem _)

theorem get?_filter_of_kept {fields : Fields α} {key : String} {value : α}
    {keep : String × α → Bool} (found : get? fields key = some value)
    (kept : keep (key, value) = true) : get? (fields.filter keep) key = some value := by
  induction fields with
  | nil => cases found
  | cons field fields induction =>
      rcases field with ⟨existing, old⟩
      rw [get?_cons] at found
      split at found
      · next same =>
        cases same
        cases found
        rw [List.filter_cons_of_pos kept, get?_cons, if_pos rfl]
      · next different =>
        rw [List.filter_cons]
        split
        · rw [get?_cons, if_neg different, induction found]
        · exact induction found

theorem get?_erase_other (fields : Fields α) {key other : String} (different : other ≠ key) :
    get? (erase fields key) other = get? fields other := by
  induction fields with
  | nil => rfl
  | cons field fields induction =>
      rcases field with ⟨existing, old⟩
      rw [erase, List.filter_cons, get?_cons]
      by_cases same : existing = key
      · rw [if_neg (by simp [same]), if_neg (same ▸ Ne.symm different)]
        exact induction
      · rw [if_pos (by simpa using same), get?_cons, ← induction]
        rfl

/-! ## Keys -/

theorem contains_eq_isSome_get? (fields : Fields α) (key : String) :
    contains fields key = (get? fields key).isSome := by
  induction fields with
  | nil => rfl
  | cons field fields induction =>
      rcases field with ⟨existing, value⟩
      rw [get?_cons]
      by_cases same : existing = key
      · simp [contains, same]
      · simp only [contains, List.any_cons, beq_eq_false_iff_ne.mpr same, Bool.false_or, if_neg same]
        exact induction

theorem keys_cons (existing : String) (value : α) (fields : Fields α) :
    keys ((existing, value) :: fields) = existing :: keys fields := rfl

theorem keys_insert (fields : Fields α) (key : String) (value : α) :
    keys (insert fields key value) =
      if key ∈ keys fields then keys fields else keys fields ++ [key] := by
  induction fields with
  | nil => rfl
  | cons field fields induction =>
      rcases field with ⟨existing, old⟩
      by_cases same : existing = key
      · simp [insert, keys_cons, same]
      · simp only [insert, same, if_false, keys_cons, induction, List.mem_cons, Ne.symm same,
          false_or]
        split
        · rfl
        · rfl

theorem nodup_keys_insert {fields : Fields α} (distinct : (keys fields).Nodup) (key : String)
    (value : α) : (keys (insert fields key value)).Nodup := by
  rw [keys_insert]
  split
  · exact distinct
  · next fresh =>
    refine List.nodup_append.mpr ⟨distinct, by simp, ?_⟩
    intro other member added same equal
    exact fresh (List.mem_singleton.mp same ▸ equal ▸ member)

theorem insert_of_not_mem {fields : Fields α} {key : String} (fresh : key ∉ keys fields) (value : α) :
    insert fields key value = fields ++ [(key, value)] := by
  induction fields with
  | nil => rfl
  | cons field fields induction =>
      rcases field with ⟨existing, old⟩
      rw [keys_cons, List.mem_cons, not_or] at fresh
      rw [insert, if_neg (Ne.symm fresh.1), induction fresh.2]
      rfl

theorem get?_eq_none {fields : Fields α} {key : String} (absent : key ∉ keys fields) :
    get? fields key = none := by
  induction fields with
  | nil => rfl
  | cons field fields induction =>
      rcases field with ⟨existing, value⟩
      rw [keys_cons, List.mem_cons, not_or] at absent
      rw [get?_cons, if_neg (Ne.symm absent.1), induction absent.2]

theorem get?_append_cons {before : Fields α} {key : String} (absent : key ∉ keys before) (value : α)
    (after : Fields α) : get? (before ++ (key, value) :: after) key = some value := by
  induction before with
  | nil => exact (get?_cons key value after key).trans (if_pos rfl)
  | cons field before induction =>
      rcases field with ⟨existing, old⟩
      rw [keys_cons, List.mem_cons, not_or] at absent
      rw [List.cons_append, get?_cons, if_neg (Ne.symm absent.1), induction absent.2]

theorem insert_append_cons {before : Fields α} {key : String} (absent : key ∉ keys before)
    (old value : α) (after : Fields α) :
    insert (before ++ (key, old) :: after) key value = before ++ (key, value) :: after := by
  induction before with
  | nil => exact if_pos rfl
  | cons field before induction =>
      rcases field with ⟨existing, first⟩
      rw [keys_cons, List.mem_cons, not_or] at absent
      rw [List.cons_append, insert, if_neg (Ne.symm absent.1), induction absent.2]
      rfl

theorem insertAll_eq_append {fields entries : Fields α}
    (distinct : (keys fields ++ keys entries).Nodup) : insertAll fields entries = fields ++ entries := by
  induction entries generalizing fields with
  | nil => exact (List.append_nil fields).symm
  | cons entry entries induction =>
      rcases entry with ⟨key, value⟩
      have fresh : key ∉ keys fields := by
        intro member
        exact (List.nodup_append.mp distinct).2.2 key member key List.mem_cons_self rfl
      have step : insertAll fields ((key, value) :: entries) =
          insertAll (insert fields key value) entries := rfl
      have moved : keys (fields ++ [(key, value)]) ++ keys entries =
          keys fields ++ keys ((key, value) :: entries) := by
        simp [keys]
      rw [step, insert_of_not_mem fresh, induction (moved ▸ distinct), List.append_assoc]
      rfl

/-! ## Fields in another order -/

theorem get?_eq_some_iff_mem {fields : Fields α} (distinct : (keys fields).Nodup) {key : String}
    {value : α} : get? fields key = some value ↔ (key, value) ∈ fields := by
  refine ⟨mem_of_get?_eq_some, fun member => ?_⟩
  rcases List.append_of_mem member with ⟨before, after, rfl⟩
  rw [keys, List.map_append, List.map_cons] at distinct
  have absent : key ∉ keys before := fun earlier =>
    (List.nodup_append.mp distinct).2.2 key earlier key List.mem_cons_self rfl
  exact get?_append_cons absent value after

theorem get?_eq_of_perm {fields others : Fields α} (same : fields.Perm others)
    (distinct : (keys fields).Nodup) (key : String) : get? fields key = get? others key := by
  have distinctOthers : (keys others).Nodup := (same.map Prod.fst).nodup_iff.mp distinct
  apply Option.ext
  intro value
  rw [get?_eq_some_iff_mem distinct, get?_eq_some_iff_mem distinctOthers, same.mem_iff]

/-- Setting fields replaces the first field if it has one of the keys; the rest is set in what
follows. -/
theorem insertAll_cons {entries : Fields α} (distinct : (keys entries).Nodup) (key : String)
    (old : α) (fields : Fields α) :
    insertAll ((key, old) :: fields) entries =
      (key, (get? entries key).getD old) :: insertAll fields (erase entries key) := by
  induction entries generalizing old fields with
  | nil => rfl
  | cons entry entries induction =>
      rcases entry with ⟨name, value⟩
      rw [keys_cons, List.nodup_cons] at distinct
      have step : insertAll ((key, old) :: fields) ((name, value) :: entries) =
          insertAll (insert ((key, old) :: fields) name value) entries := rfl
      rw [step, insert, get?_cons, erase, List.filter_cons]
      by_cases same : key = name
      · subst same
        rw [if_pos rfl, if_pos rfl, if_neg (by simp), induction distinct.2,
          get?_eq_none distinct.1]
        rfl
      · rw [if_neg same, if_neg (Ne.symm same), if_pos (by simpa using Ne.symm same),
          induction distinct.2]
        rfl

theorem insertAll_perm (fields : Fields α) {entries others : Fields α} (same : entries.Perm others)
    (distinct : (keys entries).Nodup) :
    (insertAll fields entries).Perm (insertAll fields others) := by
  have distinctOthers : (keys others).Nodup := (same.map Prod.fst).nodup_iff.mp distinct
  induction fields generalizing entries others with
  | nil =>
      have whole : insertAll [] entries = entries := insertAll_eq_append distinct
      have wholeOthers : insertAll [] others = others := insertAll_eq_append distinctOthers
      rw [whole, wholeOthers]
      exact same
  | cons field fields induction =>
      rcases field with ⟨key, old⟩
      rw [insertAll_cons distinct, insertAll_cons distinctOthers, get?_eq_of_perm same distinct]
      have fewer : (keys (erase entries key)).Nodup :=
        (List.filter_sublist.map Prod.fst).nodup distinct
      have fewerOthers : (keys (erase others key)).Nodup :=
        (List.filter_sublist.map Prod.fst).nodup distinctOthers
      exact (induction (same.filter _) fewer fewerOthers).cons _

/-! ## Fields that are set again -/

theorem mem_keys_insert (fields : Fields α) (key : String) (value : α) {other : String} :
    other ∈ keys (insert fields key value) ↔ other = key ∨ other ∈ keys fields := by
  rw [keys_insert]
  split
  · next present => exact ⟨.inr, fun either => either.elim (fun same => same ▸ present) id⟩
  · rw [List.mem_append, List.mem_singleton, or_comm]

theorem mem_keys_insertAll {fields : Fields α} {key : String} (present : key ∈ keys fields)
    (entries : Fields α) : key ∈ keys (insertAll fields entries) := by
  induction entries generalizing fields with
  | nil => exact present
  | cons entry entries induction =>
      exact induction ((mem_keys_insert fields entry.1 entry.2).mpr (.inr present))

theorem insert_insert_self (fields : Fields α) (key : String) (old value : α) :
    insert (insert fields key old) key value = insert fields key value := by
  induction fields with
  | nil => exact if_pos rfl
  | cons field fields induction =>
      rcases field with ⟨existing, held⟩
      by_cases same : existing = key
      · simp only [insert, same, if_true]
      · simp only [insert, same, if_false, induction]

theorem insert_insert_other {fields : Fields α} {key other : String} (present : key ∈ keys fields)
    (different : other ≠ key) (value held : α) :
    insert (insert fields key value) other held = insert (insert fields other held) key value := by
  induction fields with
  | nil => cases present
  | cons field fields induction =>
      rcases field with ⟨existing, old⟩
      by_cases same : existing = key
      · subst same
        simp only [insert, if_true, if_neg different.symm]
      · have later : key ∈ keys fields := List.mem_of_ne_of_mem (Ne.symm same) present
        by_cases here : existing = other
        · subst here
          simp only [insert, if_true, if_neg same]
        · simp only [insert, if_neg same, if_neg here, induction later]

theorem insert_of_get? {fields : Fields α} {key : String} {value : α}
    (found : get? fields key = some value) : insert fields key value = fields := by
  induction fields with
  | nil => cases found
  | cons field fields induction =>
      rcases field with ⟨existing, old⟩
      rw [get?_cons] at found
      rw [insert]
      split at found
      · next same =>
        cases found
        rw [if_pos same, same]
      · next different => rw [if_neg different, induction found]

theorem insertAll_insert {fields entries : Fields α} {key : String} (present : key ∈ keys fields)
    (again : key ∈ keys entries) (value : α) :
    insertAll (insert fields key value) entries = insertAll fields entries := by
  induction entries generalizing fields with
  | nil => cases again
  | cons entry entries induction =>
      rcases entry with ⟨name, held⟩
      change insertAll (insert (insert fields key value) name held) entries =
        insertAll (insert fields name held) entries
      by_cases same : name = key
      · rw [same, insert_insert_self]
      · have later : key ∈ keys entries := List.mem_of_ne_of_mem (Ne.symm same) again
        rw [insert_insert_other present same]
        exact induction ((mem_keys_insert fields name held).mpr (.inr present)) later

theorem insertAll_insertAll (fields entries : Fields α) :
    insertAll (insertAll fields entries) entries = insertAll fields entries := by
  induction entries generalizing fields with
  | nil => rfl
  | cons entry entries induction =>
      rcases entry with ⟨key, value⟩
      have rest := induction (insert fields key value)
      change insertAll (insert (insertAll (insert fields key value) entries) key value) entries =
        insertAll (insert fields key value) entries
      by_cases again : key ∈ keys entries
      · have present : key ∈ keys (insertAll (insert fields key value) entries) :=
          mem_keys_insertAll ((mem_keys_insert fields key value).mpr (.inl rfl)) entries
        rw [insertAll_insert present again, rest]
      · have absent : contains entries key = false := by
          rw [contains_eq_isSome_get?, get?_eq_none again]
          rfl
        have found : get? (insertAll (insert fields key value) entries) key = some value := by
          rw [get?_insertAll_other absent, get?_insert_self]
        rw [insert_of_get? found, rest]

/-! ## Merging -/

/-- The fields with others merged into them: those that are there keep their positions, and the new
ones follow in their order. -/
def merge (fields entries : Fields α) : Fields α :=
  fields.map (fun (key, old) => (key, (get? entries key).getD old)) ++
    entries.filter fun (key, _) => !contains fields key

theorem merge_cons {entries : Fields α} {key : String} {fields : Fields α}
    (fresh : key ∉ keys fields) (old : α) :
    merge ((key, old) :: fields) entries =
      (key, (get? entries key).getD old) :: merge fields (erase entries key) := by
  have kept : fields.map (fun (name, held) => (name, (get? entries name).getD held)) =
      fields.map (fun (name, held) => (name, (get? (erase entries key) name).getD held)) := by
    apply List.map_congr_left
    rintro ⟨name, held⟩ member
    have different : name ≠ key := fun same =>
      fresh (same ▸ List.mem_map_of_mem member)
    dsimp only
    rw [get?_erase_other entries different]
  have added : (entries.filter fun (name, _) => !contains ((key, old) :: fields) name) =
      (erase entries key).filter fun (name, _) => !contains fields name := by
    rw [erase, List.filter_filter]
    apply List.filter_congr
    rintro ⟨name, value⟩ _
    dsimp only
    rw [contains, List.any_cons, Bool.not_or, Bool.and_comm, bne, Bool.beq_comm]
    rfl
  rw [merge, merge, List.map_cons, List.cons_append, kept, added]

theorem insertAll_eq_merge {fields entries : Fields α} (distinct : (keys fields).Nodup)
    (distinctEntries : (keys entries).Nodup) : insertAll fields entries = merge fields entries := by
  induction fields generalizing entries with
  | nil =>
      have all : (entries.filter fun (key, _) => !contains ([] : Fields α) key) = entries :=
        List.filter_eq_self.mpr fun _ _ => rfl
      have whole : insertAll [] entries = entries := insertAll_eq_append distinctEntries
      rw [whole, merge, all]
      rfl
  | cons field fields induction =>
      rcases field with ⟨key, old⟩
      rw [keys_cons, List.nodup_cons] at distinct
      have fewer : (keys (erase entries key)).Nodup :=
        (List.filter_sublist.map Prod.fst).nodup distinctEntries
      rw [insertAll_cons distinctEntries, merge_cons distinct.1, induction distinct.2 fewer]

end DocStore.Fields

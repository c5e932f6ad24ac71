import DocStore.Proofs.Outcome
import DocStore.Proofs.Value.Induction
import DocStore.Query.Builder

/-!
Includes as they are written. The options of an include are given as they stand in a document, with what
they are called to build beside it.

The main statements are that exactly the written options are read, and that reading them gives what the
calls build.
-/

namespace DocStore

/-! ## Documents that are read part by part -/

namespace Document

variable {σ ε part : Type} {set : σ → String × Value → Except ε σ} {field : part → String × Value}

theorem exists_parts_of_foldlM {fields : Document} {state result : σ}
    (each : ∀ entry ∈ fields, ∀ before after, set before entry = .ok after →
      ∃ one, field one = entry)
    (read : fields.foldlM set state = .ok result) : ∃ parts : List part, parts.map field = fields := by
  induction fields generalizing state with
  | nil => exact ⟨[], rfl⟩
  | cons entry fields induction =>
      rw [List.foldlM_cons, Outcome.bind_eq_ok_iff] at read
      rcases read with ⟨next, here, rest⟩
      rcases each entry List.mem_cons_self state next here with ⟨one, rfl⟩
      rcases induction (fun entry member => each entry (List.mem_cons_of_mem _ member)) rest with
        ⟨parts, rfl⟩
      exact ⟨one :: parts, rfl⟩

/-- Parts are read one after the other as each is called for, where nothing was called for yet that it
changes. The names in a document differ, so that a part leaves alone what the others change. -/
theorem foldlM_parts {call : σ → part → σ} {fresh : σ → part → Prop} {parts : List part}
    (each : ∀ one ∈ parts, ∀ state, ∃ result, set state (field one) = .ok result ∧
      ((field one).2.everywhere Value.namesOnce = true → fresh state one → result = call state one))
    (stays : ∀ state one other, (field one).1 ≠ (field other).1 → fresh state other →
      fresh (call state one) other) (state : σ) :
    ∃ result, (parts.map field).foldlM set state = .ok result ∧
      (IsProper (parts.map field) → (∀ one ∈ parts, fresh state one) →
        result = parts.foldl call state) := by
  induction parts generalizing state with
  | nil => exact ⟨state, rfl, fun _ _ => rfl⟩
  | cons one parts induction =>
      rcases each one List.mem_cons_self state with ⟨next, here, called⟩
      rcases induction (fun other member => each other (List.mem_cons_of_mem one member)) next with
        ⟨result, rest, calledRest⟩
      refine ⟨result, ?_, fun proper unset => ?_⟩
      · rw [List.map_cons, List.foldlM_cons, Outcome.bind_eq_ok_iff]
        exact ⟨next, here, rest⟩
      · have names := (isProper_iff.mp proper).1
        have values := (isProper_iff.mp proper).2
        cases called (values _ List.mem_cons_self) (unset one List.mem_cons_self)
        refine calledRest (isProper_of_sublist (List.sublist_cons_self _ _) proper) ?_
        intro other member
        refine stays state one other (fun same => ?_) (unset other (List.mem_cons_of_mem one member))
        have repeated : (field one).1 ∈ Fields.keys (parts.map field) := by
          rw [same, Fields.keys, List.map_map]
          exact List.mem_map_of_mem member
        exact (List.nodup_cons.mp names).1 repeated

end Document

/-! ## Options -/

/-- One option of an include. -/
inductive IncludeOption where
  | on (pairs : List (String × String))
  | required (value : Bool)
  | includes (entries : List (String × List IncludeOption))

namespace IncludeOption

theorem induction_on_inner {holds : IncludeOption → Prop} (on : ∀ pairs, holds (.on pairs))
    (required : ∀ value, holds (.required value))
    (includes : ∀ entries : List (String × List IncludeOption),
      (∀ entry ∈ entries, ∀ option ∈ entry.2, holds option) → holds (.includes entries))
    (option : IncludeOption) : holds option := by
  refine @IncludeOption.rec holds (fun entries => ∀ entry ∈ entries, ∀ option ∈ entry.2, holds option)
    (fun entry => ∀ option ∈ entry.2, holds option) (fun options => ∀ option ∈ options, holds option)
    on required includes ?noEntry ?entries ?entry ?noOption ?options option
  case noEntry => exact nofun
  case entries =>
      intro first entries here each entry member
      rcases List.mem_cons.mp member with rfl | later
      · exact here
      · exact each entry later
  case entry => exact fun list options each => each
  case noOption => exact nofun
  case options =>
      intro first options here each option member
      rcases List.mem_cons.mp member with rfl | later
      · exact here
      · exact each option later

/-! ## How options are written -/

mutual

def field : IncludeOption → String × Value
  | .on pairs =>
      ("on", .document (pairs.map fun (localField, foreignField) => (localField, .string foreignField)))
  | .required value => ("required", .bool value)
  | .includes entries => ("include", .document (entriesDocument entries))
termination_by structural option => option

def document : List IncludeOption → Document
  | [] => []
  | option :: options => field option :: document options
termination_by structural options => options

def entriesDocument : List (String × List IncludeOption) → Document
  | [] => []
  | (list, options) :: entries => (list, .document (document options)) :: entriesDocument entries
termination_by structural entries => entries

end

/-! ## What options call for -/

mutual

def call (spec : Include) : IncludeOption → Include
  | .on pairs => pairs.foldl (fun spec (localField, foreignField) => spec.joinOn localField foreignField) spec
  | .required value => if value then spec.require else spec
  | .includes entries => callEntries spec entries
termination_by structural option => option

def callAll (spec : Include) : List IncludeOption → Include
  | [] => spec
  | option :: options => callAll (call spec option) options
termination_by structural options => options

def callEntries (spec : Include) : List (String × List IncludeOption) → Include
  | [] => spec
  | (list, options) :: entries => callEntries (spec.including list (callAll {} options)) entries
termination_by structural entries => entries

end

variable {options : List IncludeOption} {entries : List (String × List IncludeOption)}

theorem document_eq_map (options : List IncludeOption) : document options = options.map field := by
  induction options with
  | nil => rfl
  | cons option options induction => rw [document, induction, List.map_cons]

theorem entriesDocument_eq_map (entries : List (String × List IncludeOption)) :
    entriesDocument entries = entries.map fun (list, options) => (list, .document (document options)) := by
  induction entries with
  | nil => rfl
  | cons entry entries induction =>
      rcases entry with ⟨list, options⟩
      rw [entriesDocument, induction, List.map_cons]

theorem callAll_eq_foldl (spec : Include) (options : List IncludeOption) :
    callAll spec options = options.foldl call spec := by
  induction options generalizing spec with
  | nil => rfl
  | cons option options induction => rw [callAll, induction, List.foldl_cons]

/-- The includes that are called for, by list. -/
def built (entries : List (String × List IncludeOption)) : Includes :=
  entries.map fun (list, options) => (list, callAll {} options)

theorem call_on (spec : Include) (pairs : List (String × String)) :
    call spec (.on pairs) = { spec with on := spec.on ++ pairs } := by
  rw [call]
  induction pairs generalizing spec with
  | nil =>
      rcases spec with ⟨on, required, includes⟩
      exact congrArg (Include.mk · required includes) (List.append_nil on).symm
  | cons pair pairs induction =>
      rw [List.foldl_cons, induction]
      exact congrArg (Include.mk · spec.required spec.includes) (List.append_assoc _ _ _)

theorem callEntries_eq (spec : Include) (entries : List (String × List IncludeOption)) :
    callEntries spec entries =
      { spec with includes := Fields.insertAll spec.includes (built entries) } := by
  induction entries generalizing spec with
  | nil =>
      rcases spec with ⟨on, required, includes⟩
      rfl
  | cons entry entries induction =>
      rcases entry with ⟨list, options⟩
      rw [callEntries, induction]
      rfl

/-! ## Reading options -/

theorem pairOfField_eq_ok_iff {entry : String × Value} {pair : String × String} :
    Include.pairOfField entry = .ok pair ↔ entry = (pair.1, .string pair.2) := by
  rcases entry with ⟨localField, value⟩
  rcases pair with ⟨name, foreignField⟩
  cases value with
  | string text => simp [Include.pairOfField]
  | _ => simp [Include.pairOfField]

theorem pairs_eq_ok_iff {fields : Document} {pairs : List (String × String)} :
    fields.mapM Include.pairOfField = .ok pairs ↔
      fields = pairs.map fun (localField, foreignField) => (localField, .string foreignField) := by
  simp only [Outcome.mapM_eq_ok_iff_forall₂, pairOfField_eq_ok_iff]
  rw [← List.forall₂_eq_eq_eq, List.forall₂_map_right_iff]

theorem setOption_eq_ok_iff {spec result : Include} {key : String} {value : Value} :
    spec.setOption key value = .ok result ↔
      (key = "on" ∧ ∃ pairs : List (String × String),
          value = .document (pairs.map fun (localField, foreignField) =>
            (localField, .string foreignField)) ∧
          { spec with on := spec.on ++ pairs } = result) ∨
        (key = "required" ∧ ∃ required, value = .bool required ∧ { spec with required } = result) ∨
        (key = "include" ∧ ∃ entries includes, value = .document entries ∧
          Include.readIncludes [] entries = .ok includes ∧ { spec with includes } = result) := by
  cases value with
  | document fields =>
      simp only [Value.document.injEq, reduceCtorEq, false_and, exists_false, and_false, false_or,
        ← pairs_eq_ok_iff, Include.setOption]
      by_cases isOn : key = "on"
      · rw [if_pos isOn]
        cases fields.mapM Include.pairOfField with
        | error cause => simp [isOn]
        | ok pairs => simp [isOn]
      · rw [if_neg isOn]
        by_cases isInclude : key = "include"
        · rw [if_pos isInclude]
          cases read : Include.readIncludes [] fields with
          | error cause => simp [isInclude, read]
          | ok includes => simp [isInclude, read]
        · simp [isOn, isInclude]
  | bool required =>
      rw [Include.setOption]
      by_cases isRequired : key = "required"
      · simp [isRequired]
      · simp [isRequired]
  | _ => simp [Include.setOption]

theorem readOptions_eq_foldlM (spec : Include) (fields : Document) :
    spec.readOptions fields =
      fields.foldlM (fun spec (key, value) => spec.setOption key value) spec := by
  induction fields generalizing spec with
  | nil => rfl
  | cons entry fields induction =>
      rcases entry with ⟨key, value⟩
      rw [Include.readOptions, List.foldlM_cons]
      dsimp only
      cases spec.setOption key value with
      | error cause => rfl
      | ok next => exact induction next

def readEntry (includes : Includes) (entry : String × Value) : Except QueryError Includes := do
  return includes.insert entry.1 (← Include.readInclude entry.1 entry.2)

theorem readIncludes_eq_foldlM (includes : Includes) (fields : Document) :
    Include.readIncludes includes fields = fields.foldlM readEntry includes := by
  induction fields generalizing includes with
  | nil => rfl
  | cons entry fields induction =>
      rcases entry with ⟨list, value⟩
      rw [Include.readIncludes, List.foldlM_cons, readEntry]
      cases Include.readInclude list value with
      | error cause => rfl
      | ok spec => exact induction (includes.insert list spec)

theorem readEntry_eq_ok_iff {includes result : Includes} {list : String} {value : Value} :
    readEntry includes (list, value) = .ok result ↔
      ∃ inner spec, value = .document inner ∧ Include.readOptions {} inner = .ok spec ∧
        includes.insert list spec = result := by
  rw [readEntry, Outcome.bind_eq_ok_iff]
  cases value with
  | document inner => simp [Include.readInclude, Outcome.pure_eq_ok_iff]
  | _ => simp [Include.readInclude]

/-! ## Only written options are read -/

theorem exists_entries_of_readIncludes {fields : Document} {includes result : Includes}
    (each : ∀ field ∈ fields, ∀ inner, field.2 = .document inner →
      ∀ spec read, Include.readOptions spec inner = .ok read → ∃ options, document options = inner)
    (read : Include.readIncludes includes fields = .ok result) :
    ∃ entries, entriesDocument entries = fields := by
  rw [readIncludes_eq_foldlM] at read
  simp only [entriesDocument_eq_map]
  refine Document.exists_parts_of_foldlM ?_ read
  rintro ⟨list, value⟩ member before after here
  rcases readEntry_eq_ok_iff.mp here with ⟨inner, spec, rfl, inside, _⟩
  rcases each _ member inner rfl {} spec inside with ⟨options, rfl⟩
  exact ⟨(list, options), rfl⟩

theorem exists_options_of_readOptions {fields : Document} {spec result : Include}
    (read : spec.readOptions fields = .ok result) : ∃ options, document options = fields := by
  induction fields using Document.induction_two_levels_below generalizing spec result with
  | step fields each =>
      rw [readOptions_eq_foldlM] at read
      simp only [document_eq_map]
      refine Document.exists_parts_of_foldlM ?_ read
      rintro ⟨key, value⟩ position before after here
      rcases setOption_eq_ok_iff.mp here with ⟨rfl, pairs, rfl, _⟩ | ⟨rfl, required, rfl, _⟩ |
        ⟨rfl, entries, includes, rfl, nested, _⟩
      · exact ⟨.on pairs, rfl⟩
      · exact ⟨.required required, rfl⟩
      · have below : ∀ field ∈ entries, ∀ inner, field.2 = .document inner →
            ∀ spec read, Include.readOptions spec inner = .ok read →
              ∃ options, document options = inner := by
          intro field member inner same spec read
          have inside : .document inner ∈ Value.parts (.document entries) :=
            List.mem_map.mpr ⟨field, member, same⟩
          exact each _ position inner inside
        rcases exists_entries_of_readIncludes below nested with ⟨written, rfl⟩
        exact ⟨.includes written, rfl⟩

/-! ## Written options are read as they are called for -/

/-- Whether an include is as it was at first as far as an option changes it. -/
def IsFresh (spec : Include) : IncludeOption → Prop
  | .on _ => True
  | .required _ => spec.required = false
  | .includes _ => spec.includes = []

theorem isFresh_empty (option : IncludeOption) : IsFresh {} option := by
  cases option with
  | on pairs => trivial
  | required value => rfl
  | includes entries => rfl

theorem isFresh_call {spec : Include} {option other : IncludeOption}
    (different : option.field.1 ≠ other.field.1) (fresh : IsFresh spec other) :
    IsFresh (call spec option) other := by
  cases option with
  | on pairs =>
      rw [call_on]
      cases other with
      | on others => trivial
      | _ => exact fresh
  | required value =>
      cases other with
      | on pairs => trivial
      | required other => exact absurd rfl different
      | includes entries =>
          cases value with
          | false => exact fresh
          | true => exact fresh
  | includes entries =>
      rw [call, callEntries_eq]
      cases other with
      | on pairs => trivial
      | required value => exact fresh
      | includes others => exact absurd rfl different

def IsReadAsCalled (option : IncludeOption) : Prop :=
  ∀ spec : Include, ∃ result, spec.setOption option.field.1 option.field.2 = .ok result ∧
    (option.field.2.everywhere Value.namesOnce = true → IsFresh spec option →
      result = call spec option)

theorem readOptions_document (each : ∀ option ∈ options, option.IsReadAsCalled) (spec : Include) :
    ∃ result, spec.readOptions (document options) = .ok result ∧
      ((document options).IsProper → (∀ option ∈ options, IsFresh spec option) →
        result = callAll spec options) := by
  rw [readOptions_eq_foldlM, document_eq_map, callAll_eq_foldl]
  exact Document.foldlM_parts each (fun _ _ _ => isFresh_call) spec

theorem readIncludes_entriesDocument
    (each : ∀ entry ∈ entries, ∀ option ∈ entry.2, option.IsReadAsCalled) (includes : Includes) :
    ∃ result, Include.readIncludes includes (entriesDocument entries) = .ok result ∧
      ((entriesDocument entries).IsProper →
        result = Fields.insertAll includes (built entries)) := by
  rw [readIncludes_eq_foldlM, entriesDocument_eq_map, built, Fields.insertAll, List.foldl_map]
  have read (entry) (member : entry ∈ entries) (includes : Includes) :
      ∃ result, readEntry includes (entry.1, .document (document entry.2)) = .ok result ∧
        (Value.everywhere Value.namesOnce (.document (document entry.2)) = true → True →
          result = includes.insert entry.1 (callAll {} entry.2)) := by
    rcases readOptions_document (each entry member) {} with ⟨spec, read, called⟩
    refine ⟨_, readEntry_eq_ok_iff.mpr ⟨_, spec, rfl, read, rfl⟩, fun proper _ => ?_⟩
    rw [called proper fun option _ => isFresh_empty option]
  rcases Document.foldlM_parts read (fun _ _ _ _ => id) includes with ⟨result, read, called⟩
  exact ⟨result, read, fun proper => called proper fun _ _ => trivial⟩

theorem isReadAsCalled (option : IncludeOption) : option.IsReadAsCalled := by
  induction option using induction_on_inner with
  | on pairs =>
      intro spec
      refine ⟨_, setOption_eq_ok_iff.mpr (.inl ⟨rfl, pairs, rfl, rfl⟩), fun _ _ => ?_⟩
      rw [call_on]
  | required value =>
      intro spec
      refine ⟨_, setOption_eq_ok_iff.mpr (.inr (.inl ⟨rfl, value, rfl, rfl⟩)), fun _ fresh => ?_⟩
      rcases spec with ⟨on, required, includes⟩
      cases value with
      | true => rfl
      | false => exact congrArg (Include.mk on · includes) (Eq.symm fresh)
  | includes entries each =>
      intro spec
      rcases readIncludes_entriesDocument each [] with ⟨includes, read, called⟩
      refine ⟨_, setOption_eq_ok_iff.mpr (.inr (.inr ⟨rfl, _, includes, rfl, read, rfl⟩)), ?_⟩
      intro proper fresh
      have unset : spec.includes = [] := fresh
      rw [call, callEntries_eq, called proper, unset]

theorem ofDocument_entriesDocument (entries : List (String × List IncludeOption)) :
    ∃ includes, Includes.ofDocument (entriesDocument entries) = .ok includes ∧
      ((entriesDocument entries).IsProper → includes = Fields.ofList (built entries)) :=
  readIncludes_entriesDocument (fun _ _ option _ => isReadAsCalled option) []

theorem exists_entries_of_ofDocument {fields : Document} {includes : Includes}
    (read : Includes.ofDocument fields = .ok includes) : ∃ entries, entriesDocument entries = fields :=
  exists_entries_of_readIncludes (fun _ _ _ _ _ _ => exists_options_of_readOptions) read

end IncludeOption

/-! ## Lists that are named once -/

inductive Include.NamesListsOnce : Include → Prop
  | intro {on : List (String × String)} {required : Bool} {includes : List (String × Include)}
      (distinct : (Fields.keys includes).Nodup) (each : ∀ entry ∈ includes, NamesListsOnce entry.2) :
      NamesListsOnce ⟨on, required, includes⟩

/-- Whether no list is named twice, at any depth. -/
def Includes.NameListsOnce (includes : Includes) : Prop :=
  includes.keys.Nodup ∧ ∀ entry ∈ includes, entry.2.NamesListsOnce

theorem Include.namesListsOnce_iff {spec : Include} :
    spec.NamesListsOnce ↔ Includes.NameListsOnce spec.includes := by
  constructor
  · rintro ⟨distinct, each⟩
    exact ⟨distinct, each⟩
  · rcases spec with ⟨on, required, includes⟩
    exact fun once => .intro once.1 once.2

namespace Includes

theorem NameListsOnce.insert {includes : Includes} {spec : Include} (once : includes.NameListsOnce)
    (list : String) (inner : spec.NamesListsOnce) :
    Includes.NameListsOnce (Fields.insert includes list spec) := by
  refine ⟨Fields.nodup_keys_insert once.1 list spec, fun entry member => ?_⟩
  rcases Fields.mem_insert member with rfl | present
  · exact inner
  · exact once.2 entry present

theorem NameListsOnce.insertAll {includes entries : Includes} (once : includes.NameListsOnce)
    (each : ∀ entry ∈ entries, entry.2.NamesListsOnce) :
    Includes.NameListsOnce (Fields.insertAll includes entries) := by
  induction entries generalizing includes with
  | nil => exact once
  | cons entry entries induction =>
      exact induction (once.insert entry.1 (each entry List.mem_cons_self))
        fun other member => each other (List.mem_cons_of_mem entry member)

theorem nameListsOnce_nil : Includes.NameListsOnce [] :=
  ⟨List.nodup_nil, nofun⟩

end Includes

namespace IncludeOption

theorem namesListsOnce_callAll {options : List IncludeOption}
    (each : ∀ option ∈ options, ∀ spec : Include, spec.NamesListsOnce →
      (call spec option).NamesListsOnce) {spec : Include} (once : spec.NamesListsOnce) :
    (callAll spec options).NamesListsOnce := by
  induction options generalizing spec with
  | nil => exact once
  | cons option options induction =>
      exact induction (fun other member => each other (List.mem_cons_of_mem option member))
        (each option List.mem_cons_self spec once)

theorem namesListsOnce_of_mem_built {entries : List (String × List IncludeOption)}
    (each : ∀ entry ∈ entries, ∀ option ∈ entry.2, ∀ spec : Include, spec.NamesListsOnce →
      (call spec option).NamesListsOnce) {entry : String × Include} (member : entry ∈ built entries) :
    entry.2.NamesListsOnce := by
  rcases List.mem_map.mp member with ⟨⟨list, options⟩, inside, rfl⟩
  exact namesListsOnce_callAll (each _ inside)
    (Include.namesListsOnce_iff.mpr Includes.nameListsOnce_nil)

theorem namesListsOnce_call (option : IncludeOption) :
    ∀ spec : Include, spec.NamesListsOnce → (call spec option).NamesListsOnce := by
  induction option using induction_on_inner with
  | on pairs =>
      intro spec once
      have held := Include.namesListsOnce_iff.mp once
      exact call_on spec pairs ▸ Include.namesListsOnce_iff.mpr held
  | required value =>
      intro spec once
      have held := Include.namesListsOnce_iff.mp once
      cases value with
      | true => exact Include.namesListsOnce_iff.mpr held
      | false => exact once
  | includes entries each =>
      intro spec once
      have held := Include.namesListsOnce_iff.mp once
      rw [call, callEntries_eq, Include.namesListsOnce_iff]
      exact held.insertAll fun _ => namesListsOnce_of_mem_built each

theorem nameListsOnce_built {includes : Includes} (once : includes.NameListsOnce)
    (entries : List (String × List IncludeOption)) :
    Includes.NameListsOnce (Fields.insertAll includes (built entries)) :=
  once.insertAll fun _ => namesListsOnce_of_mem_built fun _ _ option _ => namesListsOnce_call option

end IncludeOption

end DocStore

import DocStore.Json.Nesting
import DocStore.Json.Printer
import DocStore.Proofs.Json.Scanning

/-!
Reading the text of a value. The machine that reads tokens leaves the containers around a value alone
until the value is complete.

The main statement is that the text of every value is read, and that what is read is the value with its
numbers as they are read.
-/

namespace DocStore.Json

mutual

def reread : Json → Json
  | .number value => ofNumber value
  | .array items => .array (rereadItems items)
  | .object members => .object (rereadMembers members)
  | .bytes _ _ | .unreadable _ => .null
  | value => value
termination_by structural json => json

def rereadItems : List Json → List Json
  | [] => []
  | item :: items => reread item :: rereadItems items
termination_by structural items => items

def rereadMembers : List (String × Json) → List (String × Json)
  | [] => []
  | (key, value) :: members => (key, reread value) :: rereadMembers members
termination_by structural members => members

end

namespace Machine

def run (machine : Machine) (tokens : List Token) : Option Json :=
  (tokens.foldlM step machine).bind result?

theorem run_cons (machine : Machine) (token : Token) (tokens : List Token) :
    run machine (token :: tokens) = (step machine token).bind (run · tokens) := by
  rw [run, List.foldlM_cons]
  cases step machine token with
  | none => rfl
  | some reached => rfl

/-- The tokens of a value bring the machine to the value, whatever is open around it. -/
def Builds (tokens : List Token) (value : Json) : Prop :=
  ∀ frames rest, run (.wantValue frames) (tokens ++ rest) = run (.after value frames) rest

theorem run_wantItem (item : Json) (frames : List Frame) (rest : List Token) :
    run (.wantItem frames) (tokens item ++ rest) =
      run (.wantValue (.array [] :: frames)) (tokens item ++ rest) := by
  cases item with
  | bool value => rfl
  | array items =>
      cases items with
      | nil => rfl
      | cons item items => rfl
  | object members =>
      rcases members with _ | ⟨⟨key, value⟩, members⟩
      · rfl
      · rfl
  | _ => rfl

theorem run_items {items : List Json}
    (each : ∀ item ∈ items, Builds (tokens item) (reread item)) (before : List Json) (value : Json)
    (frames : List Frame) (rest : List Token) :
    run (.after value (.array before :: frames)) (itemTokens items ++ .closeArray :: rest) =
      run (.after (.array (before.reverse ++ value :: rereadItems items)) frames) rest := by
  induction items generalizing before value with
  | nil =>
      simp only [itemTokens, List.nil_append, run_cons, step, Option.bind_some, List.reverse_cons,
        rereadItems]
  | cons item items induction =>
      have here := each item List.mem_cons_self
      have later := induction fun other member => each other (List.mem_cons_of_mem item member)
      simp only [itemTokens, List.cons_append, List.append_assoc, run_cons, step, Option.bind_some]
      rw [here, later]
      simp only [List.reverse_cons, List.append_assoc, List.cons_append, List.nil_append, rereadItems]

def keyed (members : List (String × Json)) : List (Option String × Json) :=
  members.map fun (key, value) => (some key, value)

theorem ofMembers_keyed (members : List (String × Json)) :
    ofMembers (keyed members) = .object members := by
  have read : (keyed members).mapM (fun member => member.1.map (·, member.2)) = some members := by
    induction members with
    | nil => rfl
    | cons member members induction =>
        rw [keyed] at induction ⊢
        rw [List.map_cons, List.mapM_cons, induction]
        rfl
  rw [ofMembers]
  split
  · next others found => rw [Option.some_inj.mp (found.symm.trans read)]
  · next unreadable => cases unreadable.symm.trans read

theorem run_members {members : List (String × Json)}
    (each : ∀ member ∈ members, Builds (tokens member.2) (reread member.2))
    (before : List (String × Json)) (key : String) (value : Json) (frames : List Frame)
    (rest : List Token) :
    run (.after value (.object (keyed before).reverse (some key) :: frames))
        (memberTokens members ++ .closeObject :: rest) =
      run (.after (.object (before ++ (key, value) :: rereadMembers members)) frames) rest := by
  induction members generalizing before key value with
  | nil =>
      have complete : ((some key, value) :: (keyed before).reverse).reverse =
          keyed (before ++ [(key, value)]) := by
        simp [keyed]
      simp only [memberTokens, List.nil_append, run_cons, step, Option.bind_some, complete,
        ofMembers_keyed, rereadMembers]
  | cons member members induction =>
      rcases member with ⟨next, held⟩
      have here : Builds (tokens held) (reread held) := each (next, held) List.mem_cons_self
      have later := induction (fun other inside => each other (List.mem_cons_of_mem _ inside))
        (before ++ [(key, value)]) next (reread held)
      have grown : (some key, value) :: (keyed before).reverse =
          (keyed (before ++ [(key, value)])).reverse := by
        simp [keyed]
      simp only [memberTokens, List.cons_append, List.append_assoc, run_cons, step, key?,
        Option.map_some, Option.bind_some]
      rw [here, grown, later]
      simp only [List.append_assoc, List.cons_append, List.nil_append, rereadMembers]

theorem builds_tokens (value : Json) : Builds (tokens value) (reread value) := by
  induction value using induction_on_parts with
  | array items each =>
      intro frames rest
      cases items with
      | nil => rfl
      | cons item items =>
          have later := run_items fun other member => each other (List.mem_cons_of_mem item member)
          simp only [tokens, List.cons_append, List.append_assoc, run_cons, step, start,
            Option.bind_some, List.nil_append]
          rw [run_wantItem, each item List.mem_cons_self, later]
          rfl
  | object members each =>
      intro frames rest
      rcases members with _ | ⟨⟨key, value⟩, members⟩
      · rfl
      · have here : Builds (tokens value) (reread value) := each (key, value) List.mem_cons_self
        have later := run_members fun other inside => each other (List.mem_cons_of_mem _ inside)
        simp only [tokens, List.cons_append, List.append_assoc, run_cons, step, start, key?,
          Option.map_some, Option.bind_some, List.nil_append]
        rw [here]
        exact later [] key (reread value) frames rest
  | null => exact fun frames rest => rfl
  | bool value => exact fun frames rest => rfl
  | number value => exact fun frames rest => rfl
  | string text => exact fun frames rest => rfl
  | bytes bytes bare => exact fun frames rest => rfl
  | unreadable bare => exact fun frames rest => rfl

end Machine

theorem parse?_render (value : Json) : parse? value.render = some value.reread := by
  have built := Machine.builds_tokens value [] []
  rw [List.append_nil] at built
  rw [parse?, render, String.toList_ofList, ofChars?_pretty, Option.bind_some]
  exact built

/-! ## Nesting -/

mutual

def depth : Json → Nat
  | .array items => depthOfItems items + 1
  | .object members => depthOfMembers members + 1
  | _ => 0
termination_by structural json => json

def depthOfItems : List Json → Nat
  | [] => 0
  | item :: items => max (depth item) (depthOfItems items)
termination_by structural items => items

def depthOfMembers : List (String × Json) → Nat
  | [] => 0
  | (_, value) :: members => max (depth value) (depthOfMembers members)
termination_by structural members => members

end

theorem itemsWithin_of_depth_le {items : List Json} {levels : Nat}
    (each : ∀ item ∈ items, depth item ≤ levels → within levels item = item)
    (shallow : depthOfItems items ≤ levels) : itemsWithin levels items = items := by
  induction items with
  | nil => rfl
  | cons item items induction =>
      rw [depthOfItems] at shallow
      have here := each item List.mem_cons_self (by omega)
      have later := induction (fun other member => each other (List.mem_cons_of_mem item member))
        (by omega)
      rw [itemsWithin, here, later]

theorem membersWithin_of_depth_le {members : List (String × Json)} {levels : Nat}
    (each : ∀ member ∈ members, depth member.2 ≤ levels → within levels member.2 = member.2)
    (shallow : depthOfMembers members ≤ levels) : membersWithin levels members = members := by
  induction members with
  | nil => rfl
  | cons member members induction =>
      rcases member with ⟨key, value⟩
      rw [depthOfMembers] at shallow
      have here : within levels value = value :=
        each (key, value) List.mem_cons_self (show depth value ≤ levels by omega)
      have later := induction (fun other inside => each other (List.mem_cons_of_mem _ inside))
        (by omega)
      rw [membersWithin, here, later]

theorem within_of_depth_le {value : Json} {levels : Nat} (shallow : value.depth ≤ levels) :
    within levels value = value := by
  induction value using induction_on_parts generalizing levels with
  | array items each =>
      cases levels with
      | zero => cases shallow
      | succ levels =>
          rw [depth, Nat.add_le_add_iff_right] at shallow
          rw [within, itemsWithin_of_depth_le (fun item member => each item member) shallow]
  | object members each =>
      cases levels with
      | zero => cases shallow
      | succ levels =>
          rw [depth, Nat.add_le_add_iff_right] at shallow
          rw [within, membersWithin_of_depth_le (fun item member => each item member) shallow]
  | _ => rfl

theorem depth_reread (value : Json) : value.reread.depth = value.depth := by
  induction value using induction_on_parts with
  | array items each =>
      have same : depthOfItems (rereadItems items) = depthOfItems items := by
        induction items with
        | nil => rfl
        | cons item items induction =>
            have later := induction fun other member => each other (List.mem_cons_of_mem item member)
            rw [rereadItems, depthOfItems, depthOfItems, each item List.mem_cons_self, later]
      rw [reread, depth, depth, same]
  | object members each =>
      have same : depthOfMembers (rereadMembers members) = depthOfMembers members := by
        induction members with
        | nil => rfl
        | cons member members induction =>
            rcases member with ⟨key, value⟩
            have here : value.reread.depth = value.depth := each (key, value) List.mem_cons_self
            have later := induction fun other inside => each other (List.mem_cons_of_mem _ inside)
            rw [rereadMembers, depthOfMembers, depthOfMembers, here, later]
      rw [reread, depth, depth, same]
  | number value =>
      rw [reread, ofNumber, ofNumeral]
      split
      · rfl
      · rfl
  | _ => rfl

/-- The text of every value that does not nest too deeply is read, and what is read is the value with
its numbers as they are read. -/
theorem read?_render {value : Json} (shallow : value.depth ≤ nestingLimit) :
    read? value.render = some value.reread := by
  rw [read?, parse?_render, Option.map_some, within_of_depth_le (value.depth_reread.symm ▸ shallow)]

end DocStore.Json

import Std.Data.ExtTreeMap
import DocStore.Fields
import DocStore.Json.Basic

/-!
Records and maps in JSON. A record has a fixed set of fields; a map has any keys.
-/

namespace DocStore.Json

abbrev Record := String → Option Json

inductive OtherMembers where
  | ignored
  | refused
deriving DecidableEq, Repr

def OtherMembers.allow : OtherMembers → Json → Bool
  | .ignored, value => value.isSkippable
  | .refused, _ => false

/-- Reads a record with the given fields. It is an object in which none of them is repeated, or an
array of the first of them in order. -/
def record? (names : List String) (others : OtherMembers) : Json → Option Record
  | .object members =>
      let keys := Fields.keys members
      let repeated := names.any fun name => 1 < keys.count name
      let allowed := members.all fun (key, value) => names.contains key || others.allow value
      if repeated || !allowed then none else some (Fields.get? members)
  | .array items =>
      if names.length < items.length then none else some (Fields.get? (names.zip items))
  | _ => none

def Record.textOrNull? (record : Record) (field : String) : Option (Option String) :=
  match record field with
  | none | some .null => some none
  | some (.string text) => some (some text)
  | some _ => none

/-- Reads a map, which may be missing. A key that is repeated has its last value, but all values
are read. -/
def map? {α : Type} (read? : Json → Option α) : Option Json → Option (Std.ExtTreeMap String α)
  | none => some ∅
  | some (.object members) =>
      members.foldlM (fun entries (key, value) => do return entries.insert key (← read? value))
        (∅ : Std.ExtTreeMap String α)
  | some _ => none

end DocStore.Json

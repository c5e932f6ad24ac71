import DocStore.Proofs.Fields
import DocStore.Proofs.Outcome
import DocStore.Store.Joins

/-!
What includes require of a row.
-/

namespace DocStore

namespace Include

def optional (spec : Include) : Include :=
  { spec with required := false }

end Include

namespace Includes

/-- The includes with none of them required. What they include in turn is as it was. -/
def optional (includes : Includes) : Includes :=
  includes.map fun (included, spec) => (included, spec.optional)

/-- Whether a row with its related rows has those that are required. -/
def satisfied (includes : Includes) (row : Document) : Bool :=
  includes.all fun (included, spec) => !spec.required || row.hasRelated included

theorem hasRequired_optional (includes : Includes) : includes.optional.hasRequired = false := by
  simp [optional, hasRequired, Include.optional]

theorem satisfied_cons (included : String) (spec : Include) (includes : List (String × Include))
    (row : Document) :
    satisfied ((included, spec) :: includes) row =
      ((!spec.required || row.hasRelated included) && satisfied includes row) := rfl

end Includes

end DocStore

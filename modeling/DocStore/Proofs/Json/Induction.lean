import DocStore.Json.Basic

/-!
Induction on JSON values through their parts: the items of arrays and the members of objects.
-/

namespace DocStore.Json

theorem induction_on_parts {holds : Json → Prop} (null : holds .null)
    (bool : ∀ value, holds (.bool value)) (number : ∀ value, holds (.number value))
    (string : ∀ text, holds (.string text)) (bytes : ∀ bytes bare, holds (.bytes bytes bare))
    (array : ∀ items, (∀ item ∈ items, holds item) → holds (.array items))
    (object : ∀ members, (∀ member ∈ members, holds member.2) → holds (.object members))
    (unreadable : ∀ bare, holds (.unreadable bare)) (value : Json) : holds value := by
  refine @Json.rec holds (fun items => ∀ item ∈ items, holds item)
    (fun members => ∀ member ∈ members, holds member.2) (fun member => holds member.2)
    null bool number string bytes array object unreadable ?noItem ?item ?noMember ?member
    (fun _ _ => id) value
  case noItem =>
      intro item member
      cases member
  case item =>
      intro first items firstHolds rest item member
      rcases List.mem_cons.mp member with rfl | later
      · exact firstHolds
      · exact rest item later
  case noMember =>
      intro member inside
      cases inside
  case member =>
      intro first members firstHolds rest member inside
      rcases List.mem_cons.mp inside with rfl | later
      · exact firstHolds
      · exact rest member later

end DocStore.Json

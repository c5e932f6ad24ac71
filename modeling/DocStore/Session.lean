import DocStore.Error

/-!
Sessions: work that changes state and may fail.
-/

namespace DocStore

/-- Work on something that keeps state beside a medium. A fault keeps the state that was
reached. -/
abbrev Session (β σ : Type) := ExceptT StoreError (StateM (β × σ))

end DocStore

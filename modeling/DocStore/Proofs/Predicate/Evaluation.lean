import DocStore.Predicate.Patterns
import DocStore.Proofs.Outcome

/-!
Which documents a predicate accepts, by its conditions and its alternatives, and when it can be
evaluated at all.
-/

namespace DocStore.Predicate

theorem induction_on_parts {holds : Predicate → Prop}
    (plain : ∀ conditions, holds { conditions })
    (alternatives : ∀ conditions alternatives, (∀ alternative ∈ alternatives, holds alternative) →
      holds ⟨conditions, some alternatives⟩) (predicate : Predicate) : holds predicate := by
  refine @Predicate.rec holds
    (fun given => ∀ alternatives, given = some alternatives →
      ∀ alternative ∈ alternatives, holds alternative)
    (fun predicates => ∀ predicate ∈ predicates, holds predicate)
    ?predicate ?noAlternatives ?alternatives ?noPredicate ?predicates predicate
  case predicate =>
      rintro conditions (_ | given) each
      · exact plain conditions
      · exact alternatives conditions given (each given rfl)
  case noAlternatives => exact nofun
  case alternatives =>
      rintro given each _ ⟨⟩
      exact each
  case noPredicate => exact nofun
  case predicates =>
      intro first predicates here each predicate member
      rcases List.mem_cons.mp member with rfl | later
      · exact here
      · exact each predicate later

theorem allHold_iff {conditions : List (String × Condition)} {document : Document} :
    allHold conditions document = true ↔
      ∀ condition ∈ conditions, condition.2.holds (document.get? condition.1) = true :=
  List.all_eq_true

theorem accepts_iff {predicate : Predicate} {document : Document} :
    predicate.accepts document = true ↔
      allHold predicate.conditions document = true ∧
        ∀ alternatives, predicate.alternatives = some alternatives →
          anyAccepts alternatives document = true := by
  rcases predicate with ⟨conditions, _ | alternatives⟩
  · simp [accepts]
  · simp [accepts]

/-! ## Patterns -/

theorem checkPattern_eq_ok_iff {pattern : String} :
    checkPattern pattern = .ok () ↔ Like.isCompilable pattern = true := by
  rw [checkPattern]
  split
  · next compilable => simp [compilable]
  · next large => simp [large]

theorem checkPatterns_eq_ok_iff {predicate : Predicate} :
    predicate.checkPatterns = .ok () ↔
      ∀ pattern ∈ predicate.patterns, Like.isCompilable pattern = true := by
  simp only [checkPatterns, Outcome.forM_eq_ok_iff, checkPattern_eq_ok_iff]

theorem evaluate_eq_ok_iff {predicate : Predicate} {document : Document} {met : Bool} :
    predicate.evaluate document = .ok met ↔
      (∀ pattern ∈ predicate.patterns, Like.isCompilable pattern = true) ∧
        predicate.accepts document = met := by
  rw [evaluate, Outcome.bind_eq_ok_iff, ← checkPatterns_eq_ok_iff]
  constructor
  · rintro ⟨⟨⟩, checked, met⟩
    exact ⟨checked, Outcome.pure_eq_ok_iff.mp met⟩
  · rintro ⟨checked, met⟩
    exact ⟨(), checked, Outcome.pure_eq_ok_iff.mpr met⟩

end DocStore.Predicate

import DocStore.Json.Printer
import DocStore.Json.Token
import DocStore.Proofs.Text.Bytes

/-!
Strings of JSON: what is escaped is read as it was, and no quote ends a string before its end.
-/

namespace DocStore.Json

theorem escape_cases (c : Char) :
    (∃ mark, escape c = ['\\', mark] ∧ mark ≠ 'u' ∧ isControl mark = false ∧
        simpleEscape? mark = some c) ∨
      (c.toNat < 0x20 ∧ escape c = '\\' :: 'u' :: '0' :: '0' :: Hex.encodeByte (UInt8.ofNat c.toNat)) ∨
      (¬ c.toNat < 0x20 ∧ c ≠ '"' ∧ c ≠ '\\' ∧ escape c = [c]) := by
  unfold escape
  split
  · exact .inl ⟨'"', by decide⟩
  · exact .inl ⟨'\\', by decide⟩
  · exact .inl ⟨'b', by decide⟩
  · exact .inl ⟨'t', by decide⟩
  · exact .inl ⟨'n', by decide⟩
  · exact .inl ⟨'f', by decide⟩
  · exact .inl ⟨'r', by decide⟩
  · next noQuote noBackslash _ _ _ _ _ =>
    split
    · next control => exact .inr (.inl ⟨control, rfl⟩)
    · next plain => exact .inr (.inr ⟨plain, noQuote, noBackslash, rfl⟩)

theorem ofUnit_control {value : Nat} (control : value < 0x20) :
    StringPart.ofUnit value = .char (Char.ofNat value) := by
  have noHigh : isHighSurrogate value = false := by
    rw [isHighSurrogate, decide_eq_false_iff_not]
    omega
  have noLow : isLowSurrogate value = false := by
    rw [isLowSurrogate, decide_eq_false_iff_not]
    omega
  simp [StringPart.ofUnit, noHigh, noLow]

theorem joinUnits_control {value : Nat} (control : value < 0x20) (parts : List StringPart) :
    joinUnits (.unit value :: parts) = .char (Char.ofNat value) :: joinUnits parts := by
  have noHigh : isHighSurrogate value = false := by
    rw [isHighSurrogate, decide_eq_false_iff_not]
    omega
  rcases parts with _ | ⟨_ | low, parts⟩
  · simp [joinUnits, ofUnit_control control]
  · simp [joinUnits, ofUnit_control control]
  · simp [joinUnits, ofUnit_control control, noHigh]

theorem codeUnit?_control {value : Nat} (control : value < 0x20) :
    codeUnit? '0' '0' (Hex.digit (value / 16)) (Hex.digit (value % 16)) = some value := by
  have zero : Hex.digitValue? '0' = some 0 := by decide
  have whole : value / 16 * 16 + value % 16 = value := by omega
  simp [codeUnit?, zero, Hex.digitValue?_digit (show value / 16 < 16 by omega),
    Hex.digitValue?_digit (show value % 16 < 16 by omega), whole]

theorem stringParts?_mark {mark c : Char} (noUnit : mark ≠ 'u')
    (simple : simpleEscape? mark = some c) (rest : List Char) :
    stringParts? ('\\' :: mark :: rest) = (stringParts? rest).map (.char c :: ·) := by
  rw [stringParts?]
  · rw [simple]
    rcases stringParts? rest with _ | parts
    · rfl
    · rfl
  · intro _ _ _ _ _ same
    exact absurd same noUnit

theorem stringParts?_plain {c : Char} (noBackslash : c ≠ '\\') (rest : List Char) :
    stringParts? (c :: rest) = (stringParts? rest).map (.char c :: ·) := by
  rw [stringParts?]
  · exact if_neg noBackslash
  · exact fun _ _ _ _ _ same => absurd same noBackslash
  · exact fun _ _ same => absurd same noBackslash

theorem exists_stringParts?_escape (text : List Char) :
    ∃ parts, stringParts? (text.flatMap escape) = some parts ∧
      joinUnits parts = text.map .char := by
  induction text with
  | nil => exact ⟨[], rfl, rfl⟩
  | cons c text induction =>
      rcases induction with ⟨parts, read, joined⟩
      rw [List.flatMap_cons, List.map_cons]
      rcases escape_cases c with ⟨mark, escaped, noUnit, _, simple⟩ | ⟨control, escaped⟩ |
        ⟨_, _, noBackslash, escaped⟩
      · refine ⟨.char c :: parts, ?_, by rw [joinUnits, joined]⟩
        rw [escaped, List.cons_append, List.cons_append, List.nil_append,
          stringParts?_mark noUnit simple, read]
        rfl
      · refine ⟨.unit c.toNat :: parts, ?_, ?_⟩
        · have byte : (UInt8.ofNat c.toNat).toNat = c.toNat := by
            rw [UInt8.toNat_ofNat']
            omega
          rw [escaped, Hex.encodeByte, byte]
          simp only [List.cons_append, List.nil_append, stringParts?, codeUnit?_control control, read,
            bind, Option.bind, pure]
        · rw [joinUnits_control control, joined, Char.ofNat_toNat]
      · refine ⟨.char c :: parts, ?_, by rw [joinUnits, joined]⟩
        rw [escaped, List.cons_append, List.nil_append, stringParts?_plain noBackslash, read]
        rfl

theorem any_isControl_escape (text : List Char) : (text.flatMap escape).any isControl = false := by
  have digits : ∀ value : Fin 16, isControl (Hex.digit value) = false := by decide
  rw [List.any_flatMap, List.any_eq_false]
  intro c _
  rcases escape_cases c with ⟨mark, escaped, _, noControl, _⟩ | ⟨control, escaped⟩ |
    ⟨noControl, _, _, escaped⟩
  · simp only [escaped, List.any_cons, List.any_nil, noControl]
    decide
  · have byte : (UInt8.ofNat c.toNat).toNat = c.toNat := by
      rw [UInt8.toNat_ofNat']
      omega
    have high := digits ⟨c.toNat / 16, by omega⟩
    have low := digits ⟨c.toNat % 16, by omega⟩
    rw [escaped, Hex.encodeByte, byte]
    simp only [List.any_cons, List.any_nil, high, low]
    decide
  · simp [escaped, isControl, noControl]

theorem mapM_char? (text : List Char) :
    (text.map StringPart.char).mapM StringPart.char? = some text := by
  induction text with
  | nil => rfl
  | cons c text induction =>
      rw [List.map_cons, List.mapM_cons, induction]
      rfl

theorem string?_escape (text : String) :
    string? (text.toList.flatMap escape) = some (.string text) := by
  rcases exists_stringParts?_escape text.toList with ⟨parts, read, joined⟩
  rw [string?, read]
  simp only [bind, Option.bind, joined, any_isControl_escape, mapM_char?, pure,
    String.ofList_toList]

end DocStore.Json

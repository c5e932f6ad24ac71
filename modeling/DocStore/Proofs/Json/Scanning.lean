import DocStore.Proofs.Json.Induction
import DocStore.Proofs.Json.Strings
import DocStore.Proofs.Number.Written

/-!
Scanning the text of a value. A lexeme is only complete once the next character is seen, so that what
is scanned depends on what follows; but what follows a value is a comma, a new line or nothing.
-/

namespace DocStore.Json

/-! ## Tokens of a value -/

def ofNumber (number : JsonNumber) : Json :=
  ofNumeral number.numeral

mutual

def tokens : Json → List Token
  | .null => [.literal .null]
  | .bool value => [.literal (.bool value)]
  | .number value => [.literal (ofNumber value)]
  | .string text => [.string (.string text)]
  | .array [] => [.openArray, .closeArray]
  | .array (item :: items) => .openArray :: tokens item ++ itemTokens items ++ [.closeArray]
  | .object [] => [.openObject, .closeObject]
  | .object ((key, value) :: members) =>
      .openObject :: .string (.string key) :: .colon :: tokens value ++ memberTokens members ++
        [.closeObject]
  | .bytes _ _ | .unreadable _ => [.literal .null]
termination_by structural json => json

def itemTokens : List Json → List Token
  | [] => []
  | item :: items => .comma :: tokens item ++ itemTokens items
termination_by structural items => items

def memberTokens : List (String × Json) → List Token
  | [] => []
  | (key, value) :: members =>
      .comma :: .string (.string key) :: .colon :: tokens value ++ memberTokens members
termination_by structural members => members

end

/-! ## Runs of the scanner -/

namespace Scan

def run (progress : Progress) (text : List Char) : Option (List Token) :=
  (text.foldlM step progress).bind finish

theorem run_cons (progress : Progress) (c : Char) (text : List Char) :
    run progress (c :: text) = (step progress c).bind (run · text) := by
  rw [run, List.foldlM_cons]
  cases step progress c with
  | none => rfl
  | some reached => rfl

/-- No number or word goes on in a text. -/
def Delimits (text : List Char) : Prop :=
  ∀ c ∈ text.head?, isNumberChar c = false ∧ isWordChar c = false

variable {before : List Token} {text rest : List Char}

theorem run_newline (level : Nat) :
    run (before, .between) (newline level ++ rest) = run (before, .between) rest := by
  have blanks (count : Nat) : run (before, .between) (List.replicate count ' ' ++ rest) =
      run (before, .between) rest := by
    induction count with
    | zero => rfl
    | succ count induction => exact induction
  exact blanks (2 * level)

/-! ## Strings -/

theorem run_inString {c : Char} (noQuote : c ≠ '"') (noBackslash : c ≠ '\\') (read : List Char) :
    run (before, .inString read) (c :: rest) = run (before, .inString (c :: read)) rest := by
  rw [run_cons, step, if_neg noQuote, if_neg noBackslash]
  rfl

theorem run_escape (read : List Char) :
    run (before, .inString read) (text.flatMap escape ++ rest) =
      run (before, .inString ((text.flatMap escape).reverse ++ read)) rest := by
  have digit : ∀ value : Fin 16, Hex.digit value ≠ '"' ∧ Hex.digit value ≠ '\\' := by decide
  induction text generalizing read with
  | nil => rfl
  | cons c text induction =>
      rw [List.flatMap_cons, List.append_assoc, List.reverse_append, List.append_assoc, ← induction]
      rcases escape_cases c with ⟨mark, escaped, _, _, _⟩ | ⟨control, escaped⟩ |
        ⟨_, noQuote, noBackslash, escaped⟩
      · rw [escaped]
        rfl
      · have byte : (UInt8.ofNat c.toNat).toNat = c.toNat := by
          rw [UInt8.toNat_ofNat']
          omega
        have high := digit ⟨c.toNat / 16, by omega⟩
        have low := digit ⟨c.toNat % 16, by omega⟩
        rw [escaped, Hex.encodeByte, byte]
        exact (run_inString high.1 high.2 _).trans (run_inString low.1 low.2 _)
      · rw [escaped]
        exact run_inString noQuote noBackslash read

theorem run_quoted (text : String) :
    run (before, .between) (quoted text ++ rest) =
      run (.string (.string text) :: before, .between) rest := by
  have opened : run (before, .between) (quoted text ++ rest) =
      run (before, .inString []) (text.toList.flatMap escape ++ '"' :: rest) := by
    rw [quoted, List.cons_append, List.cons_append, List.append_assoc]
    rfl
  rw [opened, run_escape, List.append_nil, run_cons, step, if_pos rfl, stringToken?,
    List.reverse_reverse, string?_escape]
  rfl

/-! ## Numbers and words -/

theorem run_inNumber {digits : List Char} (number : ∀ c ∈ digits, isNumberChar c = true)
    (read : List Char) :
    run (before, .inNumber read) (digits ++ rest) =
      run (before, .inNumber (digits.reverse ++ read)) rest := by
  induction digits generalizing read with
  | nil => rfl
  | cons c digits induction =>
      have later := induction (fun other member => number other (List.mem_cons_of_mem c member))
        (c :: read)
      rw [List.cons_append, run_cons, step, if_pos (number c List.mem_cons_self),
        List.reverse_cons, List.append_assoc]
      exact later

theorem run_number_end {read : List Char} {token : Token} (complete : numberToken? read = some token)
    (delimits : Delimits rest) :
    run (before, .inNumber read) rest = run (token :: before, .between) rest := by
  cases rest with
  | nil =>
      simp only [run, List.foldlM_nil, pure, Option.bind_some, finish, complete]
      rfl
  | cons c rest =>
      have ends : isNumberChar c = false := (delimits c rfl).1
      have next : step (before, .inNumber read) c = step (token :: before, .between) c := by
        simp only [step, ends, complete, Bool.false_eq_true, if_false, bind, Option.bind_some]
      rw [run_cons, run_cons, next]

theorem run_word_end {read : List Char} {token : Token} (complete : wordToken? read = some token)
    (delimits : Delimits rest) :
    run (before, .inWord read) rest = run (token :: before, .between) rest := by
  cases rest with
  | nil =>
      simp only [run, List.foldlM_nil, pure, Option.bind_some, finish, complete]
      rfl
  | cons c rest =>
      have ends : isWordChar c = false := (delimits c rfl).2
      have next : step (before, .inWord read) c = step (token :: before, .between) c := by
        simp only [step, ends, complete, Bool.false_eq_true, if_false, bind, Option.bind_some]
      rw [run_cons, run_cons, next]

theorem isNumberChar_of_isDigit {c : Char} (digit : c.isDigit = true) : isNumberChar c = true := by
  rw [isNumberChar, decide_eq_true_iff]
  exact .inl digit

theorem isNumberChar_of_mem_chars {numeral : Numeral} (written : numeral.IsWritten) :
    ∀ c ∈ numeral.chars, isNumberChar c = true := by
  intro c member
  rw [Numeral.chars_eq] at member
  rcases List.mem_append.mp member with sign | unsigned
  · split at sign
    · rw [List.mem_singleton.mp sign]
      decide
    · cases sign
  rcases List.mem_append.mp unsigned with whole | member
  · exact isNumberChar_of_isDigit (written.whole c whole)
  rcases List.mem_append.mp member with fraction | exponent
  · rw [Numeral.fractionChars] at fraction
    split at fraction
    · cases fraction
    · rcases List.mem_cons.mp fraction with rfl | digit
      · decide
      · exact isNumberChar_of_isDigit (written.fraction c digit)
  · cases power : numeral.exponent with
    | none =>
        rw [power] at exponent
        cases exponent
    | some power' =>
        rcases power' with ⟨negative, digits⟩
        rw [power, Numeral.exponentChars] at exponent
        rcases List.mem_cons.mp exponent with rfl | exponent
        · decide
        rcases List.mem_cons.mp exponent with rfl | digit
        · cases negative with
          | true => decide
          | false => decide
        · exact isNumberChar_of_isDigit ((written.exponent negative digits power).2 c digit)

theorem exists_chars_eq_cons {numeral : Numeral} (written : numeral.IsWritten) :
    ∃ c rest, numeral.chars = c :: rest ∧ (c.isDigit = true ∨ c = '-') := by
  rw [Numeral.chars_eq]
  cases numeral.negative with
  | true => exact ⟨'-', _, rfl, .inr rfl⟩
  | false =>
      cases digits : numeral.whole with
      | nil => exact absurd digits written.whole_ne_nil
      | cons c rest =>
          have digit := written.whole c (by rw [digits]; exact List.mem_cons_self)
          exact ⟨c, _, rfl, .inl digit⟩

theorem start_number {c : Char} (starts : c.isDigit = true ∨ c = '-') :
    start before c = some (before, .inNumber [c]) := by
  have noBlank : isBlank c = false := by
    rw [isBlank, decide_eq_false_iff_not]
    rintro (rfl | rfl | rfl | rfl)
    all_goals exact absurd starts (by decide)
  have noQuote : c ≠ '"' := by
    rintro rfl
    exact absurd starts (by decide)
  rw [start, noBlank, if_neg Bool.false_ne_true, if_neg noQuote, if_pos starts]

theorem run_number {numeral : Numeral} (written : numeral.IsWritten) (delimits : Delimits rest) :
    run (before, .between) (numeral.chars ++ rest) =
      run (.literal (ofNumeral numeral) :: before, .between) rest := by
  rcases exists_chars_eq_cons written with ⟨c, digits, chars, starts⟩
  have number := isNumberChar_of_mem_chars written
  have complete : numberToken? (digits.reverse ++ [c]) = some (.literal (ofNumeral numeral)) := by
    rw [numberToken?, ← List.reverse_cons, ← chars, List.reverse_reverse,
      Numeral.numeral?_chars written]
    rfl
  rw [chars] at number ⊢
  rw [List.cons_append, run_cons, step, start_number starts, Option.bind_some,
    run_inNumber fun other member => number other (List.mem_cons_of_mem c member)]
  exact run_number_end complete delimits

theorem run_null (delimits : Delimits rest) :
    run (before, .between) ("null".toList ++ rest) = run (.literal .null :: before, .between) rest :=
  run_word_end rfl delimits

/-! ## Values -/

/-- The text of a value comes to the tokens of the value, wherever it stands. -/
def Scans (text : List Char) (tokens : List Token) : Prop :=
  ∀ before rest, Delimits rest →
    run (before, .between) (text ++ rest) = run (tokens.reverse ++ before, .between) rest

theorem delimits_newline (level : Nat) (rest : List Char) : Delimits (newline level ++ rest) := by
  intro c first
  cases first
  decide

theorem delimits_prettyItems (level : Nat) (items : List Json) (delimits : Delimits rest) :
    Delimits (prettyItems level items ++ rest) := by
  cases items with
  | nil => exact delimits
  | cons item items =>
      intro c first
      cases first
      decide

theorem delimits_prettyMembers (level : Nat) (members : List (String × Json))
    (delimits : Delimits rest) : Delimits (prettyMembers level members ++ rest) := by
  rcases members with _ | ⟨⟨key, value⟩, members⟩
  · exact delimits
  · intro c first
    cases first
    decide

theorem scans_items {items : List Json} {level : Nat}
    (each : ∀ item ∈ items, Scans (pretty level item) (tokens item)) :
    Scans (prettyItems level items) (itemTokens items) := by
  induction items with
  | nil =>
      intro before rest _
      rfl
  | cons item items induction =>
      intro before rest delimits
      have comma (text : List Char) : run (before, .between) (',' :: text) =
          run (.comma :: before, .between) text := rfl
      have here := each item List.mem_cons_self
      have later := induction fun other member => each other (List.mem_cons_of_mem item member)
      simp only [prettyItems, List.cons_append, List.append_assoc, comma, run_newline]
      rw [here _ _ (delimits_prettyItems level items delimits), later _ _ delimits]
      simp only [itemTokens, List.cons_append, List.reverse_cons, List.reverse_append,
        List.append_assoc, List.nil_append]

theorem run_member {key : String} {value : Json} {level : Nat}
    (scans : Scans (pretty level value) (tokens value)) (delimits : Delimits rest) :
    run (before, .between) (newline level ++ (quoted key ++ (':' :: ' ' :: (pretty level value ++ rest)))) =
      run ((Token.string (.string key) :: .colon :: tokens value).reverse ++ before, .between) rest := by
  have colon (before : List Token) (text : List Char) :
      run (before, .between) (':' :: ' ' :: text) = run (.colon :: before, .between) text := rfl
  rw [run_newline, run_quoted, colon, scans _ _ delimits]
  simp only [List.reverse_cons, List.append_assoc, List.cons_append, List.nil_append]

theorem scans_members {members : List (String × Json)} {level : Nat}
    (each : ∀ member ∈ members, Scans (pretty level member.2) (tokens member.2)) :
    Scans (prettyMembers level members) (memberTokens members) := by
  induction members with
  | nil =>
      intro before rest _
      rfl
  | cons member members induction =>
      rcases member with ⟨key, value⟩
      intro before rest delimits
      have comma (text : List Char) : run (before, .between) (',' :: text) =
          run (.comma :: before, .between) text := rfl
      have here : Scans (pretty level value) (tokens value) := each (key, value) List.mem_cons_self
      have later := induction fun other inside => each other (List.mem_cons_of_mem _ inside)
      simp only [prettyMembers, List.cons_append, List.append_assoc, comma]
      rw [run_member here (delimits_prettyMembers level members delimits), later _ _ delimits]
      simp only [memberTokens, List.cons_append, List.reverse_cons, List.reverse_append,
        List.append_assoc, List.nil_append]

theorem scans_array {items : List Json} {level : Nat}
    (each : ∀ item ∈ items, Scans (pretty (level + 1) item) (tokens item)) :
    Scans (pretty level (.array items)) (tokens (.array items)) := by
  intro before rest _
  cases items with
  | nil => rfl
  | cons item items =>
      have opened (text : List Char) : run (before, .between) ('[' :: text) =
          run (.openArray :: before, .between) text := rfl
      have closed (before : List Token) : run (before, .between) (']' :: rest) =
          run (.closeArray :: before, .between) rest := rfl
      have here := each item List.mem_cons_self
      have later := scans_items fun other member => each other (List.mem_cons_of_mem item member)
      have line := delimits_newline level (']' :: rest)
      simp only [pretty, List.cons_append, List.append_assoc, List.nil_append, opened, run_newline]
      rw [here _ _ (delimits_prettyItems _ items line), later _ _ line, run_newline]
      simp only [tokens, List.cons_append, List.reverse_cons, List.reverse_append,
        List.append_assoc, List.nil_append, List.reverse_nil, closed]

theorem scans_object {members : List (String × Json)} {level : Nat}
    (each : ∀ member ∈ members, Scans (pretty (level + 1) member.2) (tokens member.2)) :
    Scans (pretty level (.object members)) (tokens (.object members)) := by
  intro before rest _
  rcases members with _ | ⟨⟨key, value⟩, members⟩
  · rfl
  · have opened (text : List Char) : run (before, .between) ('\x7b' :: text) =
        run (.openObject :: before, .between) text := rfl
    have closed (before : List Token) : run (before, .between) ('\x7d' :: rest) =
        run (.closeObject :: before, .between) rest := rfl
    have here : Scans (pretty (level + 1) value) (tokens value) := each (key, value) List.mem_cons_self
    have later := scans_members fun other member => each other (List.mem_cons_of_mem _ member)
    have line := delimits_newline level ('\x7d' :: rest)
    simp only [pretty, List.cons_append, List.append_assoc, List.nil_append, opened]
    rw [run_member here (delimits_prettyMembers _ members line), later _ _ line, run_newline]
    simp only [tokens, List.cons_append, List.reverse_cons, List.reverse_append,
      List.append_assoc, List.nil_append, List.reverse_nil, closed]

theorem scans_pretty (value : Json) (level : Nat) : Scans (pretty level value) (tokens value) := by
  induction value using induction_on_parts generalizing level with
  | array items each => exact scans_array fun item member => each item member (level + 1)
  | object members each => exact scans_object fun member inside => each member inside (level + 1)
  | null => exact fun before rest delimits => run_null delimits
  | bool value =>
      intro before rest delimits
      cases value with
      | true => exact run_word_end rfl delimits
      | false => exact run_word_end rfl delimits
  | number value =>
      intro before rest delimits
      rw [pretty, JsonNumber.numberChars_eq]
      exact run_number value.isWritten_numeral delimits
  | string text => exact fun before rest _ => run_quoted text
  | bytes bytes bare => exact fun before rest delimits => run_null delimits
  | unreadable bare => exact fun before rest delimits => run_null delimits

end Scan

theorem ofChars?_pretty (value : Json) : Token.ofChars? (pretty 0 value) = some (tokens value) := by
  have scanned := Scan.scans_pretty value 0 [] [] (fun c none => nomatch none)
  rw [List.append_nil, List.append_nil] at scanned
  refine scanned.trans ?_
  rw [Scan.run, List.foldlM_nil]
  exact congrArg some (List.reverse_reverse _)

end DocStore.Json

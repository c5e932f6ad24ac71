import Mathlib.Computability.Language
import DocStore.Text.Like

/-!
What patterns match. Taking the first occurrence of each piece is as good as any other choice, since it
leaves the most text for the pieces that follow.

The main statement is that a pattern matches exactly the texts that hold its pieces one after another,
wherever they lie.
-/

namespace DocStore.Like

/-! ## Pieces -/

theorem pieces_eq_splitOn (pattern : List Char) : pieces pattern = pattern.splitOn '%' := by
  induction pattern with
  | nil => rfl
  | cons char rest induction =>
      rw [pieces, List.splitOn_cons_eq_if_modifyHead, induction]
      cases char == '%' with
      | true => rfl
      | false =>
          cases split : rest.splitOn '%' with
          | nil => exact absurd split (List.splitOn_ne_nil '%' rest)
          | cons piece more => rfl

/-! ## First occurrences -/

variable {piece rest text : List Char} {more : List (List Char)}

theorem exists_of_after? (found : after? piece text = some rest) :
    ∃ gap, text = gap ++ piece ++ rest := by
  induction text with
  | nil =>
      rw [after?] at found
      split at found
      · next empty =>
        cases found
        exact ⟨[], by rw [List.isEmpty_iff.mp empty]; rfl⟩
      · cases found
  | cons char text induction =>
      rw [after?] at found
      split at found
      · next here =>
        cases found
        have starts := List.prefix_iff_eq_append.mp (List.isPrefixOf_iff_prefix.mp here)
        exact ⟨[], starts.symm⟩
      · rcases induction found with ⟨gap, split⟩
        exact ⟨char :: gap, by rw [split]; rfl⟩

theorem exists_after? (gap piece rest : List Char) :
    ∃ longest, after? piece (gap ++ piece ++ rest) = some longest ∧ rest <:+ longest := by
  induction gap with
  | nil =>
      have starts : piece.isPrefixOf (piece ++ rest) = true :=
        List.isPrefixOf_iff_prefix.mpr (List.prefix_append piece rest)
      refine ⟨rest, ?_, List.suffix_refl rest⟩
      rw [List.nil_append]
      cases whole : piece ++ rest with
      | nil =>
          rw [List.append_eq_nil_iff] at whole
          rw [whole.1, whole.2]
          rfl
      | cons char text => rw [after?, ← whole, if_pos starts, List.drop_left]
  | cons char gap induction =>
      rw [List.cons_append, List.cons_append, after?]
      split
      · next here =>
        -- The piece occurs at once, so that all of the other occurrence but its end is left.
        refine ⟨_, rfl, ?_⟩
        have most : (char :: (gap ++ piece ++ rest)).drop piece.length =
            ((char :: gap) ++ piece).drop piece.length ++ rest := by
          rw [← List.drop_append_of_le_length]
          · rfl
          · simp only [List.length_append, List.length_cons]
            omega
        rw [most]
        exact List.suffix_append _ _
      · exact induction

/-! ## Pieces in order -/

/-- The pieces lie in the text one after another, with any text before, between and after them. -/
def LieInOrder : List (List Char) → List Char → Prop
  | [], _ => True
  | piece :: more, text => ∃ gap rest, text = gap ++ piece ++ rest ∧ LieInOrder more rest

theorem LieInOrder.of_suffix {pieces : List (List Char)} {longer : List Char}
    (inOrder : LieInOrder pieces text) (suffix : text <:+ longer) : LieInOrder pieces longer := by
  cases pieces with
  | nil => trivial
  | cons piece more =>
      rcases inOrder with ⟨gap, rest, rfl, later⟩
      rcases suffix with ⟨before, rfl⟩
      exact ⟨before ++ gap, rest, by simp only [List.append_assoc], later⟩

theorem occurInOrder_iff {pieces : List (List Char)} :
    occurInOrder pieces text = true ↔ LieInOrder pieces text := by
  induction pieces generalizing text with
  | nil => exact iff_true_intro rfl |>.trans (iff_true_intro trivial).symm
  | cons piece more induction =>
      rw [occurInOrder, LieInOrder]
      constructor
      · intro occurs
        split at occurs
        · next rest found =>
          rcases exists_of_after? found with ⟨gap, split⟩
          exact ⟨gap, rest, split, induction.mp occurs⟩
        · cases occurs
      · rintro ⟨gap, rest, rfl, later⟩
        rcases exists_after? gap piece rest with ⟨longest, found, suffix⟩
        rw [found]
        exact induction.mpr (later.of_suffix suffix)

theorem isMatch_iff {pattern text : String} :
    isMatch pattern text = true ↔ LieInOrder (pattern.toList.splitOn '%') text.toList := by
  rw [isMatch, occurInOrder_iff, pieces_eq_splitOn]

theorem lieInOrder_iff_gaps {pieces : List (List Char)} :
    LieInOrder pieces text ↔ ∃ (gaps : List (List Char)) (last : List Char),
      gaps.length = pieces.length ∧ text = (List.zipWith (· ++ ·) gaps pieces).flatten ++ last := by
  induction pieces generalizing text with
  | nil => exact ⟨fun _ => ⟨[], text, rfl, rfl⟩, fun _ => trivial⟩
  | cons piece more induction =>
      constructor
      · rintro ⟨gap, rest, rfl, later⟩
        rcases induction.mp later with ⟨gaps, last, length, rfl⟩
        refine ⟨gap :: gaps, last, congrArg Nat.succ length, ?_⟩
        simp only [List.zipWith_cons_cons, List.flatten_cons, List.append_assoc]
      · rintro ⟨_ | ⟨gap, gaps⟩, last, length, rfl⟩
        · cases length
        · refine ⟨gap, _, ?_, induction.mpr ⟨gaps, last, Nat.succ.inj length, rfl⟩⟩
          simp only [List.zipWith_cons_cons, List.flatten_cons, List.append_assoc]

theorem lieInOrder_append {left right : List (List Char)} :
    LieInOrder (left ++ right) text ↔
      ∃ front back, text = front ++ back ∧ LieInOrder left front ∧ LieInOrder right back := by
  induction left generalizing text with
  | nil =>
      constructor
      · exact fun later => ⟨[], text, rfl, trivial, later⟩
      · rintro ⟨front, back, rfl, -, later⟩
        exact later.of_suffix (List.suffix_append front back)
  | cons piece left induction =>
      constructor
      · rintro ⟨gap, rest, rfl, later⟩
        rcases induction.mp later with ⟨front, back, rfl, before, after⟩
        refine ⟨gap ++ piece ++ front, back, ?_, ⟨gap, front, rfl, before⟩, after⟩
        simp only [List.append_assoc]
      · rintro ⟨_, back, rfl, ⟨gap, front, rfl, before⟩, after⟩
        refine ⟨gap, front ++ back, ?_, induction.mpr ⟨front, back, rfl, before, after⟩⟩
        simp only [List.append_assoc]

/-! ## The regular expression of a pattern -/

/-- The texts of the regular expression for pieces: each piece stands for itself, and between two of
them stands any text. -/
def language (pieces : List (List Char)) : Language Char :=
  ((pieces.map fun piece => ({piece} : Language Char)).intersperse ⊤).prod

theorem mem_search_piece_iff {later : Language Char} :
    text ∈ ⊤ * ({piece} * later) ↔ ∃ gap rest, text = gap ++ piece ++ rest ∧ rest ∈ later := by
  constructor
  · rintro ⟨gap, -, _, ⟨_, rfl, rest, inside, rfl⟩, rfl⟩
    exact ⟨gap, rest, (List.append_assoc gap _ rest).symm, inside⟩
  · rintro ⟨gap, rest, rfl, inside⟩
    refine Language.mem_mul.mpr ⟨gap, trivial, piece ++ rest, ?_, (List.append_assoc gap piece rest).symm⟩
    exact Language.mem_mul.mpr ⟨piece, rfl, rest, inside, rfl⟩

theorem mem_search_iff {pieces : List (List Char)} (nonempty : pieces ≠ []) :
    text ∈ ⊤ * language pieces * ⊤ ↔ LieInOrder pieces text := by
  induction pieces generalizing text with
  | nil => exact absurd rfl nonempty
  | cons piece more induction =>
      cases more with
      | nil =>
          have one : language [piece] = {piece} * 1 := List.prod_singleton.trans (mul_one _).symm
          rw [one, mul_one, mul_assoc, mem_search_piece_iff]
          rfl
      | cons next more =>
          have first : language (piece :: next :: more) =
              {piece} * (⊤ * language (next :: more)) := by
            rw [language, List.map_cons, List.map_cons, List.intersperse_cons_cons, List.prod_cons,
              List.prod_cons]
            rfl
          rw [first, mul_assoc, mul_assoc, mem_search_piece_iff, LieInOrder]
          simp only [induction (List.cons_ne_nil next more)]

/-! ## Patterns -/

/-- A pattern matches a text exactly if the text is its pieces, the parts between its `%` signs, with
any text before, between and after them. This is what it means to search the text for the regular
expression in which any text may stand for each `%` and all other characters stand for themselves. A
pattern without `%` matches the texts that it is a part of, and one with `%` in it those of which a
first part matches what is before the sign, and the rest what is after it. -/
theorem matches_pieces_in_order :
    (∀ pattern text : String, isMatch pattern text = true ↔
      ∃ (gaps : List (List Char)) (last : List Char),
        gaps.length = (pattern.toList.splitOn '%').length ∧
          text.toList = (List.zipWith (· ++ ·) gaps (pattern.toList.splitOn '%')).flatten ++ last) ∧
      (∀ pattern text : String, isMatch pattern text = true ↔
        text.toList ∈ (⊤ * language (pattern.toList.splitOn '%') * ⊤ : Language Char)) ∧
      (∀ pattern text : String, '%' ∉ pattern.toList →
        (isMatch pattern text = true ↔ ∃ before after, text = before ++ pattern ++ after)) ∧
      ∀ left right text : String, isMatch (left ++ "%" ++ right) text = true ↔
        ∃ front back, text = front ++ back ∧ isMatch left front = true ∧
          isMatch right back = true := by
  refine ⟨fun pattern text => ?_, fun pattern text => ?_, fun pattern text literal => ?_,
    fun left right text => ?_⟩
  · exact isMatch_iff.trans lieInOrder_iff_gaps
  · exact isMatch_iff.trans (mem_search_iff (List.splitOn_ne_nil '%' _)).symm
  · rw [isMatch_iff, List.splitOn_eq_singleton literal]
    constructor
    · rintro ⟨before, after, split, -⟩
      exact ⟨String.ofList before, String.ofList after, by
        rw [← String.toList_inj, split]
        simp only [String.toList_append, String.toList_ofList]⟩
    · rintro ⟨before, after, rfl⟩
      exact ⟨before.toList, after.toList, by simp only [String.toList_append], trivial⟩
  · have parts : (left ++ "%" ++ right).toList.splitOn '%' =
        left.toList.splitOn '%' ++ right.toList.splitOn '%' := by
      have sign : (left ++ "%" ++ right).toList = left.toList ++ '%' :: right.toList := by
        rw [String.toList_append, String.toList_append, List.append_assoc]
        rfl
      rw [sign, List.splitOn_append_cons_self]
    rw [isMatch_iff, parts, lieInOrder_append]
    simp only [isMatch_iff]
    constructor
    · rintro ⟨front, back, split, before, after⟩
      refine ⟨String.ofList front, String.ofList back, ?_, ?_, ?_⟩
      · rw [← String.toList_inj, split, String.toList_append, String.toList_ofList,
          String.toList_ofList]
      · rwa [String.toList_ofList]
      · rwa [String.toList_ofList]
    · rintro ⟨front, back, rfl, before, after⟩
      exact ⟨front.toList, back.toList, String.toList_append, before, after⟩

theorem point_and_doubled_sign_match :
    '%' ∉ "(.\n".toList ∧ isMatch "(.\n" "a(.\nb" = true ∧ isMatch "(.\n" "a(x\nb" = false ∧
      isMatch "a%%\n.%" "xa\n\n.y" = true := by
  have meaning := matches_pieces_in_order
  have literal : '%' ∉ "(.\n".toList := by decide
  refine ⟨literal, (meaning.2.2.1 _ _ literal).mpr ⟨"a", "b", rfl⟩, by decide, ?_⟩
  exact (meaning.1 _ _).mpr ⟨[['x'], [], ['\n'], []], ['y'], by decide, by decide⟩

end DocStore.Like

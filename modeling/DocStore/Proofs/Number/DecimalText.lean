import DocStore.Number.DecimalReading
import DocStore.Proofs.Number.Written

/-!
Decimal numbers as text. Every number that bits stand for is read back from its text with all its
digits and its exponent; only one NaN is not told from another.
-/

namespace DocStore.Decimal128

/-! ## Limits -/

/-- What the bits of a number stand for is within the limits of its coefficient and exponent. -/
def Content.IsWithin : Content → Prop
  | .finite _ decimal => decimal.coefficient ≤ coefficientLimit ∧
      leastExponent ≤ decimal.exponent ∧ decimal.exponent ≤ greatestExponent
  | _ => True

theorem isWithin_ofBits (bits : Nat) : (ofBits bits).IsWithin := by
  have least : leastExponent = -6176 := rfl
  have greatest : greatestExponent = 6111 := rfl
  have upper : bits / Nat.pow 2 122 = bits / Nat.pow 2 113 / 512 := by
    rw [Nat.div_div_eq_div_mul]
  have lower : bits / Nat.pow 2 122 = bits / Nat.pow 2 111 / 2048 := by
    rw [Nat.div_div_eq_div_mul]
  rw [ofBits]
  dsimp only
  split
  · trivial
  split
  · trivial
  split
  · refine ⟨Nat.zero_le _, ?_, ?_⟩
    · dsimp only
      omega
    · dsimp only
      omega
  · refine ⟨?_, ?_, ?_⟩
    · dsimp only
      split
      · exact Nat.zero_le _
      · omega
    · dsimp only
      omega
    · dsimp only
      omega

theorem isWithin_ofBytes (bytes : Vector UInt8 16) : (ofBytes bytes).IsWithin :=
  isWithin_ofBits _

/-! ## Digits -/

theorem toLower_of_isDigit {c : Char} (digit : c.isDigit = true) : c.toLower = c := by
  have small := (Char.isDigit_iff_toNat.mp digit).2
  refine dif_neg fun upper => ?_
  exact absurd (Nat.le_trans (UInt32.le_iff_toNat_le.mp upper.1) small) (by decide)

theorem placesOf_of_zeros {whole fraction : List Char} {zeros coefficient : Nat}
    (places : whole ++ fraction = List.replicate zeros '0' ++ Numeral.digitsOfNat coefficient) :
    placesOf whole fraction = Numeral.digitsOfNat coefficient := by
  have isZero : ∀ c ∈ List.replicate zeros '0', (c == '0') = true := by
    intro c member
    rw [(List.mem_replicate.mp member).2]
    rfl
  rw [placesOf, places, List.dropWhile_append_of_pos isZero]
  by_cases zero : coefficient = 0
  · rw [zero]
    rfl
  · rcases digits : Numeral.digitsOfNat coefficient with _ | ⟨first, rest⟩
    · exact absurd digits (Numeral.digitsOfNat_ne_nil coefficient)
    · have nonzero : (first == '0') = false := by
        rw [beq_eq_false_iff_ne]
        rintro rfl
        exact zero (Numeral.digitsOfNat_of_head_eq_zero (by rw [digits]; rfl))
      rw [List.dropWhile_cons_of_neg (by rw [nonzero]; exact Bool.false_ne_true)]

def marked (mark : Char) : Option (List Char) → List Char
  | none => []
  | some rest => mark :: rest

theorem splitAtFirst_marked {mark : Char} {before : List Char} (free : ∀ c ∈ before, c ≠ mark)
    (after : Option (List Char)) :
    splitAtFirst mark (before ++ marked mark after) = (before, after) := by
  have free : ∀ c ∈ before, (c != mark) = true := fun c member => bne_iff_ne.mpr (free c member)
  rw [splitAtFirst, List.dropWhile_append_of_pos free, List.takeWhile_append_of_pos free]
  cases after with
  | none => simp [marked]
  | some rest => simp [marked]

/-! ## Reading -/

theorem length_digitsOfNat_le {decimal : Decimal}
    (within : (Content.finite false decimal).IsWithin) :
    (Numeral.digitsOfNat decimal.coefficient).length ≤ precision := by
  refine (Nat.length_toDigits_le_iff (by decide) (by decide)).mpr ?_
  exact Nat.lt_of_le_of_lt within.1 (by decide)

namespace Draft

variable {decimal : Decimal}

theorem within_limits (within : (Content.finite false decimal).IsWithin) :
    let draft : Draft := ⟨Numeral.digitsOfNat decimal.coefficient, decimal.exponent⟩
    draft.shorten? = some draft ∧ draft.raise? = some draft ∧ draft.lower? = some draft := by
  intro draft
  refine ⟨?_, if_pos within.2.1, if_pos within.2.2⟩
  rw [shorten?, Nat.sub_eq_zero_of_le (length_digitsOfNat_le within), drop?]
  simp [draft]

end Draft

theorem coefficient?_digitsOfNat (coefficient : Nat) :
    coefficient? (Numeral.digitsOfNat coefficient) = some coefficient := by
  unfold coefficient?
  split
  · next digits same =>
    have digit : '+'.isDigit = true :=
      Numeral.isDigit_of_mem_digitsOfNat (by rw [same]; exact List.mem_cons_self)
    cases digit
  · exact NumberText.natural?_digitsOfNat coefficient

theorem fractionChars_eq_marked (fraction : List Char) :
    Numeral.fractionChars fraction = marked '.' (if fraction = [] then none else some fraction) := by
  rw [Numeral.fractionChars]
  split
  · rfl
  · rfl

theorem isDigit_of_mem_fractionChars {whole fraction : List Char}
    (digit : ∀ c ∈ whole ++ fraction, c.isDigit = true) {c : Char}
    (member : c ∈ whole ++ Numeral.fractionChars fraction) : c = '.' ∨ c.isDigit = true := by
  rw [Numeral.fractionChars] at member
  rcases List.mem_append.mp member with inWhole | inFraction
  · exact .inr (digit c (List.mem_append_left _ inWhole))
  · split at inFraction
    · cases inFraction
    · rcases List.mem_cons.mp inFraction with point | inside
      · exact .inl point
      · exact .inr (digit c (List.mem_append_right _ inside))

theorem decimal?_of_parts {whole fraction : List Char} {written : Option (List Char)}
    {zeros : Nat} {decimal : Decimal} (within : (Content.finite false decimal).IsWithin)
    (digit : ∀ c ∈ whole ++ fraction, c.isDigit = true)
    (places : whole ++ fraction =
      List.replicate zeros '0' ++ Numeral.digitsOfNat decimal.coefficient)
    (exponent : exponent? fraction.length written = some decimal.exponent) :
    decimal? (whole ++ Numeral.fractionChars fraction ++ marked 'e' written) = some decimal := by
  have noPoint : ∀ c ∈ whole, c ≠ '.' := by
    rintro c member rfl
    cases digit '.' (List.mem_append_left _ member)
  have noExponent : ∀ c ∈ whole ++ Numeral.fractionChars fraction, c ≠ 'e' := by
    rintro c member rfl
    rcases isDigit_of_mem_fractionChars digit member with point | isDigit
    · exact absurd point (by decide)
    · cases isDigit
  have fractionPart : (if fraction = [] then none else some fraction).getD [] = fraction := by
    split
    · next empty => exact empty.symm
    · rfl
  rcases Draft.within_limits within with ⟨shortened, raised, lowered⟩
  rw [decimal?, splitAtFirst_marked noExponent]
  dsimp only
  rw [fractionChars_eq_marked, splitAtFirst_marked noPoint]
  dsimp only
  rw [fractionPart, exponent, placesOf_of_zeros places]
  simp only [bind, Option.bind, pure, shortened, raised, lowered, coefficient?_digitsOfNat]

/-! ## Layouts -/

theorem isReadable_of_small {exponent : Int} (least : -100000 ≤ exponent)
    (greatest : exponent ≤ 100000) : isReadable exponent = true := by
  have limit : (Nat.pow 2 127 : Int) = 170141183460469231731687303715884105728 := rfl
  rw [isReadable, decide_eq_true_iff, limit]
  omega

def IsPower (value : Int) : Option (List Char) → Prop
  | some text => NumberText.integer? (String.ofList text) = some value
  | none => value = 0

theorem exponent?_eq {places : Nat} {text : Option (List Char)} {value : Int}
    (power : IsPower value text) (few : places ≤ 10000) (least : -10000 ≤ value)
    (greatest : value ≤ 10000) : exponent? places text = some (value - places) := by
  have written : isReadable value = true := isReadable_of_small (by omega) (by omega)
  have shifted : isReadable (value - places) = true := isReadable_of_small (by omega) (by omega)
  unfold exponent?
  cases text with
  | none =>
      cases power
      simp only [bind, Option.bind, written, shifted, and_self, if_true]
  | some text =>
      rw [IsPower] at power
      simp only [bind, Option.bind, power, written, shifted, and_self, if_true]

theorem map_toLower_of_isDigit {text : List Char} (digit : ∀ c ∈ text, c.isDigit = true) :
    text.map Char.toLower = text :=
  (List.map_congr_left fun c member => toLower_of_isDigit (digit c member)).trans (List.map_id text)

/-- Text that starts with a digit and is read as the number, in lower case. -/
structure Reads (decimal : Decimal) (text : List Char) : Prop where
  first : ∃ digit rest, text = digit :: rest ∧ digit.isDigit = true
  read : decimal? (text.map Char.toLower) = some decimal

theorem reads_of_parts {whole fraction : List Char} {written : Option (List Char)} {zeros : Nat}
    {decimal : Decimal} {text : List Char}
    (within : (Content.finite false decimal).IsWithin)
    (nonempty : whole ≠ []) (digit : ∀ c ∈ whole ++ fraction, c.isDigit = true)
    (places : whole ++ fraction =
      List.replicate zeros '0' ++ Numeral.digitsOfNat decimal.coefficient)
    (exponent : exponent? fraction.length written = some decimal.exponent)
    (ends : text.map Char.toLower = marked 'e' written) :
    Reads decimal (whole ++ Numeral.fractionChars fraction ++ text) := by
  have wholeDigits : ∀ c ∈ whole, c.isDigit = true := fun c member =>
    digit c (List.mem_append_left _ member)
  have point : (Numeral.fractionChars fraction).map Char.toLower = Numeral.fractionChars fraction := by
    rw [Numeral.fractionChars]
    split
    · rfl
    · rw [List.map_cons, map_toLower_of_isDigit fun c member => digit c (List.mem_append_right _ member)]
      rfl
  constructor
  · rcases whole with _ | ⟨first, rest⟩
    · exact absurd rfl nonempty
    · exact ⟨first, _, rfl, wholeDigits first List.mem_cons_self⟩
  · rw [List.map_append, List.map_append, map_toLower_of_isDigit wholeDigits, point, ends]
    exact decimal?_of_parts within digit places exponent

theorem integer?_signed (value : Int) :
    NumberText.integer? ((if 0 < value then "+" else "") ++ toString value) = some value := by
  split
  · next positive =>
    have natural : ((value.toNat : Nat) : Int) = value := by omega
    rw [← natural]
    exact NumberText.integer?_plus value.toNat
  · rw [String.empty_append]
    exact NumberText.integer?_toString value

theorem map_toLower_signed (value : Int) :
    ((if 0 < value then "+" else "") ++ toString value).toList.map Char.toLower =
      ((if 0 < value then "+" else "") ++ toString value).toList := by
  have digits (number : Nat) :
      (Numeral.digitsOfNat number).map Char.toLower = Numeral.digitsOfNat number :=
    map_toLower_of_isDigit fun c member => Numeral.isDigit_of_mem_digitsOfNat member
  have plain : (toString value).toList.map Char.toLower = (toString value).toList := by
    cases value with
    | ofNat number =>
        rw [Int.ofNat_eq_natCast, NumberText.toList_toString]
        exact digits number
    | negSucc number =>
        rw [NumberText.toList_toString_negSucc, List.map_cons, digits]
        rfl
  rw [String.toList_append, List.map_append, plain]
  split
  · rfl
  · rfl

theorem reads_positional {decimal : Decimal} {places : Nat}
    (within : (Content.finite false decimal).IsWithin) (exponent : decimal.exponent = -(places : Int)) :
    let padded := Numeral.padLeft (places + 1) (Numeral.digitsOfNat decimal.coefficient)
    Reads decimal (padded.take (padded.length - places) ++
      Numeral.fractionChars (padded.drop (padded.length - places))) := by
  intro padded
  have digit : ∀ c ∈ padded, c.isDigit = true := fun c => Numeral.isDigit_of_mem_padLeft
    fun c member => Numeral.isDigit_of_mem_digitsOfNat member
  have length : padded.length = _ := Numeral.length_padLeft _ _
  have least : -6176 ≤ decimal.exponent := within.2.1
  have nonempty : padded.take (padded.length - places) ≠ [] := by
    apply List.ne_nil_of_length_pos
    rw [List.length_take]
    omega
  have read : exponent? (padded.drop (padded.length - places)).length none = some decimal.exponent := by
    have power : IsPower 0 none := rfl
    rw [exponent?_eq power (by rw [List.length_drop]; omega) (by omega) (by omega),
      List.length_drop, Nat.sub_sub_self (by omega), exponent, Int.zero_sub]
  have ends : ([] : List Char).map Char.toLower = marked 'e' none := rfl
  have reads := reads_of_parts within nonempty (by rwa [List.take_append_drop])
    (List.take_append_drop _ padded) read ends
  rwa [List.append_nil] at reads

theorem reads_scientific {decimal : Decimal} (within : (Content.finite false decimal).IsWithin) :
    let digits := Numeral.digitsOfNat decimal.coefficient
    let leading := decimal.exponent + digits.length - 1
    Reads decimal (digits.take 1 ++ Numeral.fractionChars (digits.drop 1) ++
      'E' :: ((if 0 < leading then "+" else "") ++ toString leading).toList) := by
  intro digits leading
  have digit : ∀ c ∈ digits, c.isDigit = true :=
    fun c member => Numeral.isDigit_of_mem_digitsOfNat member
  have positive : 0 < digits.length := List.length_pos_iff.mpr (Numeral.digitsOfNat_ne_nil _)
  have few : digits.length ≤ 34 := length_digitsOfNat_le within
  have least : -6176 ≤ decimal.exponent := within.2.1
  have greatest : decimal.exponent ≤ 6111 := within.2.2
  have nonempty : digits.take 1 ≠ [] := by
    apply List.ne_nil_of_length_pos
    rw [List.length_take]
    omega
  have places : digits.take 1 ++ digits.drop 1 = List.replicate 0 '0' ++ digits :=
    List.take_append_drop 1 digits
  generalize signed_eq : (if 0 < leading then "+" else "") ++ toString leading = signed
  have power : IsPower leading (some signed.toList) := by
    rw [IsPower, String.ofList_toList, ← signed_eq]
    exact integer?_signed leading
  have shifted : leading - ((digits.drop 1).length : Int) = decimal.exponent := by
    rw [List.length_drop]
    omega
  have read : exponent? (digits.drop 1).length (some signed.toList) = some decimal.exponent := by
    rw [exponent?_eq power (by rw [List.length_drop]; omega) (by omega) (by omega), shifted]
  have ends : ('E' :: signed.toList).map Char.toLower = marked 'e' (some signed.toList) := by
    rw [List.map_cons, ← signed_eq, map_toLower_signed]
    rfl
  exact reads_of_parts within nonempty (by rwa [List.take_append_drop]) places read ends

theorem reads_finiteText {decimal : Decimal} (within : (Content.finite false decimal).IsWithin) :
    Reads decimal (finiteText decimal).toList := by
  rw [finiteText]
  dsimp only
  split
  · next plain =>
    rw [List.splitAt_eq, String.toList_ofList]
    exact reads_positional within (by omega)
  · have positive := List.length_pos_iff.mpr (Numeral.digitsOfNat_ne_nil decimal.coefficient)
    have point : (if (Numeral.digitsOfNat decimal.coefficient).length = 1 then []
        else '.' :: (Numeral.digitsOfNat decimal.coefficient).drop 1) =
          Numeral.fractionChars ((Numeral.digitsOfNat decimal.coefficient).drop 1) := by
      have single : (Numeral.digitsOfNat decimal.coefficient).drop 1 = [] ↔
          (Numeral.digitsOfNat decimal.coefficient).length = 1 := by
        rw [List.drop_eq_nil_iff]
        omega
      simp only [Numeral.fractionChars, single]
    have reads := reads_scientific within
    rw [point]
    simp only [String.toList_append, String.toList_ofList, List.append_assoc] at reads ⊢
    exact reads

theorem ofText?_finite {decimal : Decimal} (negative : Bool)
    (within : (Content.finite false decimal).IsWithin) :
    ofText? (Content.finite negative decimal).text = some (.finite negative decimal) := by
  have reads := reads_finiteText within
  rcases reads.first with ⟨digit, rest, text, isDigit⟩
  have split : NumberText.splitSign (Content.finite negative decimal).text.toList =
      (negative, (finiteText decimal).toList) := by
    rw [Content.text, String.toList_append]
    cases negative with
    | true => rfl
    | false =>
        apply NumberText.splitSign_of_isDigit
        rw [text]
        intro c first
        cases first
        exact isDigit
  have noName {first : Char} {others : List Char} (letter : first.isDigit = false) :
      String.ofList ((finiteText decimal).toList.map Char.toLower) ≠ String.ofList (first :: others) := by
    rw [text, List.map_cons, toLower_of_isDigit isDigit]
    intro same
    rw [String.ofList_inj, List.cons.injEq] at same
    rw [same.1, letter] at isDigit
    cases isDigit
  rw [ofText?, split]
  dsimp only
  rw [if_neg (noName rfl), if_neg (noName rfl), if_neg, reads.read]
  · rfl
  · rintro (infinity | inf)
    · exact noName rfl infinity
    · exact noName rfl inf

def Content.reread : Content → Content
  | .nan _ _ => .nan false false
  | content => content

theorem ofText?_text {content : Content} (within : content.IsWithin) :
    ofText? content.text = some content.reread := by
  cases content with
  | nan negative signalling =>
      change ofText? "NaN" = some (.nan false false)
      rfl
  | infinite negative =>
      cases negative with
      | true => rfl
      | false => rfl
  | finite negative decimal => exact ofText?_finite negative within

end DocStore.Decimal128

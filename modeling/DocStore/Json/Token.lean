import DocStore.Json.Basic
import DocStore.Text.Hex

/-!
The tokens of JSON text. The text is first cut into lexemes, character by character, and each
lexeme is read on its own.
-/

namespace DocStore.Json

inductive Token where
  | openArray
  | closeArray
  | openObject
  | closeObject
  | comma
  | colon
  | string (value : Json)
  | literal (value : Json)

/-! ## Strings -/

def codeUnit? (first second third fourth : Char) : Option Nat := do
  let first ← Hex.digitValue? first
  let second ← Hex.digitValue? second
  let third ← Hex.digitValue? third
  let fourth ← Hex.digitValue? fourth
  return ((first * 16 + second) * 16 + third) * 16 + fourth

def isHighSurrogate (unit : Nat) : Bool :=
  0xD800 ≤ unit ∧ unit < 0xDC00

def isLowSurrogate (unit : Nat) : Bool :=
  0xDC00 ≤ unit ∧ unit < 0xE000

def surrogatePair (high low : Nat) : Char :=
  Char.ofNat (0x10000 + (high - 0xD800) * 0x400 + (low - 0xDC00))

def simpleEscape? (c : Char) : Option Char :=
  match c with
  | '"' => some '"'
  | '\\' => some '\\'
  | '/' => some '/'
  | 'b' => some '\x08'
  | 'f' => some '\x0c'
  | 'n' => some '\n'
  | 'r' => some '\r'
  | 't' => some '\t'
  | _ => none

inductive StringPart where
  | char (c : Char)
  | unit (value : Nat)

def stringParts? : List Char → Option (List StringPart)
  | [] => some []
  | '\\' :: 'u' :: first :: second :: third :: fourth :: rest => do
      return .unit (← codeUnit? first second third fourth) :: (← stringParts? rest)
  | '\\' :: c :: rest => do
      return .char (← simpleEscape? c) :: (← stringParts? rest)
  | c :: rest => if c = '\\' then none else (stringParts? rest).map (.char c :: ·)

def StringPart.ofUnit (value : Nat) : StringPart :=
  if isHighSurrogate value ∨ isLowSurrogate value then .unit value else .char (Char.ofNat value)

/-- Joins pairs of surrogates, so that only surrogates that stand alone are left as units. -/
def joinUnits : List StringPart → List StringPart
  | .unit high :: .unit low :: rest =>
      if isHighSurrogate high ∧ isLowSurrogate low then
        .char (surrogatePair high low) :: joinUnits rest
      else StringPart.ofUnit high :: joinUnits (.unit low :: rest)
  | .unit unit :: rest => StringPart.ofUnit unit :: joinUnits rest
  | .char c :: rest => .char c :: joinUnits rest
  | [] => []

def StringPart.char? : StringPart → Option Char
  | .char c => some c
  | .unit _ => none

/-- The bytes of a part in UTF-8. A surrogate takes three, as the characters around it do. -/
def StringPart.bytes : StringPart → List UInt8
  | .char c => String.utf8EncodeChar c
  | .unit value =>
      [UInt8.ofNat (0xE0 + value / 0x1000), UInt8.ofNat (0x80 + value / 0x40 % 0x40),
        UInt8.ofNat (0x80 + value % 0x40)]

def isControl (c : Char) : Bool :=
  c.toNat < 0x20

def string? (quoted : List Char) : Option Json := do
  let parts := joinUnits (← stringParts? quoted)
  let bare := quoted.any isControl
  match bare, parts.mapM StringPart.char? with
  | false, some chars => return .string (String.ofList chars)
  | _, _ => return .bytes (parts.flatMap StringPart.bytes) bare

/-! ## Numbers and words -/

def spanDigits (text : List Char) : List Char × List Char :=
  (text.takeWhile Char.isDigit, text.dropWhile Char.isDigit)

def exponent? : List Char → Option (Option (Bool × List Char))
  | [] => some none
  | mark :: rest =>
      if mark = 'e' ∨ mark = 'E' then
        let (negative, digits) : Bool × List Char :=
          match rest with
          | '-' :: digits => (true, digits)
          | '+' :: digits => (false, digits)
          | digits => (false, digits)
        if digits ≠ [] ∧ digits.all Char.isDigit then some (some (negative, digits)) else none
      else none

def fraction? : List Char → Option (List Char × List Char)
  | '.' :: rest =>
      let (digits, rest) := spanDigits rest
      if digits = [] then none else some (digits, rest)
  | rest => some ([], rest)

/-- Reads a numeral. It has at least one digit before the point, and no zero in front of others. -/
def numeral? (text : List Char) : Option Numeral := do
  let (negative, rest) : Bool × List Char :=
    match text with
    | '-' :: rest => (true, rest)
    | rest => (false, rest)
  let (whole, rest) := spanDigits rest
  guard (whole ≠ [] ∧ (whole.head? = some '0' → whole.length = 1))
  let (fraction, rest) ← fraction? rest
  let exponent ← exponent? rest
  return { negative, whole, fraction, exponent }

def ofNumeral (numeral : Numeral) : Json :=
  match numeral.read? with
  | some value => .number value
  | none => .unreadable false

def word? (text : List Char) : Option Json :=
  if text = "null".toList then some .null
  else if text = "true".toList then some (.bool true)
  else if text = "false".toList then some (.bool false)
  else none

/-! ## Lexemes -/

/-- What the scanner is in the middle of. The characters of a lexeme are kept in reverse. -/
inductive Scan where
  | between
  | inString (read : List Char)
  | inEscape (read : List Char)
  | inNumber (read : List Char)
  | inWord (read : List Char)

namespace Scan

def isBlank (c : Char) : Bool :=
  c = ' ' ∨ c = '\n' ∨ c = '\t' ∨ c = '\r'

def isNumberChar (c : Char) : Bool :=
  c.isDigit ∨ c = '-' ∨ c = '+' ∨ c = '.' ∨ c = 'e' ∨ c = 'E'

def isWordChar (c : Char) : Bool :=
  'a' ≤ c ∧ c ≤ 'z'

def punctuation? (c : Char) : Option Token :=
  match c with
  | '[' => some .openArray
  | ']' => some .closeArray
  | '\x7b' => some .openObject
  | '\x7d' => some .closeObject
  | ',' => some .comma
  | ':' => some .colon
  | _ => none

abbrev Progress := List Token × Scan

def start (tokens : List Token) (c : Char) : Option Progress :=
  if isBlank c then some (tokens, .between)
  else if c = '"' then some (tokens, .inString [])
  else if c.isDigit ∨ c = '-' then some (tokens, .inNumber [c])
  else if isWordChar c then some (tokens, .inWord [c])
  else (punctuation? c).map fun token => (token :: tokens, .between)

def numberToken? (read : List Char) : Option Token :=
  (numeral? read.reverse).map fun numeral => .literal (ofNumeral numeral)

def wordToken? (read : List Char) : Option Token :=
  (word? read.reverse).map .literal

def stringToken? (read : List Char) : Option Token :=
  (string? read.reverse).map .string

def step : Progress → Char → Option Progress
  | (tokens, .between), c => start tokens c
  | (tokens, .inString read), c =>
      if c = '"' then (stringToken? read).map fun token => (token :: tokens, .between)
      else if c = '\\' then some (tokens, .inEscape (c :: read))
      else some (tokens, .inString (c :: read))
  | (tokens, .inEscape read), c => some (tokens, .inString (c :: read))
  | (tokens, .inNumber read), c =>
      if isNumberChar c then some (tokens, .inNumber (c :: read))
      else do start ((← numberToken? read) :: tokens) c
  | (tokens, .inWord read), c =>
      if isWordChar c then some (tokens, .inWord (c :: read))
      else do start ((← wordToken? read) :: tokens) c

def finish : Progress → Option (List Token)
  | (tokens, .between) => some tokens.reverse
  | (tokens, .inNumber read) => do return ((← numberToken? read) :: tokens).reverse
  | (tokens, .inWord read) => do return ((← wordToken? read) :: tokens).reverse
  | (_, .inString _) => none
  | (_, .inEscape _) => none

end Scan

def Token.ofChars? (text : List Char) : Option (List Token) :=
  (text.foldlM Scan.step ([], .between)).bind Scan.finish

end DocStore.Json

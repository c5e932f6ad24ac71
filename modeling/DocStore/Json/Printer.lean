import DocStore.Json.Basic
import DocStore.Text.Hex

/-!
JSON text over several lines, indented by two blanks a level.
-/

namespace DocStore.Json

/-- Doubles in JSON text show that they are no integers. Very large and very small ones are written
with an exponent. -/
def numberLayout : Numeral.Layout where
  tie := .even
  isPositional := fun leading => -5 ≤ leading ∧ leading ≤ 15
  wholeFraction := ['0']

def numberChars : JsonNumber → List Char
  | .natural value => (Numeral.ofInt value).chars
  | .negative value => (Numeral.ofInt value.toInt).chars
  | .double value => (Numeral.ofDouble numberLayout value).chars

/-- A character inside quotes. Only quotes, backslashes and control characters are escaped. -/
def escape (c : Char) : List Char :=
  match c with
  | '"' => ['\\', '"']
  | '\\' => ['\\', '\\']
  | '\x08' => ['\\', 'b']
  | '\t' => ['\\', 't']
  | '\n' => ['\\', 'n']
  | '\x0c' => ['\\', 'f']
  | '\r' => ['\\', 'r']
  | c =>
      if c.toNat < 0x20 then '\\' :: 'u' :: '0' :: '0' :: Hex.encodeByte (UInt8.ofNat c.toNat)
      else [c]

def quoted (text : String) : List Char :=
  '"' :: text.toList.flatMap escape ++ ['"']

def newline (level : Nat) : List Char :=
  '\n' :: List.replicate (2 * level) ' '

mutual

def pretty (level : Nat) : Json → List Char
  | .null => "null".toList
  | .bool true => "true".toList
  | .bool false => "false".toList
  | .number value => numberChars value
  | .string text => quoted text
  | .array [] => "[]".toList
  | .array (item :: items) =>
      '[' :: newline (level + 1) ++ pretty (level + 1) item ++ prettyItems (level + 1) items ++
        newline level ++ [']']
  | .object [] => ['\x7b', '\x7d']
  | .object ((key, value) :: members) =>
      '\x7b' :: newline (level + 1) ++ quoted key ++ ':' :: ' ' :: pretty (level + 1) value ++
        prettyMembers (level + 1) members ++ newline level ++ ['\x7d']
  | .bytes _ _ | .unreadable _ => "null".toList
termination_by structural value => value

def prettyItems (level : Nat) : List Json → List Char
  | [] => []
  | item :: items => ',' :: newline level ++ pretty level item ++ prettyItems level items
termination_by structural items => items

def prettyMembers (level : Nat) : List (String × Json) → List Char
  | [] => []
  | (key, value) :: members =>
      ',' :: newline level ++ quoted key ++ ':' :: ' ' :: pretty level value ++
        prettyMembers level members
termination_by structural members => members

end

def render (value : Json) : String :=
  String.ofList (pretty 0 value)

end DocStore.Json

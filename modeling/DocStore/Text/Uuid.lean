import DocStore.Text.Hex

/-!
Identifiers of sixteen bytes, read from 32 hexadecimal digits. The digits stand together or in five
groups; grouped digits may also stand in braces or after a scheme.
-/

namespace DocStore.Uuid

def scheme : List Char :=
  "urn:uuid:".toList

def hasScheme (text : List Char) : Bool :=
  (text.take scheme.length).map Char.toLower == scheme

def bare (text : List Char) : List Char :=
  match text with
  | '\x7b' :: rest => if rest.getLast? = some '\x7d' then rest.dropLast else text
  | _ => if hasScheme text then text.drop scheme.length else text

def ungrouped? (text : List Char) : Option (List Char) :=
  if text.length = 36 ∧ [8, 13, 18, 23].all fun place => text[place]? == some '-' then
    some (text.take 8 ++ (text.drop 9).take 4 ++ (text.drop 14).take 4 ++ (text.drop 19).take 4 ++
      text.drop 24)
  else none

def decode? (text : List Char) : Option (List UInt8) :=
  if text.length = 32 then Hex.decode? text
  else (ungrouped? (bare text)).bind Hex.decode?

end DocStore.Uuid

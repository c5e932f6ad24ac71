import DocStore.Number.Numeral
import DocStore.Value.Basic

/-!
Supplies of fresh identifiers. A supply has one identifier for every place in a tree of documents,
so that the parts of a tree can be named independently of each other.
-/

namespace DocStore

structure IdSupply where
  text : List Nat → String

namespace IdSupply

def branch (supply : IdSupply) (index : Nat) : IdSupply where
  text place := supply.text (index :: place)

def root (supply : IdSupply) : String :=
  supply.text []

/-- Gives each document without an identifier the one for its position. -/
def identify (supply : IdSupply) (documents : List Document) : List Document :=
  documents.mapIdx fun index document => document.withId (supply.branch index).root

/-! ## Universally unique identifiers -/

def hexText (width number : Nat) : String :=
  String.ofList (Numeral.padLeft width (Nat.toDigits 16 number))

def uuidText (bits : Nat) : String :=
  let high := bits / Nat.pow 2 74 % Nat.pow 2 48
  let middle := bits / Nat.pow 2 62 % 4096
  let low := Nat.pow 2 63 + bits % Nat.pow 2 62
  hexText 8 (high / 65536) ++ "-" ++ hexText 4 (high % 65536) ++ "-4" ++ hexText 3 middle ++
    "-" ++ hexText 4 (low / Nat.pow 2 48) ++ "-" ++ hexText 12 (low % Nat.pow 2 48)

/-- An odd multiplier that spreads small numbers over all free bits. -/
def multiplier : Nat := 47026247687942121848144207491837523525

def seeded (seed : Nat) : IdSupply where
  text place :=
    uuidText ((seed :: place).foldl
      (fun mixed index => (mixed * multiplier + index + 1) * multiplier % Nat.pow 2 122) 1)

end IdSupply

end DocStore

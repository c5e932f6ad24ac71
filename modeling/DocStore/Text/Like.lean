/-!
Patterns in which `%` stands for any run of characters. A pattern may match anywhere in a text.
A pattern is used only if the machines that run it are not too large.
-/

namespace DocStore.Like

def pieces : List Char → List (List Char)
  | [] => [[]]
  | c :: rest =>
      match c == '%', pieces rest with
      | true, more => [] :: more
      | false, [] => [[c]]
      | false, piece :: more => (c :: piece) :: more

def after? (piece : List Char) : List Char → Option (List Char)
  | [] => if piece.isEmpty then some [] else none
  | c :: rest =>
      if piece.isPrefixOf (c :: rest) then some ((c :: rest).drop piece.length)
      else after? piece rest

/-- Whether the pieces occur in the text one after another. Taking the first occurrence of each
leaves the most text for the others. -/
def occurInOrder : List (List Char) → List Char → Bool
  | [], _ => true
  | piece :: more, text =>
      match after? piece text with
      | some rest => occurInOrder more rest
      | none => false

def isMatch (pattern text : String) : Bool :=
  occurInOrder (pieces pattern.toList) text.toList

/-! ## Size -/

structure Parts where
  states : Nat
  branches : Nat
  ranges : Nat

def Parts.size (parts : Parts) : Nat :=
  32 * parts.states + 4 * parts.branches + 8 * parts.ranges

/-- A kind of machine that runs a pattern over the bytes of a text. It has a frame whatever its
pattern, a loop for each `%`, and one state for each byte of a literal piece. -/
structure Machine where
  frame : Parts
  loop : Parts

namespace Machine

/-- The machine that looks for the end of a match. In a loop, encodings of characters share their
last bytes. -/
def forward : Machine where
  frame := { states := 6, branches := 2, ranges := 1 }
  loop := { states := 10, branches := 2, ranges := 16 }

/-- The machine that looks for the start of a match, from its end. In a loop, encodings of
characters share nothing. -/
def backward : Machine where
  frame := { states := 4, branches := 2, ranges := 1 }
  loop := { states := 30, branches := 11, ranges := 0 }

def charSize (machine : Machine) (char : Char) : Nat :=
  if char == '%' then machine.loop.size
  else Parts.size { states := char.utf8Size, branches := 0, ranges := 0 }

def size (machine : Machine) (pattern : String) : Nat :=
  pattern.toList.foldl (fun size char => size + machine.charSize char) machine.frame.size

end Machine

def sizeLimit : Nat := 10485760

def isCompilable (pattern : String) : Bool :=
  Machine.forward.size pattern ≤ sizeLimit && Machine.backward.size pattern ≤ sizeLimit

end DocStore.Like

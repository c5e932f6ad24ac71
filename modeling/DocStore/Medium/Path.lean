/-!
Paths: parts with slashes between them. Most parts are names, and the others lead nowhere or back,
so that one place has many paths.

The main statement is that what shall take the place of a path is put in a different place.
-/

namespace DocStore

/-- Where something can be: the names that lead there from the root, the last one first. -/
abbrev Place := List String

structure Path where
  parts : List String
deriving DecidableEq, Repr

namespace Path

def ofText (text : String) : Path :=
  ⟨(text.toList.splitOn '/').map String.ofList⟩

def isIdle (part : String) : Bool :=
  part == "" || part == "."

def isName (part : String) : Bool :=
  !isIdle part && part != ".."

variable (path : Path)

def text : String :=
  "/".intercalate path.parts

/-! ## Places -/

/-- Where a part leads. Two points lead back, and nowhere from the root. -/
def follow (place : Place) (part : String) : Place :=
  if isIdle part then place else if part = ".." then place.tail else part :: place

def place : Place :=
  path.parts.foldl follow []

def startsFrom (place : Place) : List String → List Place
  | [] => []
  | part :: parts => place :: startsFrom (follow place part) parts

/-- The places that a path leads through. All of them have to be directories. -/
def stations : List Place :=
  startsFrom [] path.parts

/-! ## Staging -/

def stagingEnd : String := ".tmp"

/-- Drops the parts that lead nowhere, the last ones first, but never the first part. -/
def dropIdle : List String → List String
  | part :: before :: parts =>
      if isIdle part then dropIdle (before :: parts) else part :: before :: parts
  | parts => parts

def extend (part : String) : Path :=
  match path.parts.reverse with
  | "" :: before => ⟨before.reverse ++ [part]⟩
  | _ => ⟨path.parts ++ [part]⟩

/-- Where to put what shall take the place of a path: beside its last name, or in the directory that
it leads to without one. -/
def staging : Path :=
  match path.parts.reverse.dropWhile isIdle with
  | [] => path.extend stagingEnd
  | name :: before =>
      if name = ".." then path.extend stagingEnd
      else ⟨(dropIdle before).reverse ++ [name ++ stagingEnd]⟩

/-! ## Laws -/

def placeOfReversed (parts : List String) : Place :=
  parts.foldr (fun part place => follow place part) []

theorem place_eq (path : Path) : path.place = placeOfReversed path.parts.reverse := by
  simp [place, placeOfReversed]

theorem follow_idle {part : String} (place : Place) (idle : isIdle part = true) :
    follow place part = place := by
  simp [follow, idle]

theorem follow_name {part : String} (place : Place) (named : isName part = true) :
    follow place part = part :: place := by
  have notIdle : isIdle part = false := by simp_all [isName]
  have notBack : part ≠ ".." := by simp_all [isName]
  simp [follow, notIdle, notBack]

theorem placeOfReversed_dropWhile (parts : List String) :
    placeOfReversed (parts.dropWhile isIdle) = placeOfReversed parts := by
  induction parts with
  | nil => rfl
  | cons part parts induction =>
      cases idle : isIdle part with
      | true =>
          rw [List.dropWhile_cons_of_pos idle, induction]
          exact (follow_idle (placeOfReversed parts) idle).symm
      | false => rw [List.dropWhile_cons_of_neg (by simp [idle])]

theorem placeOfReversed_dropIdle (parts : List String) :
    placeOfReversed (dropIdle parts) = placeOfReversed parts := by
  fun_induction dropIdle parts with
  | case1 part before parts idle induction =>
      rw [induction]
      exact (follow_idle (placeOfReversed (before :: parts)) idle).symm
  | case2 => rfl
  | case3 => rfl

theorem place_extend (path : Path) {part : String} (named : isName part = true) :
    (path.extend part).place = part :: path.place := by
  unfold extend
  split
  · next before ends =>
    rw [place_eq path, ends, place_eq, List.reverse_append]
    have idle : isIdle "" = true := rfl
    simp [placeOfReversed, follow_name _ named, follow_idle _ idle]
  · simp [place, follow_name _ named]

theorem isName_append_stagingEnd (name : String) : isName (name ++ stagingEnd) = true := by
  have size : 4 ≤ (name ++ stagingEnd).length := by
    rw [String.length_append]
    exact Nat.le_add_left _ _
  have longer (short : String) (small : short.length < 4) : name ++ stagingEnd ≠ short := by
    intro same
    rw [same] at size
    omega
  simp [isName, isIdle, longer "" (by decide), longer "." (by decide), longer ".." (by decide)]

theorem place_staging_ne (path : Path) : path.staging.place ≠ path.place := by
  have extended : (path.extend stagingEnd).place ≠ path.place := by
    rw [place_extend path (by decide)]
    exact List.cons_ne_self _ _
  unfold staging
  split
  · exact extended
  · next name before ends =>
    split
    · exact extended
    · next notBack =>
      have notIdle : isIdle name = false := by
        have first := List.head?_dropWhile_not isIdle path.parts.reverse
        simpa [ends] using first
      have named : isName name = true := by simp [isName, notIdle, notBack]
      have beside : placeOfReversed (dropIdle before) = placeOfReversed before :=
        placeOfReversed_dropIdle before
      rw [place_eq path, ← placeOfReversed_dropWhile, ends, place_eq]
      simp only [List.reverse_append, List.reverse_reverse, List.reverse_singleton,
        List.singleton_append, placeOfReversed, List.foldr_cons] at beside ⊢
      rw [follow_name _ named, follow_name _ (isName_append_stagingEnd name), beside]
      intro same
      have ends : name ++ stagingEnd = name := (List.cons.inj same).1
      simp [stagingEnd] at ends

end Path

end DocStore

import Std.Data.ExtTreeMap
import DocStore.Medium.Basic

/-!
Disks: files and directories by place. A path leads to its place only through directories.
-/

namespace DocStore

inductive DiskEntry where
  | directory
  | file (text : String)
deriving DecidableEq, Repr

structure Disk where
  entries : Std.ExtTreeMap Place DiskEntry

namespace Disk

def empty : Disk :=
  ⟨(∅ : Std.ExtTreeMap Place DiskEntry).insert [] .directory⟩

/-! ## Places -/

variable (disk : Disk)

def hasDirectory (place : Place) : Bool :=
  disk.entries[place]? = some .directory

def pathLimit : Nat := 4095

/-- Whether a path leads to a place, where nothing needs to be. -/
def reaches (path : Path) : Bool :=
  path.text != "" && path.text.utf8ByteSize ≤ pathLimit && path.stations.all disk.hasDirectory

def nameLimit : Nat := 255

def isFileName (name : String) : Bool :=
  Path.isName name && name.utf8ByteSize ≤ nameLimit && !name.toList.contains '\x00'

def accepts (path : Path) : Bool :=
  path.parts.getLast?.any isFileName && disk.reaches path && !disk.hasDirectory path.place

/-! ## Files -/

def read (path : Path) : Content :=
  if disk.reaches path then
    match disk.entries[path.place]? with
    | none => .missing
    | some (.file text) => .text text
    | some .directory => .unreadable
  else .missing

def write (path : Path) (text : String) : Bool × Disk :=
  if disk.accepts path then (true, ⟨disk.entries.insert path.place (.file text)⟩)
  else (false, disk)

def move (source target : Path) : Bool × Disk :=
  match disk.read source with
  | .text text =>
      if disk.accepts target then
        (true, ⟨(disk.entries.erase source.place).insert target.place (.file text)⟩)
      else (false, disk)
  | _ => (false, disk)

instance : Medium Disk where
  read := read
  write := write
  move := move

/-! ## Laws -/

theorem reaches_of_accepts {disk : Disk} {path : Path} (accepted : disk.accepts path = true) :
    disk.reaches path = true := by
  simp_all [accepts]

theorem hasDirectory_of_accepts {disk : Disk} {path : Path} (accepted : disk.accepts path = true) :
    disk.hasDirectory path.place = false := by
  simp_all [accepts]

theorem hasDirectory_insert {disk : Disk} {place : Place} {text : String}
    (noDirectory : disk.hasDirectory place = false) :
    hasDirectory ⟨disk.entries.insert place (.file text)⟩ = disk.hasDirectory := by
  funext other
  by_cases same : place = other
  · subst same
    rw [noDirectory]
    simp [hasDirectory]
  · simp [hasDirectory, Std.ExtTreeMap.getElem?_insert, same]

theorem entry_of_read {disk : Disk} {path : Path} {text : String}
    (found : disk.read path = .text text) : disk.entries[path.place]? = some (.file text) := by
  unfold read at found
  split at found
  · split at found <;> simp_all
  · simp at found

theorem hasDirectory_erase {disk : Disk} {place : Place} {text : String}
    (found : disk.entries[place]? = some (.file text)) :
    hasDirectory ⟨disk.entries.erase place⟩ = disk.hasDirectory := by
  funext other
  by_cases same : place = other
  · subst same
    simp [hasDirectory, found]
  · simp [hasDirectory, Std.ExtTreeMap.getElem?_erase, same]

theorem reaches_congr {disk other : Disk}
    (directories : disk.hasDirectory = other.hasDirectory) (path : Path) :
    disk.reaches path = other.reaches path := by
  unfold reaches
  rw [directories]

theorem read_congr {disk other : Disk} {path : Path}
    (directories : disk.hasDirectory = other.hasDirectory)
    (here : disk.entries[path.place]? = other.entries[path.place]?) :
    disk.read path = other.read path := by
  unfold read
  rw [reaches_congr directories, here]

theorem hasDirectory_write (disk : Disk) (path : Path) (text : String) :
    (disk.write path text).2.hasDirectory = disk.hasDirectory := by
  unfold write
  split
  · next accepted => exact hasDirectory_insert (hasDirectory_of_accepts accepted)
  · rfl

theorem hasDirectory_move (disk : Disk) (source target : Path) :
    (disk.move source target).2.hasDirectory = disk.hasDirectory := by
  unfold move
  split
  · next text found =>
    split
    · next accepted =>
      have kept := hasDirectory_erase (entry_of_read found)
      have free : hasDirectory ⟨disk.entries.erase source.place⟩ target.place = false := by
        rw [kept]
        exact hasDirectory_of_accepts accepted
      exact (hasDirectory_insert free).trans kept
    · rfl
  · rfl

instance : LawfulMedium Disk where
  read_write_self {disk path text} succeeded := by
    have reached := reaches_congr (hasDirectory_write disk path text) path
    simp only [Medium.write, Medium.read, write] at succeeded reached ⊢
    split at succeeded
    · next accepted => simp_all [read, reaches_of_accepts accepted]
    · simp at succeeded
  read_write_other {disk path other text} different := by
    refine read_congr (hasDirectory_write disk path text) ?_
    simp only [Medium.write, write]
    split <;> simp [Std.ExtTreeMap.getElem?_insert, different.symm]
  read_move_target {disk source target} succeeded := by
    have reached := reaches_congr (hasDirectory_move disk source target) target
    simp only [Medium.move, Medium.read, move] at succeeded reached ⊢
    split at succeeded
    · next text found =>
      split at succeeded
      · next accepted => simp_all [read, reaches_of_accepts accepted]
      · simp at succeeded
    · simp at succeeded
  read_move_other {disk source target other} fromSource fromTarget := by
    refine read_congr (hasDirectory_move disk source target) ?_
    simp only [Medium.move, move]
    split
    · split <;>
        simp [Std.ExtTreeMap.getElem?_insert, Std.ExtTreeMap.getElem?_erase,
          fromSource.symm, fromTarget.symm]
    · rfl
  read_failed_move {disk source target other} failed := by
    simp only [Medium.move, Medium.read, move] at failed ⊢
    split at failed
    · split at failed <;> simp_all
    · rfl

/-! ## Directories -/

def createDirectory (path : Path) : Disk :=
  if disk.reaches path then ⟨disk.entries.insertIfNew path.place .directory⟩ else disk

/-- Removes what is at a path, a directory with its contents. -/
def remove (path : Path) : Disk :=
  ⟨disk.entries.filter fun place _ => !path.place.isSuffixOf place⟩

def names? (path : Path) : Option (List String) :=
  if disk.hasDirectory path.place then
    some (disk.entries.keys.filterMap fun
      | name :: directory => if directory = path.place then some name else none
      | [] => none)
  else none

end Disk

end DocStore

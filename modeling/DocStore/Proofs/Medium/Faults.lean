import DocStore.Medium.Basic

/-!
Media with faults: writing and moving fail wherever a schedule says so. They keep the laws of the
medium below, so that what holds on lawful media holds for every choice of faults.
-/

namespace DocStore

inductive Fault where
  | refused
  /-- Something else is written, as when a write ends early. Nothing is moved. -/
  | torn (text : String)

structure Faulty (σ : Type) where
  medium : σ
  /-- What befalls each of the next writes and moves. Those that come later succeed. -/
  schedule : List (Option Fault)

namespace Faulty

variable {σ : Type} [Medium σ]

def read (faulty : Faulty σ) (path : Path) : Content :=
  Medium.read faulty.medium path

def write (faulty : Faulty σ) (path : Path) (text : String) : Bool × Faulty σ :=
  match faulty.schedule.head?.join with
  | none =>
      let (done, medium) := Medium.write faulty.medium path text
      (done, ⟨medium, faulty.schedule.tail⟩)
  | some .refused => (false, ⟨faulty.medium, faulty.schedule.tail⟩)
  | some (.torn part) => (false, ⟨(Medium.write faulty.medium path part).2, faulty.schedule.tail⟩)

def move (faulty : Faulty σ) (source target : Path) : Bool × Faulty σ :=
  match faulty.schedule.head?.join with
  | none =>
      let (done, medium) := Medium.move faulty.medium source target
      (done, ⟨medium, faulty.schedule.tail⟩)
  | some _ => (false, ⟨faulty.medium, faulty.schedule.tail⟩)

instance : Medium (Faulty σ) where
  read := read
  write := write
  move := move

instance [LawfulMedium σ] : LawfulMedium (Faulty σ) where
  read_write_self {faulty path text} succeeded := by
    simp only [Medium.write, Medium.read, write, read] at succeeded ⊢
    split at succeeded
    · exact LawfulMedium.read_write_self succeeded
    · cases succeeded
    · cases succeeded
  read_write_other {faulty path other text} different := by
    simp only [Medium.write, Medium.read, write, read]
    split
    · exact LawfulMedium.read_write_other different
    · rfl
    · exact LawfulMedium.read_write_other different
  read_move_target {faulty source target} succeeded := by
    simp only [Medium.move, Medium.read, move, read] at succeeded ⊢
    split at succeeded
    · exact LawfulMedium.read_move_target succeeded
    · cases succeeded
  read_move_other {faulty source target other} fromSource fromTarget := by
    simp only [Medium.move, Medium.read, move, read]
    split
    · exact LawfulMedium.read_move_other fromSource fromTarget
    · rfl
  read_failed_move {faulty source target other} failed := by
    simp only [Medium.move, Medium.read, move, read] at failed ⊢
    split at failed
    · exact LawfulMedium.read_failed_move failed
    · rfl

end Faulty

end DocStore

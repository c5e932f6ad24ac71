import DocStore.Medium.Path

/-!
Media, which keep texts by path. A store reads, writes and moves texts on a medium and does not
depend on what the medium is.
-/

namespace DocStore

inductive Content where
  | missing
  | text (text : String)
  | unreadable
deriving DecidableEq, Repr

/-- Writing and moving may fail. They tell whether they succeeded, and what became of the
medium. -/
class Medium (σ : Type) where
  read (medium : σ) (path : Path) : Content
  write (medium : σ) (path : Path) (text : String) : Bool × σ
  move (medium : σ) (source target : Path) : Bool × σ

/-- A medium on which each place stands for itself. What a failed write leaves in its own place is
open; a failed move changes nothing. -/
class LawfulMedium (σ : Type) [Medium σ] : Prop where
  read_write_self {medium : σ} {path : Path} {text : String} :
    (Medium.write medium path text).1 = true →
      Medium.read (Medium.write medium path text).2 path = .text text
  read_write_other {medium : σ} {path other : Path} {text : String} : other.place ≠ path.place →
    Medium.read (Medium.write medium path text).2 other = Medium.read medium other
  read_move_target {medium : σ} {source target : Path} :
    (Medium.move medium source target).1 = true →
      Medium.read (Medium.move medium source target).2 target = Medium.read medium source
  read_move_other {medium : σ} {source target other : Path} :
    other.place ≠ source.place → other.place ≠ target.place →
      Medium.read (Medium.move medium source target).2 other = Medium.read medium other
  read_failed_move {medium : σ} {source target other : Path} :
    (Medium.move medium source target).1 = false →
      Medium.read (Medium.move medium source target).2 other = Medium.read medium other

end DocStore

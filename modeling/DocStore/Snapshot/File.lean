import DocStore.Error
import DocStore.Medium.Basic
import DocStore.Snapshot.Basic

/-!
Snapshots on a medium. A snapshot is written beside its path and then moved there, so that a
fault leaves the old snapshot in place.
-/

namespace DocStore.Snapshot

variable {σ : Type} [Medium σ]

/-- Reads the snapshot at a path. A missing one has no collections. -/
def load (medium : σ) (path : String) : Except StoreError Collections :=
  match Medium.read medium (Path.ofText path) with
  | .missing => .ok ∅
  | .unreadable => .error (.persistence .read path)
  | .text text =>
      match parse? text with
      | some collections => .ok collections
      | none => .error (.persistence .parse path)

/-- Replaces the snapshot at a path. Every document has a text, so that only the medium can fail. -/
def save (medium : σ) (path : String) (collections : Collections) : Except StoreError Unit × σ :=
  let target := Path.ofText path
  match Medium.write medium target.staging (render collections) with
  | (false, medium) => (.error (.persistence .write path), medium)
  | (true, medium) =>
      match Medium.move medium target.staging target with
      | (false, medium) => (.error (.persistence .replace path), medium)
      | (true, medium) => (.ok (), medium)

end DocStore.Snapshot

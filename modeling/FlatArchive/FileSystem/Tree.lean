-- SUMMARY: All that lies below a directory, in one sorted list.
import FlatArchive.FileSystem.Operation

/-!
# Trees

The tree below a directory is listed depth first, the names of each directory sorted by their bytes.
Links are listed and not followed, so that the listing ends: no directory lies below itself.
-/

namespace FlatArchive

inductive TreeItem where
  | directory (path : Path)
  | file (path : Path) (content : Bytes)
  | link (path : Path) (target : Bytes)
  | device (path : Path) (kind : Device)
  deriving Repr, DecidableEq

namespace FileSystem

/-- List what lies at most `depth` directories below `dir`, which is shown as `base`. -/
def treeBelow (fs : FileSystem) : (depth : Nat) → (dir : NodeId) → (base : Path) → List TreeItem
  | 0, _, _ => []
  | depth + 1, dir, base =>
    let sorted := (fs.entries dir).mergeSort fun a b => decide (a.1 ≤ b.1)
    sorted.flatMap fun (name, i) =>
      let path := base.join ⟨name⟩
      match fs.node? i with
      | some (.file content) => [.file path content]
      | some (.link target) => [.link path target]
      | some (.device kind) => [.device path kind]
      | some (.directory ..) => .directory path :: treeBelow fs depth i path
      | none => []

/-- The tree below the working directory. A directory cannot lie deeper than there are nodes. -/
def tree (fs : FileSystem) : List TreeItem := fs.treeBelow fs.nodes.size fs.cwd ⟨[]⟩

end FileSystem

end FlatArchive

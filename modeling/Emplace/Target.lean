import Emplace.Disk.Canonical
import Emplace.Failure

/-!
Where a declared output is written. The path is taken below the output root, links are followed, and
what lies outside the root after that is refused before anything is made.
-/
namespace Emplace

def targetLocation (disk : Disk) (root : Path) (rel : String) : Except Failure Location :=
  match disk.canonical (root.join (Path.ofString rel)) with
  | .error fault => .error (.fault fault)
  | .ok target =>
    match disk.canonical root with
    | .error fault => .error (.fault fault)
    | .ok base =>
      if base.isPrefixOf target then .ok target
      else .error (.reconcile (.outside rel root.text))

/-- The file that a declared path is written to; the directory that it lies in is made. -/
def prepareTarget (disk : Disk) (root : Path) (rel : String) : Disk × Except Failure Path :=
  match targetLocation disk root rel with
  | .error failure => (disk, .error failure)
  | .ok target =>
    let path := Disk.pathOf target
    match disk.ensureDirectory path.parent with
    | (made, .ok ()) => (made, .ok path)
    | (part, .error fault) =>
      (part, .error (fault.blame fun e => .reconcile (.noParent rel e)))

end Emplace

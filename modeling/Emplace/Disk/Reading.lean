import Emplace.Disk.Calls
import Emplace.Text.Lines

/-!
Files read as text: UTF-8, with every line end made a line feed.
-/
namespace Emplace.Disk

def readText (disk : Disk) (path : Path) : Except Fault String :=
  match disk.readBytes path with
  | .error fault => .error fault
  | .ok bytes =>
    match String.fromUTF8? bytes with
    | none => .error .notText
    | some text => .ok (String.ofList (Text.unified text.toList))

end Emplace.Disk

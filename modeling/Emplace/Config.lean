import Emplace.Disk.Reading
import Emplace.Note
import Emplace.Value.Merge
import Emplace.Yaml.Document

/-!
The settings of a run: those of a file over the usual ones. A file that is not there changes
nothing, and neither does an empty one.
-/
namespace Emplace.Config

def usual : Entries := [
  (.text "source_suffixes", .list [.text ".go"]),
  (.text "placeholder", .map [
    (.text "build_tag", .text "ignore"),
    (.text "package", .text "ignore")]),
  (.text "scratch_prefix", .text "go_proto")]

def ofValue (file : String) (value : Value) : Except Failure Entries :=
  if !value.isTrue then .ok usual
  else match value.entries? with
    | some entries => .ok (Value.mergeEntries usual entries)
    | none => .error (.config (.notMapping file value.kind))

def ofText (file text : String) : Except Failure Entries :=
  match Yaml.read text with
  | .error (.problem problem) => .error (.config (.malformed file problem))
  | .error (.fault fault) => .error (.fault fault)
  | .ok value => ofValue file value

def ofFile (disk : Disk) (file : String) : Except Failure (Entries × List Note) :=
  let path := Path.ofString file
  match disk.exists? path with
  | .error fault => .error (.fault fault)
  | .ok false => .ok (usual, [.configMissing file])
  | .ok true =>
    match disk.readText path with
    | .error fault => .error (fault.blame fun e => .config (.unreadable file e))
    | .ok text => (ofText file text).map fun entries => (entries, [])

/-- The settings of a run; without a file they are the usual ones. -/
def load (disk : Disk) : Option String → Except Failure (Entries × List Note)
  | none => .ok (usual, [])
  | some file => if file = "" then .ok (usual, []) else ofFile disk file

end Emplace.Config

import Emplace.Json
import Emplace.Registry
import Emplace.Disk.Calls

/-!
The report of a run: for every record its path, its state and its source, and how often each state
occurs.
-/
namespace Emplace

structure Report where
  importpath : String
  records : List Record
  deriving DecidableEq, Repr

structure Times where
  timestamp : Numeral
  duration : Numeral
  deriving DecidableEq, Repr

namespace Report

def empty (importpath : String) : Report := ⟨importpath, []⟩

def add (report : Report) (group : List Record) : Report :=
  { report with records := report.records ++ group }

/-- Counts one more of a label; a new label comes last. -/
def countLabel (label : String) : List (String × Nat) → List (String × Nat)
  | [] => [(label, 1)]
  | (other, n) :: rest =>
    if other = label then (other, n + 1) :: rest else (other, n) :: countLabel label rest

/-- How often each state occurs, in the order in which they first do. -/
def stateCounts (report : Report) : List (String × Nat) :=
  report.records.foldl (fun counts record => countLabel record.state.label counts) []

def resultJson (record : Record) : Json :=
  .object [
    ("path", .text record.path),
    ("state", .text record.state.label),
    ("source", match record.source with
      | none => .null
      | some source => .text source.text)]

def json (report : Report) (times : Times) : Json :=
  .object [
    ("meta", .object [
      ("timestamp", .number times.timestamp),
      ("duration", .number times.duration),
      ("importpath", .text report.importpath),
      ("total_expected", .number (.ofNat report.records.length))]),
    ("results", .array (report.records.map resultJson)),
    ("stats", .object [
      ("state_counts", .object (report.stateCounts.map fun count =>
        (count.1, .number (.ofNat count.2))))])]

def text (report : Report) (times : Times) : String :=
  (report.json times).render

/-- Writes the report to a file; the directory that it lies in is made. -/
def write (report : Report) (times : Times) (disk : Disk) (file : String) :
    Disk × Except Fault Unit :=
  let path := Path.ofString file
  match disk.ensureDirectory path.parent with
  | (disk, .error fault) => (disk, .error fault)
  | (disk, .ok ()) =>
    match disk.writeBytes path (report.text times).toUTF8 with
    | .error fault => (disk, .error fault)
    | .ok written => (written, .ok ())

end Report
end Emplace

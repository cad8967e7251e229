import Emplace.Disk.Calls
import Emplace.Registry

/-!
Walking the scratch tree. Directories come in ascending order of their names, each with its files
before the directories in it. A directory is made at the same relative path below the output root
before its files are looked at; a link to a directory is neither made nor entered. Every regular
file whose name ends as a source file does is taken into account.
-/
namespace Emplace

/-- One of the endings by which source files are known. A text with halves of surrogate pairs ends
no name; what is no text cannot be tested for. -/
inductive Ending where
  | text (tail : String)
  | broken
  | other
  deriving DecidableEq, Repr

/-- Whether a name has one of the endings; they are tried in order. -/
def hasEnding (name : String) : List Ending → Except Fault Bool
  | [] => .ok false
  | .other :: _ => .error .wrongKind
  | .broken :: rest => hasEnding name rest
  | .text tail :: rest => if Text.endsWith name tail then .ok true else hasEnding name rest

structure Scan where
  scratch : Path
  root : Path
  endings : List Ending

structure Progress where
  disk : Disk
  registry : Registry
  notes : List Note
  seen : Nat

namespace Progress

def told (progress : Progress) (notes : List Note) : Progress :=
  { progress with notes := progress.notes ++ notes }

def take (progress : Progress) (rel : Path) (file : Path) : Progress :=
  let name := rel.text
  let (registry, target) := progress.registry.discover name file
  let fed := match target with
    | none => []
    | some path =>
      match registry.record? path with
      | some record => [.fed name path record.state]
      | none => []
  ⟨progress.disk, registry,
    progress.notes ++ progress.registry.discoverNotes name ++ fed, progress.seen + 1⟩

end Progress

namespace Scan

/-- Whether the entry `name` of the directory `dir`, which lies at `loc`, counts as a directory. The
listing itself says so of a directory; a link is followed by its path, which may be too long. -/
def leadsToDirectory (disk : Disk) (loc : Location) (dir : Path) (name : String) : Bool :=
  match disk.get? (loc ++ [name]) with
  | some .directory => true
  | some (.link _) => (disk.status (dir.entry name) matches .ok .directory)
  | _ => false

def isLink (disk : Disk) (path : Path) : Bool :=
  match disk.locate .self path with
  | .ok (.present _ (.link _)) => true
  | _ => false

/-- Takes the files of a directory into account, in the order given. -/
def visitFiles (scan : Scan) (rel dir : Path) :
    Progress → List String → Progress × Except Failure Unit
  | progress, [] => (progress, .ok ())
  | progress, name :: rest =>
    match hasEnding name scan.endings with
    | .error fault => (progress, .error (.fault fault))
    | .ok false => visitFiles scan rel dir progress rest
    | .ok true =>
      match progress.disk.isFile (dir.entry name) with
      | .error fault => (progress, .error (.fault fault))
      | .ok false => visitFiles scan rel dir progress rest
      | .ok true => visitFiles scan rel dir (progress.take (rel.entry name) (dir.entry name)) rest

/-- Makes the directory `rel` below the output root; the root itself is left to the outputs. -/
def mirror (scan : Scan) (rel : Path) (progress : Progress) : Progress × Except Failure Unit :=
  if rel.names = [] then (progress, .ok ())
  else match progress.disk.ensureDirectory (scan.root.join rel) with
    | (disk, .ok ()) => ({ progress with disk := disk }, .ok ())
    | (disk, .error fault) =>
      ({ progress with disk := disk },
        .error (fault.blame fun e => .reconcile (.notMirrored rel.text e)))

/-- Goes through directories with `visit`, leaving links out, up to the first failure. -/
def visitAll (visit : Path → Progress → Progress × Except Failure Unit)
    (scan : Scan) (rel : Path) : Progress → List String → Progress × Except Failure Unit
  | progress, [] => (progress, .ok ())
  | progress, name :: rest =>
    if isLink progress.disk (scan.scratch.join (rel.entry name)) then
      visitAll visit scan rel progress rest
    else match visit (rel.entry name) progress with
      | (progress, .error failure) => (progress, .error failure)
      | (progress, .ok ()) => visitAll visit scan rel progress rest

/-- Walks the directory `rel` of the scratch tree, at most `depth` directories deep. -/
def visit (scan : Scan) : Nat → Path → Progress → Progress × Except Failure Unit
  | 0, rel, progress =>
    -- A directory that lies this deep has a path that is too long to be read.
    (progress,
      .error (.reconcile (.unreadableScratch (scan.scratch.join rel).text .nameTooLong)))
  | depth + 1, rel, progress =>
    let dir := scan.scratch.join rel
    if Disk.hasNull dir then (progress, .error (.fault .nullByte))
    else match progress.disk.list dir with
    | .error cause => (progress, .error (.reconcile (.unreadableScratch dir.text cause)))
    | .ok (loc, names) =>
      let (dirs, files) := (Sorting.sorted names).partition (leadsToDirectory progress.disk loc dir)
      match scan.mirror rel progress with
      | (progress, .error failure) => (progress, .error failure)
      | (progress, .ok ()) =>
        match scan.visitFiles rel dir progress files with
        | (progress, .error failure) => (progress, .error failure)
        | (progress, .ok ()) => visitAll (visit scan depth) scan rel progress dirs

def run (scan : Scan) (disk : Disk) (registry : Registry) : Progress × Except Failure Unit :=
  -- Each directory makes the path longer by two bytes or more, so the limit on paths bounds the depth.
  scan.visit (Disk.pathLimit + 1) ⟨.here, []⟩ ⟨disk, registry, [], 0⟩

end Scan
end Emplace

import Emplace.Disk
import Emplace.Fault

/-!
Following a path on a disk. Every name but the last has to lead to a directory, links are followed
on the way, and no more than forty links are followed in one go.
-/
namespace Emplace.Disk

def nameLimit : Nat := 255

def pathLimit : Nat := 4095

def linkLimit : Nat := 40

inductive Spot where
  | present (loc : Location) (entry : Entry)
  | absent (dir : Location) (name : String)

inductive Reach where
  | spot (spot : Spot)
  | refused (cause : Cause)
  /-- A link in the directory `dir`, and the names that are left behind it. -/
  | link (dir : Location) (target : String) (rest : List String)

inductive Aim where
  /-- The entry itself, even where it is a link. -/
  | self
  | target
  /-- A file that is written and made if it is not there; its name cannot ask for a directory. -/
  | writing
  deriving DecidableEq, Repr

def descend (disk : Disk) (aim : Aim) : Location → List String → Reach
  | dir, [] => .spot (.present dir .directory)
  | dir, name :: rest =>
    if name = "." ∨ name = "" then descend disk aim dir rest
    else if name = ".." then descend disk aim dir.dropLast rest
    else if nameLimit < name.utf8ByteSize then .refused .nameTooLong
    else if aim = .writing ∧ rest = [""] then .refused .isDirectory
    else match disk.get? (dir ++ [name]) with
      | none => if rest.all (· = "") then .spot (.absent dir name) else .refused .noEntry
      | some .directory => descend disk aim (dir ++ [name]) rest
      | some (.link target) =>
        -- A link at the end is not followed where the aim is the entry itself.
        if rest = [] ∧ aim = .self then .spot (.present (dir ++ [name]) (.link target))
        else .link dir target rest
      | some entry =>
        if rest = [] then .spot (.present (dir ++ [name]) entry) else .refused .notDirectory

def startOf (dir : Location) (path : Path) : Location :=
  match path.anchor with
  | .here => dir
  | _ => []

def chase (disk : Disk) (aim : Aim) : Nat → Location → List String → Except Cause Spot
  | links, dir, names =>
    match disk.descend aim dir names with
    | .spot spot => .ok spot
    | .refused cause => .error cause
    | .link base target rest =>
      match links with
      | 0 => .error .tooManyLinks
      | links + 1 =>
        let path := Path.raw target
        chase disk aim links (startOf base path) (path.names ++ rest)

def locate (disk : Disk) (aim : Aim) (path : Path) : Except Cause Spot :=
  if pathLimit < path.text.utf8ByteSize then .error .nameTooLong
  else chase disk aim linkLimit (startOf disk.cwd path) path.names

def status (disk : Disk) (path : Path) : Except Cause Entry :=
  match disk.locate .target path with
  | .error cause => .error cause
  | .ok (.present _ entry) => .ok entry
  | .ok (.absent _ _) => .error .noEntry

end Emplace.Disk

import Emplace.Disk.Calls
import Emplace.Path.Absolute
import Emplace.Text.Octets

/-!
The directory that the compiler writes to. It is made under a name that was free before and is
removed with everything in it when a run ends; what links in it lead to is left alone.
-/
namespace Emplace

structure Scratch where
  path : String
  /-- The path as bytes, where its name was asked for as bytes. -/
  asBytes : Option (List UInt8)
  deriving DecidableEq, Repr

namespace Scratch

inductive Start where
  | text (start : String)
  /-- A text by its bytes, some of which are part of no character. -/
  | escaped (start : List UInt8)
  | bytes (start : List UInt8)
  deriving DecidableEq, Repr

def named (place : String) (start : Start) (tail : String) : Scratch :=
  match start with
  | .text start => ⟨Path.under place (start ++ tail), none⟩
  | .escaped start =>
    ⟨Text.ofOctets (Path.under (Text.asOctets place) (Text.octets start ++ tail)), none⟩
  | .bytes start =>
    let path := Path.under (Text.asOctets place) (Text.octets start ++ tail)
    ⟨Text.ofOctets path, some (Text.octetBytes path)⟩

def refused (scratch : Scratch) (cause : Cause) : Fault :=
  match scratch.asBytes with
  | none => .system ⟨cause, scratch.path⟩
  | some bytes => .systemBytes cause bytes

/-- The path as the compiler is told it, seen from the directory `cwd`; one of bytes is shown as
bytes. -/
def told (scratch : Scratch) (cwd : String) : String :=
  match scratch.asBytes with
  | none => Path.usable .other cwd scratch.path
  | some bytes => Text.quotedBytes (Text.octetBytes (Path.usable .other cwd (Text.octets bytes)))

/-- Makes a directory in the directory `place`. Its name starts with `start` and ends with the first
of some tails that gives a free name. -/
def make (disk : Disk) (place : String) (start : Start) :
    List String → Except Fault (Disk × Scratch)
  | [] => .error .noFreshName
  | tail :: rest =>
    let scratch := named place start tail
    let path := Path.raw scratch.path
    if Disk.hasNull path then .error .nullByte
    else match disk.locate .self path with
      | .error cause => .error (scratch.refused cause)
      | .ok (.present _ _) => make disk place start rest
      | .ok (.absent dir name) => .ok (disk.put (dir ++ [name]) .directory, scratch)

/-- The disk once the directory is removed, where it is not gone by itself. -/
def remove (scratch : Scratch) (disk : Disk) : Except Fault Disk :=
  let path := Path.raw scratch.path
  match disk.locate .self path with
  | .ok (.present loc .directory) => .ok (disk.erase loc)
  | .ok (.present _ (.link _)) =>
    match disk.status path with
    | .ok _ => .error .linkToRemove
    -- A link that leads nowhere is left where it is.
    | .error .noEntry => .ok disk
    | .error cause => .error (scratch.refused cause)
  | .ok (.present _ _) => .error (scratch.refused .notDirectory)
  | .ok (.absent _ _) => .ok disk
  | .error .noEntry => .ok disk
  | .error cause => .error (scratch.refused cause)

end Scratch
end Emplace

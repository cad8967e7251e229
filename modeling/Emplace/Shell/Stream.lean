import Emplace.Disk.Calls

/-!
What commands read from and write to. A handle is an open file or a stream of bytes; descriptors are
numbers for handles, and several of them may share one.
-/
namespace Emplace.Shell

inductive Medium where
  | sink
  | source
  | file (loc : Location)
  | nothing
  deriving DecidableEq, Repr

structure Handle where
  medium : Medium
  /-- The bytes of a sink, last first, or those that a source still has. -/
  content : List UInt8
  position : Nat
  behind : Bool

namespace Handle

def sink : Handle := ⟨.sink, [], 0, false⟩

def source (bytes : List UInt8) : Handle := ⟨.source, bytes, 0, false⟩

def file (loc : Location) (behind : Bool) : Handle := ⟨.file loc, [], 0, behind⟩

def nothing : Handle := ⟨.nothing, [], 0, false⟩

end Handle

/-- The bytes of a file with others written over them from a position on. -/
def overwritten (old : ByteArray) (position : Nat) (bytes : List UInt8) : ByteArray :=
  let gap := List.replicate (position - old.size) (0 : UInt8)
  old.extract 0 position ++ ByteArray.mk (gap ++ bytes).toArray
    ++ old.extract (position + bytes.length) old.size

def Handle.write (handle : Handle) (disk : Disk) (bytes : List UInt8) : Handle × Disk :=
  match handle.medium with
  | .sink => ({ handle with content := bytes.reverse ++ handle.content }, disk)
  | .source => (handle, disk)
  | .nothing => (handle, disk)
  | .file loc =>
    match disk.get? loc with
    | some (.file old executable) =>
      let start := if handle.behind then old.size else handle.position
      ({ handle with position := start + bytes.length },
        disk.put loc (.file (overwritten old start bytes) executable))
    | _ => (handle, disk)

def Handle.available (handle : Handle) (disk : Disk) : List UInt8 :=
  match handle.medium with
  | .source => handle.content
  | .file loc =>
    match disk.get? loc with
    | some (.file bytes _) => (bytes.extract handle.position bytes.size).toList
    | _ => []
  | _ => []

def Handle.skip (handle : Handle) (count : Nat) : Handle :=
  match handle.medium with
  | .source => { handle with content := handle.content.drop count }
  | .file _ => { handle with position := handle.position + count }
  | _ => handle

end Emplace.Shell

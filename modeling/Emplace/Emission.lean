import Emplace.Placeholder
import Emplace.Registry
import Emplace.Target

/-!
Writing the declared outputs. Records come in ascending order of their paths; a matched one is
copied from its source, an unmatched one gets a stand-in file, an ambiguous one is left out and
reported at the end together with all others. Any other failure ends the emission where it is, and
what was written before stays.
-/
namespace Emplace

structure Emission where
  root : Path
  placeholderRoot : Path
  words : Placeholder
  importpath : String

/-- Counts one more of a key; a new key comes last. -/
def countOne {Key : Type} [DecidableEq Key] (key : Key) : List (Key × Nat) → List (Key × Nat)
  | [] => [(key, 1)]
  | (other, n) :: rest =>
    if other = key then (other, n + 1) :: rest else (other, n) :: countOne key rest

structure Emitted where
  counts : List (MatchState × Nat)
  ambiguous : List String
  deriving DecidableEq, Repr

namespace Emission

def writePlaceholder (disk : Disk) (root : Path) (words : Placeholder) (rel : String) :
    Disk × Except Failure Unit :=
  match prepareTarget disk root rel with
  | (disk, .error failure) => (disk, .error failure)
  | (disk, .ok target) =>
    match words.content with
    | .error fault => (disk, .error (.fault fault))
    | .ok content =>
      match disk.writeBytes target content.toUTF8 with
      | .ok written => (written, .ok ())
      | .error fault => (disk, .error (fault.blame fun e => .reconcile (.noPlaceholder rel e)))

def copySource (disk : Disk) (root : Path) (source : Option Path) (rel : String) :
    Disk × Except Failure Unit :=
  match source with
  | none => (disk, .error (.reconcile (.noSource rel)))
  | some source =>
    match prepareTarget disk root rel with
    | (disk, .error failure) => (disk, .error failure)
    | (disk, .ok target) =>
      let stage := fun e => Failure.reconcile (.notCopied source.text rel e)
      match disk.readBytes source with
      | .error fault => (disk, .error (fault.blame stage))
      | .ok bytes =>
        match disk.writeBytes target bytes with
        | .ok written => (written, .ok ())
        | .error fault => (disk, .error (fault.blame stage))

def writeRecord (plan : Emission) (disk : Disk) (record : Record) : Disk × Except Failure Unit :=
  match record.state with
  -- Ambiguous records are only listed in the end.
  | .ambiguous => (disk, .ok ())
  | .unmatched => writePlaceholder disk plan.placeholderRoot plan.words record.path
  | _ => copySource disk plan.root record.source record.path

def recordNotes (record : Record) : List Note :=
  match record.state with
  | .unmatched => [.substituted record.path]
  | _ => []

def Emitted.add (found : Emitted) (record : Record) : Emitted :=
  ⟨countOne record.state found.counts,
    if record.state = .ambiguous then found.ambiguous ++ [record.path] else found.ambiguous⟩

/-- Writes the outputs of records in order, up to the first failure. -/
def writeRecords (plan : Emission) :
    Disk → Emitted → List Record → Disk × List Note × Except Failure Emitted
  | disk, found, [] => (disk, [], .ok found)
  | disk, found, record :: rest =>
    match plan.writeRecord disk record with
    | (disk, .error failure) => (disk, recordNotes record, .error failure)
    | (disk, .ok ()) =>
      let (disk, notes, result) := writeRecords plan disk (Emitted.add found record) rest
      (disk, recordNotes record ++ notes, result)

/-- Writes the outputs of all declared paths and counts their states, or reports all ambiguous
paths. -/
def emit (plan : Emission) (disk : Disk) (registry : Registry) :
    Disk × List Note × Except Failure (List (MatchState × Nat)) :=
  match plan.writeRecords disk ⟨[], []⟩ registry.expectedRecords with
  | (disk, notes, .error failure) => (disk, notes, .error failure)
  | (disk, notes, .ok found) =>
    match found.ambiguous with
    | [] => (disk, notes, .ok found.counts)
    | paths => (disk, notes, .error (.reconcile (.ambiguous paths plan.importpath)))

end Emission
end Emplace

import Emplace.Emission
import Emplace.Scan

/-!
The produced files of a scratch tree against the declared outputs: the tree is walked into the
registry, then every declared output is written.
-/
namespace Emplace

structure Reconciliation where
  scratch : Path
  root : Path
  endings : List Ending
  placeholderRoot : Path
  words : Placeholder
  importpath : String

structure Reconciled where
  disk : Disk
  registry : Registry
  notes : List Note
  result : Except Failure Unit

namespace Reconciliation

def standardEndings : List Ending := [.text ".go"]

def scan (plan : Reconciliation) : Scan :=
  ⟨plan.scratch, plan.root, plan.endings⟩

def emission (plan : Reconciliation) : Emission :=
  ⟨plan.root, plan.placeholderRoot, plan.words, plan.importpath⟩

def run (plan : Reconciliation) (disk : Disk) (registry : Registry) : Reconciled :=
  match plan.scan.run disk registry with
  | (progress, .error failure) =>
    ⟨progress.disk, progress.registry, progress.notes, .error failure⟩
  | (progress, .ok ()) =>
    let declared := progress.registry.expectedRecords.length
    let scanned := progress.notes ++ [.scanned progress.seen declared]
    match plan.emission.emit progress.disk progress.registry with
    | (disk, notes, .error failure) =>
      ⟨disk, progress.registry, scanned ++ notes, .error failure⟩
    | (disk, notes, .ok counts) =>
      ⟨disk, progress.registry, scanned ++ notes ++ [.reconciled plan.importpath counts], .ok ()⟩

def runDeclared (plan : Reconciliation) (disk : Disk) (paths : List String) : Reconciled :=
  let outcome := plan.run disk (Registry.declare paths)
  { outcome with notes := Registry.declareNotes paths ++ outcome.notes }

end Reconciliation
end Emplace

import Emplace.Compiler
import Emplace.Config
import Emplace.Invocation
import Emplace.Log
import Emplace.Reconciliation
import Emplace.Report
import Emplace.Request
import Emplace.Scratch
import Emplace.Settings

/-!
A whole run: the settings are read, the output root and a scratch directory are made, the compiler
writes into the scratch directory, and what it has written is put in the places of the declared
outputs. A report is written where one is asked for and the outputs were looked for, whether they
were all found or not. The scratch directory is gone at the end of every run.
-/
namespace Emplace

structure Surroundings where
  launch : Launcher
  temporary : String
  /-- The tails to try for the name of a scratch directory, in order. -/
  tails : List String
  times : Times

structure Ran where
  disk : Disk
  output : String
  log : List Said
  result : Except Failure Unit

namespace Ran

def stopped (disk : Disk) (failure : Failure) : Ran :=
  ⟨disk, "", [], .error failure⟩

def after (notes : List Note) (ran : Ran) : Ran :=
  { ran with log := notes.map .note ++ ran.log }

def without (scratch : Scratch) (ran : Ran) : Ran :=
  match scratch.remove ran.disk with
  | .ok disk => { ran with disk }
  -- The run fails with the removal, however it ended before.
  | .error fault => { ran with result := .error (.fault fault) }

end Ran

def Request.invocation (request : Request) (scratch : String) : Invocation where
  plugin := request.plugin
  scratch := scratch
  options := request.options
  imports := request.imports
  descriptorSets := request.descriptorSets
  includes := request.includes
  sources := request.sources
  leading := request.leading

namespace Compilation

def reportFile? (request : Request) : Option String :=
  request.report.filter (· != "")

def isReportable : Except Failure Unit → Bool
  | .ok () => true
  | .error (.reconcile _) => true
  | .error _ => false

def writeReport (times : Times) (importpath file : String) (disk : Disk) (registry : Registry) :
    Disk × Except Failure Unit :=
  let report := (Report.empty importpath).add registry.expectedRecords
  match report.write times disk file with
  | (disk, .ok ()) => (disk, .ok ())
  | (disk, .error fault) => (disk, .error (fault.blame fun e => .reconcile (.noReport file e)))

def withReport (times : Times) (importpath file : String) (outcome : Reconciled) : Reconciled :=
  match writeReport times importpath file outcome.disk outcome.registry, outcome.result with
  | (disk, .ok ()), result =>
    ⟨disk, outcome.registry, outcome.notes ++ [.reportWritten file], result⟩
  -- Where both fail, the failure of the report is only told.
  | (disk, .error (.reconcile e)), .error failure =>
    ⟨disk, outcome.registry, outcome.notes ++ [.reportFailed e], .error failure⟩
  | (disk, .error failure), _ =>
    ⟨disk, outcome.registry, outcome.notes, .error failure⟩

def reported (times : Times) (request : Request) (outcome : Reconciled) : Reconciled :=
  match reportFile? request with
  | none => outcome
  | some file =>
    if isReportable outcome.result then withReport times request.importpath file outcome
    else outcome

def inScratch (around : Surroundings) (request : Request) (root : Path) (endings : List Ending)
    (words : Placeholder) (scratch : Scratch) (disk : Disk) : Ran :=
  let cwd := (Disk.pathOf disk.cwd).text
  let place := scratch.told cwd
  let arguments := (request.invocation place).arguments .other cwd
  let compiled := Compiler.run around.launch disk request.compiler arguments
  let log : List Said :=
    [.note (.running (Compiler.commandText request.compiler arguments)),
      .passedOn compiled.complaint]
  match compiled.result, scratch.asBytes with
  | .error failure, _ => ⟨compiled.disk, compiled.output, log, .error failure⟩
  -- A path of bytes is good enough for the compiler, but not for what comes after it.
  | .ok (), some _ => ⟨compiled.disk, compiled.output, log, .error (.fault .wrongKind)⟩
  | .ok (), none =>
    let plan : Reconciliation :=
      ⟨Path.ofString place, root, endings, root, words, request.importpath⟩
    let outcome :=
      reported around.times request (plan.runDeclared compiled.disk request.expected)
    ⟨outcome.disk, compiled.output, log ++ outcome.notes.map .note, outcome.result⟩

def makeRoot (disk : Disk) (outPath : String) : Disk × Except Failure Path :=
  let root := Path.ofString (Path.usable .other (Disk.pathOf disk.cwd).text outPath)
  match disk.ensureDirectory root with
  | (disk, .ok ()) => (disk, .ok root)
  | (disk, .error fault) =>
    (disk, .error (fault.blame fun e => .reconcile (.outputRoot root.text e)))

def inRoot (around : Surroundings) (request : Request) (settings : Entries)
    (endings : List Ending) (root : Path) (disk : Disk) : Ran :=
  match Settings.words settings with
  | .error fault => .stopped disk (.fault fault)
  | .ok words =>
    match Settings.scratchStart settings with
    | .error fault => .stopped disk (.fault fault)
    | .ok start =>
      match Scratch.make disk around.temporary start around.tails with
      | .error fault => .stopped disk (.fault fault)
      | .ok (disk, scratch) =>
        (inScratch around request root endings words scratch disk).without scratch

def withSettings (around : Surroundings) (request : Request) (settings : Entries) (disk : Disk) :
    Ran :=
  match Settings.endings settings with
  | .error fault => .stopped disk (.fault fault)
  | .ok endings =>
    match makeRoot disk request.outPath with
    | (disk, .error failure) => .stopped disk failure
    | (disk, .ok root) => inRoot around request settings endings root disk

def run (around : Surroundings) (disk : Disk) (request : Request) : Ran :=
  match Config.load disk request.config with
  | .error failure => .stopped disk failure
  | .ok (settings, notes) => (withSettings around request settings disk).after notes

end Compilation
end Emplace

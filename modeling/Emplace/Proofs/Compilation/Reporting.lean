import Emplace.Proofs.Compilation.Lifetime
import Emplace.Proofs.Reconciliation.Refusing

/-!
The report of a run. It is written once, after the reconciliation and from the registry that the
reconciliation ended with, and its own failure never takes the place of another one.
-/
namespace Emplace

open Disk Registry

/-- A report with one result for each of some paths, in ascending order, as a registry knows them. -/
structure Report.Lists (report : Report) (declared : List String) (registry : Registry) :
    Prop where
  ascending : report.records.Pairwise fun a b => a.path < b.path
  declared : ∀ path, (∃ record ∈ report.records, record.path = path) ↔ path ∈ declared
  known : ∀ record ∈ report.records, registry.record? record.path = some record

theorem Registry.Tracks.lists {declared : List String} {files : List (String × Path)}
    {registry : Registry} (tracks : Tracks declared files registry) (importpath : String) :
    ((Report.empty importpath).add registry.expectedRecords).Lists declared registry where
  ascending := tracks.expectedRecords_ascending
  declared := by
    intro path
    constructor
    · rintro ⟨record, listed, rfl⟩
      obtain ⟨path, member, rfl⟩ := (tracks.mem_expectedRecords record).mp listed
      exact member
    · intro member
      exact ⟨_, (tracks.mem_expectedRecords _).mpr ⟨path, member, rfl⟩, rfl⟩
  known := by
    intro record listed
    obtain ⟨path, member, rfl⟩ := (tracks.mem_expectedRecords record).mp listed
    exact (tracks.records path).trans (if_pos member)

/-- The registry that a reconciliation ends with has taken the files that were found into account,
however it ends. -/
theorem Reconciliation.runDeclared_tracks (plan : Reconciliation) (disk : Disk)
    (declared : List String) :
    ∃ files, Tracks declared files (plan.runDeclared disk declared).registry := by
  have same : (plan.runDeclared disk declared).registry =
      (plan.scan.run disk (declare declared)).1.registry := run_registry plan disk _
  have fed : (declare declared).Fed (plan.scan.run disk (declare declared)).1.registry :=
    (Scan.keeps_fed plan.scan (declare declared)).run ⟨[], rfl, by simp⟩
  obtain ⟨files, taken, _⟩ := fed
  rw [same, taken]
  exact ⟨files, tracks_discoverAll declared files⟩

/-- A report that cannot be written is refused by the system, or for a path that it cannot be given. -/
theorem Report.write_kind {Kind : Fault → Prop} {report : Report} {times : Times} {disk : Disk}
    {file : String} {fault : Fault} (system : ∀ e, Kind (.system e))
    (null : hasNull (Path.ofString file) = true → Kind .nullByte)
    (failed : (report.write times disk file).2 = .error fault) : Kind fault := by
  unfold write at failed
  dsimp only at failed
  rcases made : disk.ensureDirectory (Path.ofString file).parent with ⟨next, cause | _⟩
  · simp only [made, Except.error.injEq] at failed
    subst failed
    refine ensureDirectory_kind system (fun refused => null ?_) (by rw [made])
    by_contra clear
    rw [hasNull_parent (Bool.eq_false_iff.mpr clear)] at refused
    cases refused
  · simp only [made] at failed
    split at failed
    · rename_i cause refused
      cases failed
      exact answer_kind system null refused
    · cases failed

theorem Report.write_fault {report : Report} {times : Times} {disk : Disk} {file : String}
    {fault : Fault} (clear : '\x00' ∉ file.toList)
    (failed : (report.write times disk file).2 = .error fault) : ∃ e, fault = .system e :=
  Report.write_kind fromSystem (fun null => by simp [hasNull_ofString clear] at null) failed

namespace Compilation

/-- The ways in which the report of a reconciliation can go: it is written; or it is not, which is
told where the reconciliation has failed already and is a failure of its own where it has not. -/
inductive Reports (file : String) (outcome : Reconciled) (written : Disk × Except Fault Unit) :
    Reconciled → Prop where
  | written : written.2 = .ok () → Reports file outcome written
      ⟨written.1, outcome.registry, outcome.notes ++ [.reportWritten file], outcome.result⟩
  | told (e : SystemError) (failure : Failure) : written.2 = .error (.system e) →
      outcome.result = .error failure → Reports file outcome written
        ⟨written.1, outcome.registry, outcome.notes ++ [.reportFailed (.noReport file e)],
          .error failure⟩
  | failed (e : SystemError) : written.2 = .error (.system e) → outcome.result = .ok () →
      Reports file outcome written
        ⟨written.1, outcome.registry, outcome.notes, .error (.reconcile (.noReport file e))⟩

variable {around : Surroundings} {request : Request} {disk start : Disk} {scratch : Scratch}
  {ran : Ran} {plan : Reconciliation} {file : String} {outcome : Reconciled}

theorem withReport_reports (times : Times) (importpath : String) (outcome : Reconciled)
    (clear : '\x00' ∉ file.toList) :
    Reports file outcome (((Report.empty importpath).add outcome.registry.expectedRecords).write
      times outcome.disk file) (withReport times importpath file outcome) := by
  unfold withReport writeReport
  dsimp only
  rcases written : ((Report.empty importpath).add outcome.registry.expectedRecords).write times
    outcome.disk file with ⟨after, fault | _⟩
  · obtain ⟨e, rfl⟩ := Report.write_fault clear (by rw [written])
    cases result : outcome.result with
    | error failure => exact .told e failure rfl result
    | ok => exact .failed e rfl result
  · exact .written rfl

/-- A reconciliation that failed is not hidden by its report, and one that returned fails only with
its report. -/
theorem Reports.precedence {written : Disk × Except Fault Unit} {final : Reconciled}
    (reports : Reports file outcome written final) :
    final.disk = written.1 ∧
    (final.result = .ok () ↔ outcome.result = .ok () ∧ written.2 = .ok ()) ∧
    (∀ failure, outcome.result = .error failure → final.result = .error failure ∧
      ∀ fault, written.2 = .error fault →
        ∃ e, fault = .system e ∧ .reportFailed (.noReport file e) ∈ final.notes) ∧
    ∀ fault, outcome.result = .ok () → written.2 = .error fault →
      ∃ e, fault = .system e ∧ final.result = .error (.reconcile (.noReport file e)) := by
  cases reports with
  | written stored => simp [stored]
  | told e failure refused failed => simp [refused, failed]
  | failed e refused passed => simp [refused, passed]

/-- A run that comes to its reconciliation: what it works with, the disk that the compiler has left,
the scratch directory, and what the run comes to while that is there. -/
inductive Reconciles (around : Surroundings) (disk : Disk) (request : Request) :
    Reconciliation → Disk → Scratch → Ran → Prop where
  | intro {settings : Entries} {notes : List Note} {endings : List Ending} {root : Path}
      {words : Placeholder} {start : Scratch.Start} {before made : Disk} {scratch : Scratch} :
      Config.load disk request.config = .ok (settings, notes) →
      Settings.endings settings = .ok endings →
      makeRoot disk request.outPath = (before, .ok root) →
      Settings.words settings = .ok words → Settings.scratchStart settings = .ok start →
      Scratch.make before around.temporary start around.tails = .ok (made, scratch) →
      (Compiler.run around.launch made request.compiler
        ((request.invocation (scratch.told (pathOf made.cwd).text)).arguments .other
          (pathOf made.cwd).text)).result = .ok () →
      scratch.asBytes = none →
      Reconciles around disk request
        ⟨Path.ofString (scratch.told (pathOf made.cwd).text), root, endings, root, words,
          request.importpath⟩
        (compiledDisk around request scratch made) scratch
        (inScratch around request root endings words scratch made)

theorem Reconciles.opens (reconciles : Reconciles around disk request plan start scratch ran) :
    ∃ before made, Opens around disk request before made scratch ran := by
  cases reconciles with
  | intro loaded endings root words begins fresh _ _ =>
      exact ⟨_, _, .intro loaded endings root words begins fresh⟩

/-- What such a run comes to is its reconciliation with the report on it. -/
theorem Reconciles.ran_eq (reconciles : Reconciles around disk request plan start scratch ran) :
    let outcome := reported around.times request (plan.runDeclared start request.expected)
    ran.disk = outcome.disk ∧ ran.result = outcome.result ∧
      ∀ note ∈ outcome.notes, .note note ∈ ran.log := by
  cases reconciles with
  | @intro _ _ endings root words _ _ made _ _ _ _ _ _ _ compiled text =>
      have left : _ = compiledDisk around request scratch made :=
        compilerRun_disk around.launch made request.compiler _
      simp only [inScratch, compiled, text, left, true_and]
      exact fun note member => List.mem_append_right _ (List.mem_map_of_mem member)

/-- The end of such a run: its scratch directory is removed, and only where that fails does the run
end in another way. -/
theorem Reconciles.run_eq (reconciles : Reconciles around disk request plan start scratch ran) :
    (∀ after, scratch.remove ran.disk = .ok after →
      (run around disk request).result = ran.result ∧ (run around disk request).disk = after) ∧
    ∀ fault, scratch.remove ran.disk = .error fault →
      (run around disk request).result = .error (.fault fault) := by
  obtain ⟨before, made, opens⟩ := reconciles.opens
  obtain ⟨notes, whole⟩ := opens.run_eq
  rw [whole, Ran.without]
  constructor
  · intro after removed
    rw [removed]
    exact ⟨rfl, rfl⟩
  · intro fault refused
    rw [refused]
    rfl

/-- Whatever a reconciliation ends with, the report that is asked for is written once, after it, from
the registry that it ended with. The run fails with the reconciliation if that failed, else with the
report if that failed; a report that fails after a reconciliation that failed is told. Without a
report the run ends like the reconciliation. The removal of the scratch directory comes last, and
only its own failure changes the end. -/
theorem run_reports (reconciles : Reconciles around disk request plan start scratch ran) :
    let outcome := plan.runDeclared start request.expected
    let report := (Report.empty request.importpath).add outcome.registry.expectedRecords
    report.Lists request.expected outcome.registry ∧
    (reportFile? request = none → ran.disk = outcome.disk ∧ ran.result = outcome.result) ∧
    (∀ file, reportFile? request = some file → '\x00' ∉ file.toList →
      isReportable outcome.result →
      let written := report.write around.times outcome.disk file
      ran.disk = written.1 ∧
      (ran.result = .ok () ↔ outcome.result = .ok () ∧ written.2 = .ok ()) ∧
      (∀ failure, outcome.result = .error failure → ran.result = .error failure ∧
        ∀ fault, written.2 = .error fault →
          ∃ e, fault = .system e ∧ .note (.reportFailed (.noReport file e)) ∈ ran.log) ∧
      ∀ fault, outcome.result = .ok () → written.2 = .error fault →
        ∃ e, fault = .system e ∧ ran.result = .error (.reconcile (.noReport file e))) ∧
    (∀ after, scratch.remove ran.disk = .ok after →
      (run around disk request).result = ran.result ∧ (run around disk request).disk = after) ∧
    ∀ fault, scratch.remove ran.disk = .error fault →
      (run around disk request).result = .error (.fault fault) := by
  intro outcome report
  obtain ⟨files, tracks⟩ := plan.runDeclared_tracks start request.expected
  obtain ⟨left, result, told⟩ := reconciles.ran_eq
  refine ⟨tracks.lists request.importpath, fun none => ?_, fun file wanted clear reportable => ?_,
    reconciles.run_eq⟩
  · simp only [reported, none] at left result
    exact ⟨left, result⟩
  · have same : reported around.times request outcome =
        withReport around.times request.importpath file outcome := by
      simp [reported, wanted, reportable]
    obtain ⟨disk, ended, kept, raised⟩ :=
      (withReport_reports around.times request.importpath outcome clear).precedence
    rw [same] at left result told
    rw [left, result]
    refine ⟨disk, ended, fun failure failed => ⟨(kept failure failed).1, ?_⟩, raised⟩
    intro fault refused
    obtain ⟨e, system, noted⟩ := (kept failure failed).2 fault refused
    exact ⟨e, system, told _ noted⟩

def litterPlan : Reconciliation :=
  ⟨Path.ofString "/tmp/go_proto1", Path.ofString "/w/out", Reconciliation.standardEndings,
    Path.ofString "/w/out", .standard, "example"⟩

def littered : Disk :=
  (litterDisk.put ["w", "out"] .directory).put ["tmp", "go_proto1"] .directory

def reportRequest (expected file : String) : Request :=
  { litterRequest with expected := [expected], report := some file }

/-- What is around a run whose compiler leaves the given disk and ends well. -/
def leaving (left : Disk) : Surroundings :=
  { litterAround with launch := fun _ _ _ => (left, .ok ⟨0, [], []⟩) }

theorem reconciles_leaving (left : Disk) (expected file : String) :
    Reconciles (leaving left) litterDisk (reportRequest expected file) litterPlan left
      ⟨"/tmp/go_proto1", none⟩
      (inScratch (leaving left) (reportRequest expected file) litterPlan.root litterPlan.endings
        litterPlan.words ⟨"/tmp/go_proto1", none⟩ littered) := by
  have rooted : makeRoot litterDisk "out" =
      (litterDisk.put ["w", "out"] .directory, .ok litterPlan.root) := by decide +kernel
  have endings : Settings.endings Config.usual = .ok litterPlan.endings := by decide +kernel
  have words : Settings.words Config.usual = .ok litterPlan.words := rfl
  have start : Settings.scratchStart Config.usual = .ok (.text "go_proto") := by decide +kernel
  have fresh : Scratch.make (litterDisk.put ["w", "out"] .directory) "/tmp" (.text "go_proto")
      ["1"] = .ok (littered, ⟨"/tmp/go_proto1", none⟩) := by decide +kernel
  have reconciles : Reconciles (leaving left) litterDisk (reportRequest expected file) _ _ _ _ :=
    .intro rfl endings rooted words start fresh rfl rfl
  exact reconciles

/-- Two files of one name in the scratch directory. -/
def twinned : Disk :=
  (((littered.put ["tmp", "go_proto1", "q"] .directory).put
    ["tmp", "go_proto1", "q", "x.go"] (.file ⟨#[1]⟩ false)).put
    ["tmp", "go_proto1", "r"] .directory).put
    ["tmp", "go_proto1", "r", "x.go"] (.file ⟨#[2]⟩ false)

/-- Where the report fails as well, the two files are what the run ends with. -/
theorem run_reports_twins :
    (run (leaving twinned) litterDisk (reportRequest "p/x.go" "/keep/a/report.json")).result =
      .error (.reconcile (.ambiguous ["p/x.go"] "example")) := by
  obtain ⟨-, -, reports, removes, -⟩ :=
    run_reports (reconciles_leaving twinned "p/x.go" "/keep/a/report.json")
  have failed := (reports "/keep/a/report.json" rfl (by decide) (by decide +kernel)).2.2.1
    (.reconcile (.ambiguous ["p/x.go"] "example")) (by decide +kernel)
  exact (removes _ rfl).1.trans failed.1

/-- A link in the place of the scratch directory. -/
def swapped : Disk :=
  (littered.erase ["tmp", "go_proto1"]).put ["tmp", "go_proto1"] (.link "../keep")

/-- Behind such a link everything is put in place and reported, but the link is not removed. -/
theorem run_unreturned_swap :
    let outcome := litterPlan.runDeclared swapped ["x.go"]
    (∃ ran, Reconciles (leaving swapped) litterDisk (reportRequest "x.go" "report.json") litterPlan
      swapped ⟨"/tmp/go_proto1", none⟩ ran) ∧
    reportFile? (reportRequest "x.go" "report.json") = some "report.json" ∧
    outcome.result = .ok () ∧
    (((Report.empty "example").add outcome.registry.expectedRecords).write ⟨0, 0⟩ outcome.disk
      "report.json").2 = .ok () ∧
    (run (leaving swapped) litterDisk (reportRequest "x.go" "report.json")).result =
      .error (.fault .linkToRemove) := by
  intro outcome
  refine ⟨⟨_, reconciles_leaving swapped "x.go" "report.json"⟩, rfl, ?_, ?_, ?_⟩
  all_goals decide +kernel

end Compilation
end Emplace

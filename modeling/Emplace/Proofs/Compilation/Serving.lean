import Emplace.Proofs.Compilation.Reporting
import Emplace.Proofs.Emission.Fitting
import Emplace.Proofs.Scan.Testing
import Emplace.Proofs.Settings

/-!
Which settings serve a run. A load checks that settings are a mapping and merges them over the usual
ones, so no key is missing; the values under the keys are taken as they are, and one of a kind that
cannot be used ends the run with a fault where it is used.
-/
namespace Emplace

open Disk

namespace Reconciliation

variable {plan : Reconciliation}

/-- A reconciliation fails over the kind of a value exactly where its walk comes to a test that
cannot be made. -/
theorem runDeclared_misfit_iff (fits : ∀ fault, plan.words.content = .error fault → fault.Fits)
    (disk : Disk) (declared : List String) :
    Misfit (plan.runDeclared disk declared).result ↔
      ∃ test ∈ plan.scan.runTests disk (Registry.declare declared), plan.scan.Unmade test := by
  rw [← Scan.run_misfit_iff, runDeclared_result]
  unfold run
  rcases plan.scan.run disk (Registry.declare declared) with ⟨progress, failure | _⟩
  · exact misfit_error_iff failure
  · have emitted : ¬ Misfit (plan.emission.emit progress.disk progress.registry).2.2 :=
      Emission.emit_fits fits progress.disk progress.registry
    simp only [not_misfit_ok, iff_false]
    rcases outcome : plan.emission.emit progress.disk progress.registry with
      ⟨after, notes, failure | counts⟩
    · rw [outcome] at emitted
      exact mt (misfit_error_iff failure).mp emitted
    · exact not_misfit_ok ()

end Reconciliation

namespace Compilation

theorem writeReport_fits (times : Times) (importpath file : String) (disk : Disk)
    (registry : Registry) : ¬ Misfit (writeReport times importpath file disk registry).2 := by
  unfold writeReport
  dsimp only
  rcases written : ((Report.empty importpath).add registry.expectedRecords).write times disk file
    with ⟨after, fault | _⟩
  · exact not_misfit_blame (Report.write_kind Fault.fits_system (fun _ => Fault.fits_nullByte)
      (by rw [written])) _
  · exact not_misfit_ok ()

theorem withReport_fits (times : Times) (importpath file : String) {outcome : Reconciled}
    (fits : ¬ Misfit outcome.result) :
    ¬ Misfit (withReport times importpath file outcome).result := by
  have report := writeReport_fits times importpath file outcome.disk outcome.registry
  unfold withReport
  split
  · exact fits
  · rename_i result
    rwa [result] at fits
  · rename_i written _
    rw [written] at report
    exact report

/-- A report on an outcome changes nothing about a value of a wrong kind. -/
theorem reported_misfit_iff (times : Times) (request : Request) (outcome : Reconciled) :
    Misfit (reported times request outcome).result ↔ Misfit outcome.result := by
  unfold reported
  split
  · exact Iff.rfl
  · split
    · rename_i file _ reportable
      have fits : ¬ Misfit outcome.result := by
        intro misfit
        rw [misfit] at reportable
        cases reportable
      exact iff_of_false (withReport_fits times request.importpath file fits) fits
    · exact Iff.rfl

/-- What the compiler leaves of a scratch directory, and how it ends. -/
def compiled (around : Surroundings) (request : Request) (scratch : Scratch) (made : Disk) :
    Compiled :=
  let cwd := (pathOf made.cwd).text
  Compiler.run around.launch made request.compiler
    ((request.invocation (scratch.told cwd)).arguments .other cwd)

/-- The walk of a run through its scratch directory. -/
def walk (scratch : Scratch) (made : Disk) (root : Path) (endings : List Ending) : Scan :=
  ⟨Path.ofString (scratch.told (pathOf made.cwd).text), root, endings⟩

/-- Once the compiler has ended well, a run fails over the kind of a value exactly where its scratch
directory has a path of bytes, or where its walk comes to a test that cannot be made. -/
theorem inScratch_misfit_iff {around : Surroundings} {request : Request} {root : Path}
    {endings : List Ending} {words : Placeholder} {scratch : Scratch} {made : Disk}
    (fits : ∀ fault, words.content = .error fault → fault.Fits)
    (done : (compiled around request scratch made).result = .ok ()) :
    ¬ Misfit (inScratch around request root endings words scratch made).result ↔
      scratch.asBytes = none ∧
        ∀ test ∈ (walk scratch made root endings).runTests
          (compiled around request scratch made).disk (Registry.declare request.expected),
          ¬ (walk scratch made root endings).Unmade test := by
  have ended : (Compiler.run around.launch made request.compiler ((request.invocation
      (scratch.told (pathOf made.cwd).text)).arguments .other (pathOf made.cwd).text)).result =
        .ok () := done
  unfold inScratch
  simp only [ended]
  cases text : scratch.asBytes with
  | some bytes => simp
  | none =>
      dsimp only
      rw [reported_misfit_iff, Reconciliation.runDeclared_misfit_iff fits]
      simp only [true_and, not_exists, not_and]
      rfl

/-- Settings that serve a run: it comes to its scratch directory with them, and once the compiler
has ended well nothing fails over the kind of a value. -/
def Serves (around : Surroundings) (disk : Disk) (request : Request) : Prop :=
  ∃ before made scratch ran, Opens around disk request before made scratch ran ∧
    ((compiled around request scratch made).result = .ok () → ¬ Misfit ran.result)

/-- What settings must hold to serve a run: endings in a value that lists something, the words of
stand-in files in a mapping, and a start with which a name for the scratch directory is found. Once
the compiler has ended well, the start must be no bytes, and the endings must decide every name that
the walk comes to. -/
structure Usable (around : Surroundings) (request : Request) (settings : Entries) (before : Disk)
    (root : Path) : Prop where
  suffixes : ∃ value, Value.find? (.text "source_suffixes") settings = some value ∧ value.Lists
  placeholder : ∃ value inner, Value.find? (.text "placeholder") settings = some value ∧
    value.entries? = some inner
  start : ∃ start, Settings.Begins settings start ∧
    Scratch.Findable before around.temporary start around.tails
  tests : ∀ endings start made scratch, Settings.endings settings = .ok endings →
    Settings.Begins settings start →
    Scratch.make before around.temporary start around.tails = .ok (made, scratch) →
    (compiled around request scratch made).result = .ok () →
    scratch.asBytes = none ∧
      ∀ test ∈ (walk scratch made root endings).runTests (compiled around request scratch made).disk
        (Registry.declare request.expected), ¬ Undecided endings test.2.basename

variable {around : Surroundings} {disk before made : Disk} {request : Request} {settings : Entries}
  {notes : List Note} {root : Path} {scratch : Scratch} {ran : Ran}

/-- What a run takes from its settings on its way to the scratch directory. -/
theorem Opens.takes {start : Disk} (opens : Opens around disk request start made scratch ran)
    (loaded : Config.load disk request.config = .ok (settings, notes))
    (rooted : makeRoot disk request.outPath = (before, .ok root)) :
    ∃ endings words start, Settings.endings settings = .ok endings ∧
      Settings.words settings = .ok words ∧ Settings.Begins settings start ∧
      Scratch.make before around.temporary start around.tails = .ok (made, scratch) ∧
      ran = inScratch around request root endings words scratch made := by
  cases opens with
  | @intro _ _ endings _ words start _ _ _ load ends top texts begins fresh =>
      rw [loaded, Except.ok.injEq, Prod.mk.injEq] at load
      rw [rooted, Prod.mk.injEq, Except.ok.injEq] at top
      obtain ⟨rfl, rfl⟩ := load
      obtain ⟨rfl, rfl⟩ := top
      exact ⟨endings, words, start, ends, texts, (Settings.scratchStart_eq_ok_iff _ _).mp begins,
        fresh, rfl⟩

theorem serves_iff (loaded : Config.load disk request.config = .ok (settings, notes))
    (rooted : makeRoot disk request.outPath = (before, .ok root)) :
    Serves around disk request ↔ Usable around request settings before root := by
  have merged := Config.loaded_of_load loaded
  constructor
  · rintro ⟨_, made, scratch, ran, opens, fits⟩
    obtain ⟨endings, words, start, ends, texts, begins, fresh, rfl⟩ := opens.takes loaded rooted
    refine ⟨?suffixes, ?placeholder, ?start, ?tests⟩
    case suffixes => exact (Settings.endings_eq_ok_iff settings).mp ⟨endings, ends⟩
    case placeholder => exact (Settings.words_eq_ok_iff merged).mp ⟨words, texts⟩
    case start => exact ⟨start, begins, (Scratch.make_eq_ok_iff _ _ _ _).mp ⟨_, fresh⟩⟩
    case tests =>
      intro _ _ _ _ taken begun found done
      cases begins.unique begun
      rw [ends] at taken
      rw [fresh] at found
      cases taken
      cases found
      exact (inScratch_misfit_iff (fun _ => Settings.content_fits texts) done).mp (fits done)
  · intro usable
    obtain ⟨endings, ends⟩ := (Settings.endings_eq_ok_iff settings).mpr usable.suffixes
    obtain ⟨words, texts⟩ := (Settings.words_eq_ok_iff merged).mpr usable.placeholder
    obtain ⟨start, begins, found⟩ := usable.start
    obtain ⟨⟨made, scratch⟩, fresh⟩ := (Scratch.make_eq_ok_iff _ _ _ _).mpr found
    refine ⟨before, made, scratch, _, .intro loaded ends rooted texts
      ((Settings.scratchStart_eq_ok_iff _ _).mpr begins) fresh, fun done => ?_⟩
    exact (inScratch_misfit_iff (fun _ => Settings.content_fits texts) done).mpr
      (usable.tests endings start made scratch ends begins fresh done)

/-- Where settings fail a run in its scratch directory, it ends with a fault after the removal
too. -/
theorem without_misfit (scratch : Scratch) (misfit : Misfit ran.result) :
    ∃ fault, (ran.without scratch).result = .error (.fault fault) ∧ fault ≠ .missingEntry := by
  unfold Ran.without
  cases removed : scratch.remove ran.disk with
  | ok after => exact ⟨.wrongKind, misfit, by simp⟩
  | error fault => exact ⟨fault, rfl, Scratch.remove_fault removed⟩

/-- Settings that do not serve a run end it with a fault, and never with that of a missing key. -/
theorem run_fault (loaded : Config.load disk request.config = .ok (settings, notes))
    (rooted : makeRoot disk request.outPath = (before, .ok root))
    (useless : ¬ Serves around disk request) :
    ∃ fault, (run around disk request).result = .error (.fault fault) ∧
      fault ≠ .missingEntry := by
  have merged := Config.loaded_of_load loaded
  have whole : (run around disk request).result =
      (withSettings around request settings disk).result := by
    simp only [run, loaded]
    rfl
  rw [whole, withSettings]
  cases ends : Settings.endings settings with
  | error fault => exact ⟨fault, rfl, by simp [Settings.endings_fault merged ends]⟩
  | ok endings =>
      simp only [rooted, inRoot]
      cases texts : Settings.words settings with
      | error fault => exact ⟨fault, rfl, by simp [Settings.words_fault merged texts]⟩
      | ok words =>
          dsimp only
          cases begins : Settings.scratchStart settings with
          | error fault => exact ⟨fault, rfl, Settings.scratchStart_fault merged begins⟩
          | ok start =>
              dsimp only
              cases fresh : Scratch.make before around.temporary start around.tails with
              | error fault => exact ⟨fault, rfl, Scratch.make_fault fresh⟩
              | ok both =>
                  obtain ⟨made, scratch⟩ := both
                  refine without_misfit scratch ?_
                  by_contra fits
                  exact useless ⟨before, made, scratch, _,
                    .intro loaded ends rooted texts begins fresh, fun _ => fits⟩

/-- With settings that a load accepts and an output root that can be made, a run is served exactly
by usable settings; others end it with a fault, though never for want of a key. -/
theorem run_served_iff (loaded : Config.load disk request.config = .ok (settings, notes))
    (rooted : makeRoot disk request.outPath = (before, .ok root)) :
    (Serves around disk request ↔ Usable around request settings before root) ∧
      (¬ Serves around disk request →
        ∃ fault, (run around disk request).result = .error (.fault fault) ∧
          fault ≠ .missingEntry) :=
  ⟨serves_iff loaded rooted, run_fault loaded rooted⟩

def settingsDisk (text : String) : Disk :=
  litterDisk.put ["w", "c.yml"] (.file text.toUTF8 false)

def settingsRequest : Request := { litterRequest with config := some "c.yml" }

/-- What a compiler leaves that makes one file, in a run with a file of settings. -/
def staged (settings : String) : Disk :=
  (((settingsDisk settings).put ["w", "out"] .directory).put ["tmp", "stage1"] .directory).put
    ["tmp", "stage1", "x.py"] (.file ⟨#[1]⟩ false)

/-- A number among the endings does no harm where an ending before it decides every name. -/
theorem run_served_endings :
    let text := "source_suffixes: [.py, 5]\nscratch_prefix: stage\n"
    let request := { settingsRequest with expected := ["x.py"] }
    let ran := run (leaving (staged text)) (settingsDisk text) request
    Serves (leaving (staged text)) (settingsDisk text) request ∧
      ran.result = .ok () ∧
      ran.disk.get? ["w", "out", "x.py"] = some (.file ⟨#[1]⟩ false) := by
  intro text request ran
  let before := (settingsDisk text).put ["w", "out"] .directory
  let opened := before.put ["tmp", "stage1"] .directory
  refine ⟨?_, by decide +kernel, by decide +kernel⟩
  have read : ((Config.load (settingsDisk text) request.config).toOption.map fun found =>
      (Settings.endings found.1, (Settings.words found.1).isOk, Settings.scratchStart found.1)) =
      some (.ok [.text ".py", .other], true, .ok (.text "stage")) := by decide +kernel
  have rooted : makeRoot (settingsDisk text) request.outPath = (before, .ok litterPlan.root) := by
    decide +kernel
  have fresh : Scratch.make before "/tmp" (.text "stage") ["1"] =
      .ok (opened, ⟨"/tmp/stage1", none⟩) := by decide +kernel
  have walked : ∀ test ∈ (walk ⟨"/tmp/stage1", none⟩ opened litterPlan.root
      [.text ".py", .other]).runTests (staged text) (Registry.declare request.expected),
      test.2.basename = "x.py" := by decide +kernel
  cases loaded : Config.load (settingsDisk text) request.config with
  | error failure =>
      rw [loaded] at read
      cases read
  | ok found =>
      obtain ⟨settings, notes⟩ := found
      simp only [loaded, Except.toOption, Option.map_some, Option.some.injEq,
        Prod.mk.injEq] at read
      obtain ⟨ends, texts, starts⟩ := read
      have begins := (Settings.scratchStart_eq_ok_iff settings _).mp starts
      refine (run_served_iff loaded rooted).1.mpr ⟨?suffixes, ?placeholder, ?start, ?tests⟩
      case suffixes => exact (Settings.endings_eq_ok_iff settings).mp ⟨_, ends⟩
      case placeholder =>
        refine (Settings.words_eq_ok_iff (Config.loaded_of_load loaded)).mp ?_
        cases taken : Settings.words settings with
        | error fault =>
            rw [taken] at texts
            cases texts
        | ok words => exact ⟨words, rfl⟩
      case start => exact ⟨_, begins, (Scratch.make_eq_ok_iff _ _ _ _).mp ⟨_, fresh⟩⟩
      case tests =>
        intro endings start made scratch taken begun found _
        cases begins.unique begun
        cases ends.symm.trans taken
        cases fresh.symm.trans found
        refine ⟨rfl, fun test member undecided => ?_⟩
        -- The only name that is tested ends with the first ending, so the number is never reached.
        obtain ⟨fault, failed⟩ := (hasEnding_error_iff _ _).mpr undecided
        rw [walked test member] at failed
        cases failed

/-- A number in the place of the endings is loaded, and ends the run with a fault over its kind. -/
theorem run_unserved_number :
    let disk := settingsDisk "source_suffixes: 5\n"
    (∃ settings notes, Config.load disk settingsRequest.config = .ok (settings, notes)) ∧
      (∃ before root, makeRoot disk settingsRequest.outPath = (before, .ok root)) ∧
      disk.isDirectory (Path.raw litterAround.temporary) = .ok true ∧
      (run litterAround disk settingsRequest).result = .error (.fault .wrongKind) := by
  intro disk
  have accepted : (Config.load disk settingsRequest.config).isOk = true := by decide +kernel
  refine ⟨?_, ?_, by decide +kernel, by decide +kernel⟩
  · cases loaded : Config.load disk settingsRequest.config with
    | error failure =>
        rw [loaded] at accepted
        cases accepted
    | ok found => exact ⟨found.1, found.2, rfl⟩
  · exact ⟨disk.put ["w", "out"] .directory, litterPlan.root, by decide +kernel⟩

end Compilation
end Emplace

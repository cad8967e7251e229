import Emplace.Compilation
import Emplace.Proofs.Reconciliation.Outcome
import Emplace.Proofs.Scratch

/-!
The scratch directory of a run. Once it is made, the run ends in its removal: whatever the compiler
has put into it and however the steps after the compiler end, nothing is left of it, and its removal
touches nothing else.
-/
namespace Emplace.Compilation

open Disk

/-- A run that comes to make its scratch directory: the disk before and after that, the directory,
and what the run comes to while it is there. -/
inductive Opens (around : Surroundings) (disk : Disk) (request : Request) :
    Disk → Disk → Scratch → Ran → Prop where
  | intro {settings : Entries} {notes : List Note} {endings : List Ending} {root : Path}
      {words : Placeholder} {start : Scratch.Start} {before made : Disk} {scratch : Scratch} :
      Config.load disk request.config = .ok (settings, notes) →
      Settings.endings settings = .ok endings →
      makeRoot disk request.outPath = (before, .ok root) →
      Settings.words settings = .ok words → Settings.scratchStart settings = .ok start →
      Scratch.make before around.temporary start around.tails = .ok (made, scratch) →
      Opens around disk request before made scratch
        (inScratch around request root endings words scratch made)

/-- The disk as the compiler leaves it. -/
def compiledDisk (around : Surroundings) (request : Request) (scratch : Scratch) (made : Disk) :
    Disk :=
  let cwd := (pathOf made.cwd).text
  (around.launch made request.compiler
    ((request.invocation (scratch.told cwd)).arguments .other cwd)).1

variable {around : Surroundings} {request : Request} {disk before made : Disk} {scratch : Scratch}
  {ran : Ran}

/-- Such a run is what happens around the scratch directory, and then its removal. -/
theorem Opens.run_eq (opens : Opens around disk request before made scratch ran) :
    ∃ notes, run around disk request = (ran.without scratch).after notes := by
  cases opens with
  | @intro _ notes _ _ _ _ _ _ _ loaded endings root words start fresh =>
      refine ⟨notes, ?_⟩
      simp only [run, loaded, withSettings, endings, root, inRoot, words, start, fresh]

theorem founded_of_makeRoot (founded : Founded disk) {outPath : String} {root : Path}
    (done : makeRoot disk outPath = (before, .ok root)) : Founded before := by
  have kept : ∀ path, Founded (disk.ensureDirectory path).1 := by
    intro path
    refine ensureDirectory_keeps (motive := Founded) path ?_ founded
    intro part front dir name _ founded found
    have finds := (locate_eq_ok_iff.mp found).2
    refine founded.put_directory (finds.parent founded ?_)
    unfold startOf
    split
    · exact founded.cwd
    · rfl
  unfold makeRoot at done
  dsimp only at done
  split at done
  · rename_i part made
    cases done
    have whole := kept (Path.ofString (Path.usable .other (pathOf disk.cwd).text outPath))
    rwa [made] at whole
  · cases done

/-! ### While the directory is there -/

theorem write_grows (report : Report) (times : Times) (disk : Disk) (file : String) :
    Grows disk (report.write times disk file).1 := by
  have parent := ensureDirectory_grows disk (Path.ofString file).parent
  unfold Report.write
  dsimp only
  rcases made : disk.ensureDirectory (Path.ofString file).parent with ⟨next, fault | _⟩
  · rw [made] at parent
    exact parent
  · rw [made] at parent
    dsimp only
    cases written : next.writeBytes (Path.ofString file) (report.text times).toUTF8 with
    | error fault => exact parent
    | ok after => exact parent.trans (writeBytes_grows written)

theorem writeReport_grows (times : Times) (importpath file : String) (disk : Disk)
    (registry : Registry) :
    Grows disk (writeReport times importpath file disk registry).1 := by
  have written := write_grows ((Report.empty importpath).add registry.expectedRecords) times disk
    file
  unfold writeReport
  dsimp only
  rcases outcome : ((Report.empty importpath).add registry.expectedRecords).write times disk file
    with ⟨after, fault | _⟩
  · rw [outcome] at written
    exact written
  · rw [outcome] at written
    exact written

theorem withReport_grows (times : Times) (importpath file : String) (outcome : Reconciled) :
    Grows outcome.disk (withReport times importpath file outcome).disk := by
  have written := writeReport_grows times importpath file outcome.disk outcome.registry
  unfold withReport
  rcases wrote : writeReport times importpath file outcome.disk outcome.registry with
    ⟨after, failure | _⟩
  · rw [wrote] at written
    -- Which failure is given back does not matter here.
    cases failure <;> cases outcome.result <;> exact written
  · rw [wrote] at written
    exact written

theorem reported_grows (times : Times) (request : Request) (outcome : Reconciled) :
    Grows outcome.disk (reported times request outcome).disk := by
  unfold reported
  split
  · exact .refl _
  · rename_i file _
    split
    · exact withReport_grows times request.importpath file outcome
    · exact .refl _

theorem compilerRun_disk (launch : Launcher) (disk : Disk) (program : String)
    (arguments : List String) :
    (Compiler.run launch disk program arguments).disk = (launch disk program arguments).1 := by
  unfold Compiler.run
  rcases launch disk program arguments with ⟨after, fault | finished⟩ <;> rfl

/-- After the compiler everything that it has left stays, up to the removal. -/
theorem inScratch_grows (around : Surroundings) (request : Request) (root : Path)
    (endings : List Ending) (words : Placeholder) (scratch : Scratch) (made : Disk) :
    Grows (compiledDisk around request scratch made)
      (inScratch around request root endings words scratch made).disk := by
  have compiled : _ = compiledDisk around request scratch made :=
    compilerRun_disk around.launch made request.compiler _
  unfold inScratch
  dsimp only
  rw [← compiled]
  split
  · exact .refl _
  · exact .refl _
  · exact (Reconciliation.runDeclared_grows _ _ _).trans (reported_grows around.times request _)

/-! ### The end of the directory -/

/-- However a run ends after its scratch directory was made, with a compiler that takes no directory
and no link away, nothing is at the path of the directory nor left below its place in the end; all
else is as the steps before the removal left it, and the result is theirs. -/
theorem run_removes_scratch (sound : Sound disk)
    (opens : Opens around disk request before made scratch ran)
    (tidy : KeepsWays made (compiledDisk around request scratch made)) :
    ∃ place, before.get? place = none ∧
      made.locate .self (Path.raw scratch.path) = .ok (.present place .directory) ∧
      (run around disk request).result = ran.result ∧
      (run around disk request).disk.status (Path.raw scratch.path) = .error .noEntry ∧
      (∀ more, (run around disk request).disk.get? (place ++ more) = none) ∧
      ∀ loc, ¬ place <+: loc → (run around disk request).disk.get? loc = ran.disk.get? loc := by
  obtain ⟨notes, whole⟩ := opens.run_eq
  cases opens with
  | @intro settings _ endings root words start _ _ _ _ _ rooted _ _ fresh =>
      obtain ⟨dir, name, here⟩ := Scratch.make_eq_ok fresh
      have founded := founded_of_makeRoot sound.founded rooted
      have keeps := tidy.trans
        (inScratch_grows around request root endings words scratch made).keepsWays
      have ends : run around disk request =
          Ran.after notes { inScratch around request root endings words scratch made with
            disk := (inScratch around request root endings words scratch made).disk.erase
              (dir ++ [name]) } := by
        rw [whole, Ran.without, here.remove keeps]
      have place : dir ++ [name] ≠ [] := by simp
      rw [ends]
      refine ⟨dir ++ [name], (locate_absent here.free).2,
        here.locate ⟨rfl, fun _ => id, fun _ _ => id⟩ (by simp), rfl,
        here.status_erase founded keeps, fun more => ?_, fun loc outside => ?_⟩
      · exact (get?_erase _ place _).trans (if_pos (List.prefix_append _ _))
      · exact (get?_erase _ place _).trans (if_neg outside)

/-- A compiler that leaves a file, a link out of the scratch directory and a pipe there, and does not
end well. -/
def litter : Launcher := fun disk _ _ =>
  (((disk.put ["tmp", "go_proto1", "x.go"] (.file ⟨#[1]⟩ false)).put
    ["tmp", "go_proto1", "up"] (.link "/keep")).put ["tmp", "go_proto1", "fifo"] .pipe,
    .ok ⟨1, [], []⟩)

def litterAround : Surroundings := ⟨litter, "/tmp", ["1"], ⟨0, 0⟩⟩

def litterDisk : Disk :=
  ⟨["w"], [(["w"], .directory), (["tmp"], .directory), (["keep"], .directory),
    (["keep", "a"], .file ⟨#[2]⟩ false)]⟩

def litterRequest : Request :=
  ⟨"protoc", "out", "protoc-gen-go", "example", [], [], [], ["x.go"], [], [], none, none, 0, []⟩

theorem run_removes_litter :
    (∃ e, (run litterAround litterDisk litterRequest).result = .error (.invocation e)) ∧
    (run litterAround litterDisk litterRequest).disk.status (Path.raw "/tmp/go_proto1") =
      .error .noEntry ∧
    (run litterAround litterDisk litterRequest).disk.get? ["keep", "a"] =
      some (.file ⟨#[2]⟩ false) := by
  have opens : Opens litterAround litterDisk litterRequest
      (litterDisk.put ["w", "out"] .directory)
      ((litterDisk.put ["w", "out"] .directory).put ["tmp", "go_proto1"] .directory)
      ⟨"/tmp/go_proto1", none⟩ _ :=
    .intro rfl rfl rfl rfl rfl rfl
  have tidy : KeepsWays
      ((litterDisk.put ["w", "out"] .directory).put ["tmp", "go_proto1"] .directory)
      (compiledDisk litterAround litterRequest ⟨"/tmp/go_proto1", none⟩
        ((litterDisk.put ["w", "out"] .directory).put ["tmp", "go_proto1"] .directory)) :=
    ((keepsWays_put _ (by decide)).trans (keepsWays_put _ (by decide))).trans
      (keepsWays_put _ (by decide))
  obtain ⟨place, _, _, result, gone, _, _⟩ :=
    run_removes_scratch (by decide) opens tidy
  exact ⟨⟨_, result⟩, gone, by decide +kernel⟩

end Emplace.Compilation

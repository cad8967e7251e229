import Emplace.Command
import Emplace.Proofs.Compilation.Lifetime
import Emplace.Proofs.Disk.Making

/-!
Runs that end before any output is looked for. Settings that cannot be read leave the disk as it is,
an output root that cannot be made leaves directories on the way to it, and a compiler that fails
after it wrote to its scratch directory alone leaves the output root behind and nothing else.
-/
namespace Emplace

open Disk

/-- A disk that was changed below a directory alone. -/
structure Disk.Confined (place : Location) (before after : Disk) : Prop where
  cwd : after.cwd = before.cwd
  off : SameOff (fun loc => ∃ name rest, loc = place ++ name :: rest) before after

variable {disk before made later : Disk} {scratch : Scratch}

/-- A scratch directory that was changed below alone leaves nothing behind once it is removed. -/
theorem Scratch.Made.restores (founded : Founded before) {dir : Location} {name : String}
    (here : Made before made scratch dir name) (confined : Confined (dir ++ [name]) made later) :
    ∃ after, scratch.remove later = .ok after ∧ Same before after := by
  have free := (locate_absent here.free).2
  have below := founded.free_below free
  have put : ∀ loc, loc ≠ dir ++ [name] → made.get? loc = before.get? loc := by
    intro loc other
    rw [here.put]
    exact get?_put_other before _ other
  -- Nothing was below the directory when it was made, so nothing that the compiler found is gone.
  have kept : ∀ loc entry, made.get? loc = some entry → later.get? loc = some entry := by
    intro loc entry found
    rw [← found]
    apply confined.off
    rintro ⟨first, rest, rfl⟩
    rw [put _ (by simp), below] at found
    cases found
  have keeps : KeepsWays made later :=
    ⟨confined.cwd, fun loc => kept loc _, fun loc target => kept loc _⟩
  refine ⟨_, here.remove keeps, (here.keepsWays.trans keeps).cwd.symm, fun loc => ?_⟩
  rw [get?_erase later (by simp) loc]
  split
  · rename_i inside
    obtain ⟨more, rfl⟩ := inside
    exact below more
  · rename_i outside
    have other : loc ≠ dir ++ [name] := by
      rintro rfl
      exact outside (List.prefix_refl _)
    rw [← put loc other]
    apply Eq.symm
    apply confined.off
    rintro ⟨first, rest, rfl⟩
    exact outside (List.prefix_append _ _)

/-- A program that was not started or did not end well. -/
inductive Unfinished : Except Fault Finished → Prop where
  | notStarted (e : SystemError) : Unfinished (.error (.system e))
  | exited (finished : Finished) : finished.status ≠ 0 → Unfinished (.ok finished)

namespace Compilation

/-- The path of the output root. -/
def rootPath (disk : Disk) (outPath : String) : Path :=
  Path.ofString (Path.usable .other (pathOf disk.cwd).text outPath)

theorem makeRoot_madeAlong (disk : Disk) (outPath : String) :
    MadeAlong (rootPath disk outPath) disk (makeRoot disk outPath).1 := by
  have made := ensureDirectory_madeAlong disk (rootPath disk outPath)
  unfold makeRoot
  dsimp only
  unfold rootPath at made ⊢
  generalize Path.ofString (Path.usable .other (pathOf disk.cwd).text outPath) = root at made ⊢
  rcases outcome : disk.ensureDirectory root with ⟨after, fault | _⟩
  · rw [outcome] at made
    exact made
  · rw [outcome] at made
    exact made

variable {around : Surroundings} {request : Request} {ran : Ran} {place : Location}

/-- How the compiler leaves the disk, and how it ends. -/
def launched (around : Surroundings) (request : Request) (scratch : Scratch) (made : Disk) :
    Disk × Except Fault Finished :=
  let cwd := (pathOf made.cwd).text
  around.launch made request.compiler
    ((request.invocation (scratch.told cwd)).arguments .other cwd)

theorem compilerRun_unfinished {launch : Launcher} {program : String} {arguments : List String}
    (failed : Unfinished (launch disk program arguments).2) :
    ∃ e, (Compiler.run launch disk program arguments).result = .error (.invocation e) := by
  unfold Compiler.run
  rcases outcome : launch disk program arguments with ⟨after, result⟩
  rw [outcome] at failed
  cases failed with
  | notStarted e => exact ⟨_, rfl⟩
  | exited finished bad => exact ⟨_, if_neg bad⟩

theorem inScratch_unfinished {root : Path} {endings : List Ending} {words : Placeholder}
    (failed : Unfinished (launched around request scratch made).2) :
    ∃ e, (inScratch around request root endings words scratch made).result =
        .error (.invocation e) ∧
      (inScratch around request root endings words scratch made).disk =
        (launched around request scratch made).1 := by
  obtain ⟨e, result⟩ := compilerRun_unfinished failed
  have left : _ = (launched around request scratch made).1 :=
    compilerRun_disk around.launch made request.compiler _
  exact ⟨e, by simp [inScratch, result], by simp [inScratch, result, left]⟩

/-- After a compiler that fails and has kept to its scratch directory the disk is as it was before
that directory was made. -/
theorem run_unfinished (founded : Founded disk)
    (opens : Opens around disk request before made scratch ran)
    (placed : made.locate .self (Path.raw scratch.path) = .ok (.present place .directory))
    (confined : Confined place made (launched around request scratch made).1)
    (failed : Unfinished (launched around request scratch made).2) :
    (∃ e, (run around disk request).result = .error (.invocation e)) ∧
      Same before (run around disk request).disk := by
  obtain ⟨notes, whole⟩ := opens.run_eq
  cases opens with
  | intro loaded endings rooted words start fresh =>
      obtain ⟨dir, name, here⟩ := Scratch.make_eq_ok fresh
      have found := here.locate (⟨rfl, fun _ => id, fun _ _ => id⟩ : KeepsWays made made)
        (by simp : Aim.self ≠ .writing)
      rw [found] at placed
      cases placed
      obtain ⟨after, removed, same⟩ :=
        here.restores (founded_of_makeRoot founded rooted) confined
      obtain ⟨e, result, left⟩ := inScratch_unfinished failed
      rw [whole, Ran.without, left, removed]
      exact ⟨⟨e, result⟩, same⟩

end Compilation

namespace Command

open Compilation

/-- A command that ends with status 1 and leaves the given disk, and whose compiler has no say in
that. -/
structure EndsUnlaunched (around : Surroundings) (disk : Disk) (arguments : List String)
    (after : Disk) : Prop where
  exit : (run around disk arguments).exit = .status 1
  left : (run around disk arguments).disk = after
  unlaunched : ∀ launch, run { around with launch := launch } disk arguments =
    run around disk arguments

/-- The arguments, those in files included, make up a request. -/
def Asks (disk : Disk) (arguments : List String) (request : Request) : Prop :=
  ∃ expanded, Params.expand disk arguments = .ok expanded ∧
    CommandLine.parse expanded = .ok request

variable {around : Surroundings} {arguments : List String} {request : Request}

theorem Asks.run_eq (asks : Asks disk arguments request) (around : Surroundings) :
    run around disk arguments = serve around disk request := by
  obtain ⟨expanded, params, parsed⟩ := asks
  simp [run, params, parsed]

/-- A run that stops before the compiler whatever is around it. -/
theorem Asks.endsUnlaunched (asks : Asks disk arguments request) (notes : List Note)
    {after : Disk} (failure : Failure) (own : ∀ fault, failure ≠ .fault fault)
    (stops : ∀ launch, Compilation.run { around with launch := launch } disk request =
      (Ran.stopped after failure).after notes) :
    EndsUnlaunched around disk arguments after := by
  have here : Compilation.run around disk request = _ := stops around.launch
  refine ⟨?_, ?_, fun launch => ?_⟩
  · rw [asks.run_eq, serve, here]
    cases failure with
    | fault fault => exact absurd rfl (own fault)
    | _ => rfl
  · rw [asks.run_eq, serve, here]
    rfl
  · rw [asks.run_eq, asks.run_eq, serve, serve, here, stops launch]

/-- A command that stops before its outputs are looked for ends with status 1. Where its arguments or
settings cannot be read the disk stays as it is; where the output root cannot be made there are at
most directories on the way to it; and in both cases there is neither a scratch directory nor a run
of the compiler. Where a compiler that keeps to its scratch directory fails, the output root and the
directories above it are all that is new. -/
theorem run_stages (around : Surroundings) (arguments : List String) (founded : Founded disk) :
    (∀ e, Params.expand disk arguments = .error (.config e) →
      EndsUnlaunched around disk arguments disk) ∧
    ∀ request, Asks disk arguments request →
      (∀ e, Config.load disk request.config = .error (.config e) →
        EndsUnlaunched around disk arguments disk) ∧
      (∀ settings notes endings after e, Config.load disk request.config = .ok (settings, notes) →
        Settings.endings settings = .ok endings →
        makeRoot disk request.outPath = (after, .error (.reconcile e)) →
        EndsUnlaunched around disk arguments after ∧
          MadeAlong (rootPath disk request.outPath) disk after) ∧
      ∀ before made scratch ran place, Opens around disk request before made scratch ran →
        made.locate .self (Path.raw scratch.path) = .ok (.present place .directory) →
        Confined place made (launched around request scratch made).1 →
        Unfinished (launched around request scratch made).2 →
        (run around disk arguments).exit = .status 1 ∧
          MadeAlong (rootPath disk request.outPath) disk (run around disk arguments).disk := by
  refine ⟨fun e refused => ?_, fun request asks => ⟨fun e refused => ?_, ?_, ?_⟩⟩
  · exact ⟨by simp [run, refused], by simp [run, refused], fun launch => by simp [run, refused]⟩
  · refine asks.endsUnlaunched [] (.config e) (by simp) fun launch => ?_
    simp [Compilation.run, refused, Ran.after, Ran.stopped]
  · intro settings notes endings after e loaded known rooted
    have made := makeRoot_madeAlong disk request.outPath
    rw [rooted] at made
    refine ⟨asks.endsUnlaunched notes (.reconcile e) (by simp) ?_, made⟩
    intro launch
    simp only [Compilation.run, loaded, withSettings, known, rooted]
  · intro before made scratch ran place opens placed confined failed
    obtain ⟨⟨e, result⟩, same⟩ := run_unfinished founded opens placed confined failed
    rw [asks.run_eq, serve]
    refine ⟨by simp only [result, exitOf], ?_⟩
    have made := makeRoot_madeAlong disk request.outPath
    cases opens with
    | intro _ _ rooted _ _ _ =>
        rw [rooted] at made
        exact made.congr same

/-- A command line that asks for the compiler to be run. -/
def litterArguments (outPath : String) : List String :=
  ["--protoc", "protoc", "--out_path", outPath, "--plugin", "protoc-gen-go", "--importpath",
    "example", "--expected", "x.go"]

/-- Params that are not there, a directory for settings, a file in the way of the output root, and a
compiler that litters its scratch directory. -/
theorem run_stages_litter :
    EndsUnlaunched litterAround litterDisk ["@gone"] litterDisk ∧
    EndsUnlaunched litterAround litterDisk (litterArguments "out" ++ ["--config", "/keep"])
      litterDisk ∧
    EndsUnlaunched litterAround litterDisk (litterArguments "/keep/a/b") litterDisk ∧
    (run litterAround litterDisk (litterArguments "out")).exit = .status 1 ∧
    MadeAlong (rootPath litterDisk "out") litterDisk
      (run litterAround litterDisk (litterArguments "out")).disk := by
  have founded : Founded litterDisk := Sound.founded (by decide)
  obtain ⟨params, -⟩ := run_stages litterAround ["@gone"] founded
  refine ⟨params _ rfl, ?_, ?_, ?_⟩
  · have asks : Asks litterDisk (litterArguments "out" ++ ["--config", "/keep"])
        { litterRequest with config := some "/keep" } := ⟨_, rfl, rfl⟩
    have refused : Config.load litterDisk (some "/keep") =
        .error (.config (.unreadable "/keep" ⟨.isDirectory, "/keep"⟩)) := rfl
    exact ((run_stages litterAround _ founded).2 _ asks).1 _ refused
  · have asks : Asks litterDisk (litterArguments "/keep/a/b")
        { litterRequest with outPath := "/keep/a/b" } := ⟨_, rfl, rfl⟩
    exact (((run_stages litterAround _ founded).2 _ asks).2.1 _ _ _ _ _ rfl rfl rfl).1
  · have asks : Asks litterDisk (litterArguments "out") litterRequest := ⟨_, rfl, rfl⟩
    have opens : Opens litterAround litterDisk litterRequest
        (litterDisk.put ["w", "out"] .directory)
        ((litterDisk.put ["w", "out"] .directory).put ["tmp", "go_proto1"] .directory)
        ⟨"/tmp/go_proto1", none⟩ _ :=
      .intro rfl rfl rfl rfl rfl rfl
    have confined : Confined ["tmp", "go_proto1"]
        ((litterDisk.put ["w", "out"] .directory).put ["tmp", "go_proto1"] .directory)
        (launched litterAround litterRequest ⟨"/tmp/go_proto1", none⟩
          ((litterDisk.put ["w", "out"] .directory).put ["tmp", "go_proto1"] .directory)).1 :=
      ⟨rfl, ((sameOff_put _ _ ⟨"x.go", [], rfl⟩).trans (sameOff_put _ _ ⟨"up", [], rfl⟩)).trans
        (sameOff_put _ _ ⟨"fifo", [], rfl⟩)⟩
    exact ((run_stages litterAround _ founded).2 _ asks).2.2 _ _ _ _ _ opens rfl confined
      (.exited ⟨1, [], []⟩ (by decide))

end Command
end Emplace

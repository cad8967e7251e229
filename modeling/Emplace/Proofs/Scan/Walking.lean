import Emplace.Proofs.Disk.Calls
import Emplace.Proofs.Registry.Declared
import Emplace.Scan

/-!
The steps of a walk. A walk asks for directories below the output root and takes files into account;
`steps` lists both in order, up to the point where the walk ends. The steps alone tell the disk and
the registry that a walk leaves behind, and a directory is only asked for once the one above it is
there.
-/
namespace Emplace

open Disk

namespace Scan

inductive Step where
  /-- The directory at a relative path is asked for below the output root. -/
  | dir (rel : Path)
  /-- The file at a relative path is taken into account. -/
  | file (rel : Path)
  deriving DecidableEq, Repr

/-- The directories that steps ask for. -/
def dirs (steps : List Step) : List Path :=
  steps.filterMap fun step => match step with
    | .dir rel => some rel
    | .file _ => none

/-- The files that steps take into account. -/
def files (steps : List Step) : List Path :=
  steps.filterMap fun step => match step with
    | .dir _ => none
    | .file rel => some rel

theorem dirs_append (steps more : List Step) : dirs (steps ++ more) = dirs steps ++ dirs more :=
  List.filterMap_append

theorem files_append (steps more : List Step) :
    files (steps ++ more) = files steps ++ files more :=
  List.filterMap_append

/-- The steps that `mirror` takes. -/
def mirrorSteps (rel : Path) : List Step :=
  if rel.names = [] then [] else [.dir rel]

/-- The steps that `visitFiles` takes. -/
def fileSteps (scan : Scan) (rel dir : Path) (disk : Disk) : List String → List Step
  | [] => []
  | name :: rest =>
    match hasEnding name scan.endings with
    | .error _ => []
    | .ok false => fileSteps scan rel dir disk rest
    | .ok true =>
      match disk.isFile (dir.entry name) with
      | .error _ => []
      | .ok false => fileSteps scan rel dir disk rest
      | .ok true => .file (rel.entry name) :: fileSteps scan rel dir disk rest

/-- The steps that `visitAll` takes, with those of `visit`. -/
def allSteps (steps : Path → Progress → List Step)
    (visit : Path → Progress → Progress × Except Failure Unit) (scan : Scan) (rel : Path) :
    Progress → List String → List Step
  | _, [] => []
  | progress, name :: rest =>
    if isLink progress.disk (scan.scratch.join (rel.entry name)) then
      allSteps steps visit scan rel progress rest
    else steps (rel.entry name) progress ++ match visit (rel.entry name) progress with
      | (_, .error _) => []
      | (progress, .ok ()) => allSteps steps visit scan rel progress rest

/-- The steps that `visit` takes. -/
def steps (scan : Scan) : Nat → Path → Progress → List Step
  | 0, _, _ => []
  | depth + 1, rel, progress =>
    let dir := scan.scratch.join rel
    if hasNull dir then []
    else match progress.disk.list dir with
    | .error _ => []
    | .ok (loc, names) =>
      let (dirs, files) := (Sorting.sorted names).partition (leadsToDirectory progress.disk loc dir)
      mirrorSteps rel ++ match scan.mirror rel progress with
      | (_, .error _) => []
      | (progress, .ok ()) => scan.fileSteps rel dir progress.disk files ++
        match scan.visitFiles rel dir progress files with
        | (_, .error _) => []
        | (progress, .ok ()) =>
          allSteps (steps scan depth) (visit scan depth) scan rel progress dirs

/-- The steps of a whole walk. -/
def runSteps (scan : Scan) (disk : Disk) (registry : Registry) : List Step :=
  scan.steps (pathLimit + 1) ⟨.here, []⟩ ⟨disk, registry, [], 0⟩

/-- The disk with the directory at a relative path made below the output root. -/
def mirrored (scan : Scan) (disk : Disk) (rel : Path) : Disk :=
  (disk.ensureDirectory (scan.root.join rel)).1

/-- The files as they are taken into account: their relative paths, and where they are read. -/
def found (scan : Scan) (files : List Path) : List (String × Path) :=
  files.map fun rel => (rel.text, scan.scratch.join rel)

/-- A relative path stands for a directory below the output root. -/
def Entered (scan : Scan) (disk : Disk) (rel : Path) : Prop :=
  ∃ loc, disk.locate .target (scan.root.join rel) = .ok (.present loc .directory)

/-- Directories that can be asked for one after the other, each below one that is there by then. -/
def Orderly (scan : Scan) : Disk → List Path → Prop
  | _, [] => True
  | disk, rel :: rest =>
    rel.anchor = .here ∧ rel.names ≠ [] ∧ hasNull rel = false ∧ scan.Entered disk rel.parent ∧
      Orderly scan (scan.mirrored disk rel) rest

/-- What the steps tell of the progress after them. -/
structure Tells (scan : Scan) (before : Progress) (steps : List Step) (after : Progress) :
    Prop where
  disk : after.disk = (dirs steps).foldl scan.mirrored before.disk
  registry : after.registry = before.registry.discoverAll (scan.found (files steps))
  orderly : scan.Orderly before.disk (dirs steps)

variable {scan : Scan}

theorem Entered.grows {a b : Disk} {rel : Path} (entered : scan.Entered a rel)
    (growth : Grows a b) : scan.Entered b rel := by
  obtain ⟨loc, found⟩ := entered
  exact ⟨loc, locate_directory_grows growth found⟩

theorem mirrored_grows (scan : Scan) (disk : Disk) (rel : Path) :
    Grows disk (scan.mirrored disk rel) :=
  ensureDirectory_grows disk _

theorem foldl_mirrored_grows (scan : Scan) (disk : Disk) (rels : List Path) :
    Grows disk (rels.foldl scan.mirrored disk) := by
  induction rels generalizing disk with
  | nil => exact .refl disk
  | cons rel rest ih => exact (scan.mirrored_grows disk rel).trans (ih _)

theorem Orderly.append {disk : Disk} {rels more : List Path} (first : scan.Orderly disk rels)
    (second : scan.Orderly (rels.foldl scan.mirrored disk) more) :
    scan.Orderly disk (rels ++ more) := by
  induction rels generalizing disk with
  | nil => exact second
  | cons rel rest ih =>
      obtain ⟨anchor, below, clear, entered, later⟩ := first
      exact ⟨anchor, below, clear, entered, ih later second⟩

theorem Tells.nil (scan : Scan) (progress : Progress) : scan.Tells progress [] progress :=
  ⟨rfl, rfl, trivial⟩

theorem Tells.append {a b c : Progress} {first second : List Step}
    (before : scan.Tells a first b) (after : scan.Tells b second c) :
    scan.Tells a (first ++ second) c := by
  refine ⟨?_, ?_, ?_⟩
  · rw [after.disk, before.disk, dirs_append, List.foldl_append]
  · rw [after.registry, before.registry, files_append]
    simp [found, Registry.discoverAll, List.foldl_append]
  · rw [dirs_append]
    apply before.orderly.append
    rw [← before.disk]
    exact after.orderly

theorem Tells.grows {a b : Progress} {steps : List Step} (tells : scan.Tells a steps b) :
    Grows a.disk b.disk := by
  rw [tells.disk]
  exact foldl_mirrored_grows scan _ _

/-! ### The parts of a visit -/

theorem mirror_tells {rel : Path} {progress : Progress} (anchor : rel.anchor = .here)
    (clear : hasNull rel = false) (entered : scan.Entered progress.disk rel.parent) :
    scan.Tells progress (mirrorSteps rel) (scan.mirror rel progress).1 ∧
      ((scan.mirror rel progress).2 = .ok () →
        scan.Entered (scan.mirror rel progress).1.disk rel) := by
  unfold mirror mirrorSteps
  by_cases top : rel.names = []
  · simp only [top, if_true]
    refine ⟨.nil scan progress, fun _ => ?_⟩
    have same : rel.parent = rel := by
      cases rel
      simp_all [Path.parent]
    rwa [same] at entered
  · simp only [top, if_false]
    have tells : ∀ after : Progress, after.disk = scan.mirrored progress.disk rel →
        after.registry = progress.registry → scan.Tells progress [.dir rel] after :=
      fun after disk registry => ⟨disk, registry, anchor, top, clear, entered, trivial⟩
    rcases outcome : progress.disk.ensureDirectory (scan.root.join rel) with ⟨made, result⟩
    have same : made = scan.mirrored progress.disk rel := by rw [mirrored, outcome]
    cases result with
    | error fault => exact ⟨tells _ same rfl, fun impossible => by cases impossible⟩
    | ok =>
        refine ⟨tells _ same rfl, fun _ => ?_⟩
        have whole : made = (progress.disk.ensureDirectory (scan.root.join rel)).1 := by
          rw [outcome]
        exact whole ▸ ensureDirectory_eq_ok (by rw [outcome])

theorem files_mirrorSteps (rel : Path) : files (mirrorSteps rel) = [] := by
  unfold mirrorSteps
  split <;> rfl

theorem visitFiles_disk (scan : Scan) (rel dir : Path) (progress : Progress) (names : List String) :
    (scan.visitFiles rel dir progress names).1.disk = progress.disk := by
  induction names generalizing progress with
  | nil => rfl
  | cons name rest ih =>
      rw [visitFiles]
      split
      · rfl
      · exact ih progress
      · split
        · rfl
        · exact ih progress
        · rw [ih]
          rfl

theorem dirs_fileSteps (rel dir : Path) (disk : Disk) (names : List String) :
    dirs (scan.fileSteps rel dir disk names) = [] := by
  induction names with
  | nil => rfl
  | cons name rest ih =>
      rw [fileSteps]
      split
      · rfl
      · exact ih
      · split
        · rfl
        · exact ih
        · exact ih

theorem visitFiles_seen (scan : Scan) (rel dir : Path) (progress : Progress) (names : List String) :
    (scan.visitFiles rel dir progress names).1.seen =
      progress.seen + (files (scan.fileSteps rel dir progress.disk names)).length := by
  induction names generalizing progress with
  | nil => rfl
  | cons name rest ih =>
      rw [visitFiles, fileSteps]
      cases hasEnding name scan.endings with
      | error fault => rfl
      | ok ends =>
          cases ends with
          | false => exact ih progress
          | true =>
              dsimp only
              cases progress.disk.isFile (dir.entry name) with
              | error fault => rfl
              | ok isFile =>
                  cases isFile with
                  | false => exact ih progress
                  | true =>
                      dsimp only
                      rw [ih]
                      simp only [Progress.take, files, List.filterMap_cons, List.length_cons]
                      omega

theorem visitFiles_registry {rel : Path} (anchor : rel.anchor = .here) (progress : Progress)
    (names : List String) :
    (scan.visitFiles rel (scan.scratch.join rel) progress names).1.registry =
      progress.registry.discoverAll
        (scan.found (files (scan.fileSteps rel (scan.scratch.join rel) progress.disk names))) := by
  induction names generalizing progress with
  | nil => rfl
  | cons name rest ih =>
      rw [visitFiles, fileSteps]
      cases hasEnding name scan.endings with
      | error fault => rfl
      | ok ends =>
          cases ends with
          | false => exact ih progress
          | true =>
              dsimp only
              cases progress.disk.isFile ((scan.scratch.join rel).entry name) with
              | error fault => rfl
              | ok isFile =>
                  cases isFile with
                  | false => exact ih progress
                  | true =>
                      dsimp only
                      rw [ih, ← Path.join_entry scan.scratch rel name anchor]
                      rfl

theorem visitFiles_tells (scan : Scan) {rel : Path} (anchor : rel.anchor = .here)
    (progress : Progress) (names : List String) :
    scan.Tells progress (scan.fileSteps rel (scan.scratch.join rel) progress.disk names)
      (scan.visitFiles rel (scan.scratch.join rel) progress names).1 := by
  refine ⟨?_, visitFiles_registry anchor progress names, ?_⟩
  · rw [visitFiles_disk, dirs_fileSteps]
    rfl
  · rw [dirs_fileSteps]
    trivial

/-! ### The whole walk -/

theorem visitAll_tells {steps : Path → Progress → List Step}
    {visit : Path → Progress → Progress × Except Failure Unit} {rel : Path} {names : List String}
    {progress : Progress} (entered : scan.Entered progress.disk rel)
    (each : ∀ name progress, scan.Entered progress.disk rel →
      scan.Tells progress (steps (rel.entry name) progress) (visit (rel.entry name) progress).1) :
    scan.Tells progress (allSteps steps visit scan rel progress names)
      (visitAll visit scan rel progress names).1 := by
  induction names generalizing progress with
  | nil => exact .nil scan progress
  | cons name rest ih =>
      rw [allSteps, visitAll]
      split
      · exact ih entered
      · have first := each name progress entered
        rcases outcome : visit (rel.entry name) progress with ⟨after, result⟩
        rw [outcome] at first
        cases result with
        | error failure => simpa using first
        | ok => exact first.append (ih (entered.grows first.grows))

theorem visit_tells (scan : Scan) (depth : Nat) (rel : Path) (progress : Progress)
    (anchor : rel.anchor = .here) (entered : scan.Entered progress.disk rel.parent) :
    scan.Tells progress (scan.steps depth rel progress) (scan.visit depth rel progress).1 := by
  induction depth generalizing rel progress with
  | zero => exact .nil scan progress
  | succ depth ih =>
      rw [steps, visit]
      cases whole : hasNull (scan.scratch.join rel) with
      | true => exact .nil scan progress
      | false =>
          have clear := hasNull_of_join anchor whole
          cases progress.disk.list (scan.scratch.join rel) with
          | error cause => exact .nil scan progress
          | ok listed =>
              obtain ⟨loc, names⟩ := listed
              obtain ⟨first, ready⟩ := mirror_tells anchor clear entered
              dsimp only
              generalize (Sorting.sorted names).partition
                (leadsToDirectory progress.disk loc (scan.scratch.join rel)) = parts
              rcases made : scan.mirror rel progress with ⟨after, result⟩
              rw [made] at first ready
              cases result with
              | error failure => simpa using first
              | ok =>
                  -- The directory is there before the ones below it are asked for.
                  apply first.append
                  have second := visitFiles_tells scan anchor after parts.2
                  dsimp only
                  rcases taken : scan.visitFiles rel (scan.scratch.join rel) after parts.2 with
                    ⟨last, result⟩
                  rw [taken] at second
                  cases result with
                  | error failure => simpa using second
                  | ok =>
                      apply second.append
                      apply visitAll_tells ((ready rfl).grows second.grows)
                      intro name progress entered
                      apply ih
                      · exact anchor
                      · rwa [Path.parent_entry]

theorem located_of_list {disk : Disk} {path : Path} {listed : Location × List String}
    (found : disk.list path = .ok listed) :
    ∃ there, disk.locate .target path = .ok (.present there .directory) := by
  unfold Disk.list at found
  split at found
  · cases found
  · rename_i there same
    exact ⟨there, same⟩
  · cases found
  · cases found

/-- What a visit that comes to its end has gone through. -/
theorem visit_eq_ok {depth : Nat} {rel : Path} {progress : Progress}
    (done : (scan.visit depth rel progress).2 = .ok ()) :
    ∃ below loc names mirrored fed, depth = below + 1 ∧
      progress.disk.list (scan.scratch.join rel) = .ok (loc, names) ∧
      scan.mirror rel progress = (mirrored, .ok ()) ∧
      scan.visitFiles rel (scan.scratch.join rel) mirrored ((Sorting.sorted names).filter
        (not ∘ leadsToDirectory progress.disk loc (scan.scratch.join rel))) = (fed, .ok ()) ∧
      scan.visit depth rel progress =
        visitAll (scan.visit below) scan rel fed ((Sorting.sorted names).filter
          (leadsToDirectory progress.disk loc (scan.scratch.join rel))) ∧
      scan.steps depth rel progress = mirrorSteps rel ++
        (scan.fileSteps rel (scan.scratch.join rel) mirrored.disk ((Sorting.sorted names).filter
            (not ∘ leadsToDirectory progress.disk loc (scan.scratch.join rel))) ++
          allSteps (scan.steps below) (scan.visit below) scan rel fed
            ((Sorting.sorted names).filter
              (leadsToDirectory progress.disk loc (scan.scratch.join rel)))) := by
  cases depth with
  | zero => cases done
  | succ below =>
      rw [visit] at done ⊢
      rw [steps]
      cases null : hasNull (scan.scratch.join rel) with
      | true => simp [null] at done
      | false =>
          simp only [null, Bool.false_eq_true, if_false, List.partition_eq_filter_filter] at done ⊢
          rcases listed : progress.disk.list (scan.scratch.join rel) with cause | ⟨loc, names⟩
          · simp [listed] at done
          · simp only [listed] at done ⊢
            rcases made : scan.mirror rel progress with ⟨mirrored, failure | _⟩
            · simp [made] at done
            · simp only [made] at done ⊢
              rcases taken : scan.visitFiles rel (scan.scratch.join rel) mirrored
                ((Sorting.sorted names).filter
                  (not ∘ leadsToDirectory progress.disk loc (scan.scratch.join rel))) with
                ⟨fed, failure | _⟩
              · simp [taken] at done
              · exact ⟨below, loc, names, mirrored, fed, rfl, rfl, rfl, taken, by simp, by simp⟩

/-- A walk through directories that comes to its end passes the first one, where it is a link, or
has visited it to the end. -/
theorem visitAll_cons_eq_ok {depth : Nat} {rel : Path} {name : String} {rest : List String}
    {progress : Progress}
    (done : (visitAll (scan.visit depth) scan rel progress (name :: rest)).2 = .ok ()) :
    (isLink progress.disk (scan.scratch.join (rel.entry name)) = true ∧
      visitAll (scan.visit depth) scan rel progress (name :: rest) =
        visitAll (scan.visit depth) scan rel progress rest ∧
      allSteps (scan.steps depth) (scan.visit depth) scan rel progress (name :: rest) =
        allSteps (scan.steps depth) (scan.visit depth) scan rel progress rest) ∨
    (isLink progress.disk (scan.scratch.join (rel.entry name)) = false ∧
      ∃ middle, scan.visit depth (rel.entry name) progress = (middle, .ok ()) ∧
        visitAll (scan.visit depth) scan rel progress (name :: rest) =
          visitAll (scan.visit depth) scan rel middle rest ∧
        allSteps (scan.steps depth) (scan.visit depth) scan rel progress (name :: rest) =
          scan.steps depth (rel.entry name) progress ++
            allSteps (scan.steps depth) (scan.visit depth) scan rel middle rest) := by
  rw [visitAll] at done ⊢
  rw [allSteps]
  cases link : isLink progress.disk (scan.scratch.join (rel.entry name)) with
  | true => exact .inl ⟨rfl, by simp, by simp⟩
  | false =>
      simp only [link, Bool.false_eq_true, if_false] at done
      rcases visited : scan.visit depth (rel.entry name) progress with ⟨middle, failure | _⟩
      · rw [visited] at done
        cases done
      · exact .inr ⟨rfl, middle, rfl, by simp, by simp⟩

/-- A visit that comes to its end has listed its directory. -/
theorem located_of_visit {depth : Nat} {rel : Path} {progress : Progress}
    (done : (scan.visit depth rel progress).2 = .ok ()) : ∃ there,
      progress.disk.locate .target (scan.scratch.join rel) = .ok (.present there .directory) := by
  obtain ⟨_, _, _, _, _, _, listed, _⟩ := visit_eq_ok done
  exact located_of_list listed

theorem run_tells (scan : Scan) {disk : Disk} {loc : Location} (registry : Registry)
    (located : disk.locate .target scan.root = .ok (.present loc .directory)) :
    scan.Tells ⟨disk, registry, [], 0⟩ (scan.runSteps disk registry)
      (scan.run disk registry).1 := by
  have here : scan.root.join ⟨.here, []⟩ = scan.root := by simp [Path.join]
  apply visit_tells
  · rfl
  · exact ⟨loc, by rw [Path.parent, List.dropLast_nil, here]; exact located⟩

end Scan
end Emplace

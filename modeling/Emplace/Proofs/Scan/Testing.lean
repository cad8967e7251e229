import Emplace.Proofs.Scan.Refusing

/-!
The tests for endings. They are made in order, and one that is no text cannot be made, so a name is
left undecided where none of the texts before such a one ends it. A walk fails over the kind of an
ending exactly where it comes to such a name.
-/
namespace Emplace

open Disk

/-- An ending that is no text comes before any that ends the name. -/
def Undecided (endings : List Ending) (name : String) : Prop :=
  ∃ before after, endings = before ++ .other :: after ∧
    ∀ tail, .text tail ∈ before → Text.endsWith name tail = false

theorem hasEnding_misfit {name : String} {endings : List Ending} {fault : Fault}
    (failed : hasEnding name endings = .error fault) : fault = .wrongKind := by
  induction endings with
  | nil => cases failed
  | cons ending rest ih =>
      cases ending with
      | other =>
          cases failed
          rfl
      | broken => exact ih failed
      | text tail =>
          rw [hasEnding] at failed
          split at failed
          · cases failed
          · exact ih failed

theorem hasEnding_error_iff (name : String) (endings : List Ending) :
    (∃ fault, hasEnding name endings = .error fault) ↔ Undecided endings name := by
  induction endings with
  | nil => simp [hasEnding, Undecided]
  | cons ending rest ih =>
      -- An ending that does not decide is passed, and is then the first of those before.
      have passes : (∀ tail, ending = .text tail → Text.endsWith name tail = false) →
          ending ≠ .other → (Undecided rest name ↔ Undecided (ending :: rest) name) := by
        intro passed other
        constructor
        · rintro ⟨before, after, rfl, none⟩
          refine ⟨ending :: before, after, rfl, fun tail member => ?_⟩
          rcases List.mem_cons.mp member with same | later
          · exact passed tail same.symm
          · exact none tail later
        · rintro ⟨before, after, same, none⟩
          cases before with
          | nil =>
              cases same
              exact absurd rfl other
          | cons first more =>
              cases same
              exact ⟨more, after, rfl, fun tail member => none tail (List.mem_cons_of_mem _ member)⟩
      cases ending with
      | other =>
          simp only [hasEnding, Except.error.injEq, exists_eq', true_iff]
          exact ⟨[], rest, rfl, by simp⟩
      | broken => exact ih.trans (passes (by simp) (by simp))
      | text tail =>
          rw [hasEnding]
          by_cases ends : Text.endsWith name tail = true
          · simp only [ends, if_true, reduceCtorEq, exists_false, false_iff]
            rintro ⟨before, after, same, none⟩
            cases before with
            | nil => cases same
            | cons first more =>
                cases same
                have refused := none tail List.mem_cons_self
                rw [ends] at refused
                cases refused
          · rw [if_neg ends]
            exact ih.trans (passes (by simpa using ends) (by simp))

namespace Scan

/-- The files whose names `visitFiles` tests. -/
def fileTests (scan : Scan) (dir : Path) (disk : Disk) : List String → List Path
  | [] => []
  | name :: rest =>
    dir.entry name :: match hasEnding name scan.endings with
      | .error _ => []
      | .ok false => fileTests scan dir disk rest
      | .ok true =>
        match disk.isFile (dir.entry name) with
        | .error _ => []
        | .ok _ => fileTests scan dir disk rest

/-- The files whose names `visit` tests, each with the disk as it is then. -/
def tests (scan : Scan) : Nat → Path → Progress → List (Disk × Path)
  | 0, _, _ => []
  | depth + 1, rel, progress =>
    let dir := scan.scratch.join rel
    if hasNull dir then []
    else match progress.disk.list dir with
    | .error _ => []
    | .ok (loc, names) =>
      let (dirs, files) := (Sorting.sorted names).partition (leadsToDirectory progress.disk loc dir)
      match scan.mirror rel progress with
      | (_, .error _) => []
      | (progress, .ok ()) =>
        (scan.fileTests dir progress.disk files).map (fun path => (progress.disk, path)) ++
          match scan.visitFiles rel dir progress files with
          | (_, .error _) => []
          | (progress, .ok ()) =>
            allLooks (tests scan depth) (visit scan depth) scan rel progress dirs

/-- The files whose names a whole walk tests. -/
def runTests (scan : Scan) (disk : Disk) (registry : Registry) : List (Disk × Path) :=
  scan.tests (pathLimit + 1) ⟨.here, []⟩ ⟨disk, registry, [], 0⟩

/-- A test that cannot be made. -/
def Unmade (scan : Scan) (test : Disk × Path) : Prop := Undecided scan.endings test.2.basename

theorem visitFiles_misfit_iff (scan : Scan) (rel dir : Path) (progress : Progress)
    (names : List String) :
    Misfit (scan.visitFiles rel dir progress names).2 ↔
      ∃ path ∈ scan.fileTests dir progress.disk names,
        scan.Unmade (progress.disk, path) := by
  induction names generalizing progress with
  | nil => simp [visitFiles, fileTests]
  | cons name rest ih =>
      have here : scan.Unmade (progress.disk, dir.entry name) ↔
          ∃ fault, hasEnding name scan.endings = .error fault := by
        rw [hasEnding_error_iff, Unmade]
        simp [Path.basename_entry]
      rw [visitFiles, fileTests, List.exists_mem_cons_iff, here]
      cases ends : hasEnding name scan.endings with
      | error fault => simp [hasEnding_misfit ends]
      | ok taken =>
          simp only [reduceCtorEq, exists_false, false_or]
          cases taken with
          | false => exact ih progress
          | true =>
              dsimp only
              cases found : progress.disk.isFile (dir.entry name) with
              | error fault =>
                  obtain ⟨e, rfl⟩ := holds_fault found
                  simp
              | ok there =>
                  cases there with
                  | false => exact ih progress
                  | true => exact ih _

theorem mirror_fits (scan : Scan) (rel : Path) (progress : Progress) :
    ¬ Misfit (scan.mirror rel progress).2 := by
  unfold mirror
  split
  · exact not_misfit_ok ()
  · rcases made : progress.disk.ensureDirectory (scan.root.join rel) with ⟨disk, fault | _⟩
    · exact not_misfit_blame (ensureDirectory_fits (by rw [made])) _
    · exact not_misfit_ok ()

theorem visit_misfit_iff (scan : Scan) (depth : Nat) (rel : Path) (progress : Progress) :
    Misfit (scan.visit depth rel progress).2 ↔
      ∃ test ∈ scan.tests depth rel progress, scan.Unmade test := by
  induction depth generalizing rel progress with
  | zero => simp [visit, tests]
  | succ depth ih =>
      rw [visit, tests]
      dsimp only
      split
      · simp
      · rcases listed : progress.disk.list (scan.scratch.join rel) with cause | ⟨loc, names⟩
        · simp
        · have guarded := scan.mirror_fits rel progress
          dsimp only
          rcases mirrored : scan.mirror rel progress with ⟨next, failure | _⟩
          · rw [mirrored] at guarded
            simpa using guarded
          · dsimp only
            generalize (Sorting.sorted names).partition
              (leadsToDirectory progress.disk loc (scan.scratch.join rel)) = parts
            have here := scan.visitFiles_misfit_iff rel (scan.scratch.join rel) next parts.2
            rcases taken : scan.visitFiles rel (scan.scratch.join rel) next parts.2 with
              ⟨last, failure | _⟩
            · rw [taken] at here
              simpa using here
            · rw [taken] at here
              have none := mt here.mpr (not_misfit_ok ())
              simp only [List.mem_append, List.mem_map, or_and_right, exists_or]
              rw [or_iff_right (by
                rintro ⟨test, ⟨path, member, rfl⟩, unmade⟩
                exact none ⟨path, member, unmade⟩)]
              exact visitAll_fails_iff (fun _ => True) (not_misfit_ok ()) trivial
                fun name _ progress _ => ⟨trivial, ih (rel.entry name) progress⟩

/-- A walk fails over the kind of an ending exactly where it comes to a name that the endings before
that one leave undecided. -/
theorem run_misfit_iff (scan : Scan) (disk : Disk) (registry : Registry) :
    Misfit (scan.run disk registry).2 ↔
      ∃ test ∈ scan.runTests disk registry, scan.Unmade test :=
  scan.visit_misfit_iff _ _ _

end Scan
end Emplace

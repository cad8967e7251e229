import Emplace.Proofs.Disk.Calls
import Emplace.Scan

/-!
What a walk keeps. It changes its progress in two ways, by making a directory and by taking a file
into account, so what both keep is kept by the whole walk, wherever it ends.
-/
namespace Emplace.Scan

open Disk

/-- What is kept by the two steps of a walk. -/
structure Keeps (scan : Scan) (motive : Progress → Prop) : Prop where
  mirror : ∀ rel progress, rel.anchor = .here → hasNull rel = false → motive progress →
    motive (scan.mirror rel progress).1
  take : ∀ rel file progress, progress.disk.isFile file = .ok true → motive progress →
    motive (progress.take rel file)

variable {scan : Scan} {motive : Progress → Prop}

theorem Keeps.visitFiles (keeps : scan.Keeps motive) (rel dir : Path) {progress : Progress}
    (start : motive progress) (names : List String) :
    motive (scan.visitFiles rel dir progress names).1 := by
  induction names generalizing progress with
  | nil => exact start
  | cons name rest ih =>
      rw [Scan.visitFiles]
      split
      · exact start
      · exact ih start
      · split
        · exact start
        · exact ih start
        · rename_i there
          exact ih (keeps.take _ _ progress there start)

theorem Keeps.visitAll {visit : Path → Progress → Progress × Except Failure Unit} {rel : Path}
    (each : ∀ name progress, motive progress → motive (visit (rel.entry name) progress).1)
    {progress : Progress} (start : motive progress) (names : List String) :
    motive (visitAll visit scan rel progress names).1 := by
  induction names generalizing progress with
  | nil => exact start
  | cons name rest ih =>
      rw [Scan.visitAll]
      split
      · exact ih start
      · have after := each name progress start
        rcases outcome : visit (rel.entry name) progress with ⟨next, failure | _⟩
        · rw [outcome] at after
          exact after
        · rw [outcome] at after
          exact ih after

theorem Keeps.visit (keeps : scan.Keeps motive) (depth : Nat) {rel : Path}
    (anchor : rel.anchor = .here) {progress : Progress} (start : motive progress) :
    motive (scan.visit depth rel progress).1 := by
  induction depth generalizing rel progress with
  | zero => exact start
  | succ depth ih =>
      rw [Scan.visit]
      cases null : hasNull (scan.scratch.join rel) with
      | true => exact start
      | false =>
          cases progress.disk.list (scan.scratch.join rel) with
          | error cause => exact start
          | ok listed =>
              dsimp only
              have made := keeps.mirror rel progress anchor (hasNull_of_join anchor null) start
              rcases mirrored : scan.mirror rel progress with ⟨next, failure | _⟩
              · rw [mirrored] at made
                exact made
              · rw [mirrored] at made
                dsimp only
                generalize (Sorting.sorted listed.2).partition
                  (leadsToDirectory progress.disk listed.1 (scan.scratch.join rel)) = parts
                have fed := keeps.visitFiles rel (scan.scratch.join rel) made parts.2
                rcases taken : scan.visitFiles rel (scan.scratch.join rel) next parts.2 with
                  ⟨last, failure | _⟩
                · rw [taken] at fed
                  exact fed
                · rw [taken] at fed
                  refine Keeps.visitAll (fun name progress here => ?_) fed parts.1
                  have below : (rel.entry name).anchor = .here := anchor
                  exact ih below here

theorem Keeps.run (keeps : scan.Keeps motive) {disk : Disk} {registry : Registry}
    (start : motive ⟨disk, registry, [], 0⟩) : motive (scan.run disk registry).1 :=
  keeps.visit _ rfl start

theorem mirror_disk (scan : Scan) (rel : Path) (progress : Progress) :
    (scan.mirror rel progress).1.disk = if rel.names = [] then progress.disk
      else (progress.disk.ensureDirectory (scan.root.join rel)).1 := by
  unfold mirror
  split
  · rfl
  · rcases progress.disk.ensureDirectory (scan.root.join rel) with ⟨made, fault | _⟩ <;> rfl

/-- The disk changes by directories that are made, so what making them keeps is kept. -/
theorem keeps_disk (scan : Scan) {motive : Disk → Prop}
    (step : ∀ disk rel, hasNull rel = false → motive disk →
      motive (disk.ensureDirectory (scan.root.join rel)).1) :
    scan.Keeps fun progress => motive progress.disk := by
  constructor
  · intro rel progress _ clear holds
    rw [mirror_disk]
    split
    · exact holds
    · exact step progress.disk rel clear holds
  · exact fun rel file progress _ holds => holds

theorem run_grows (scan : Scan) (disk : Disk) (registry : Registry) :
    Grows disk (scan.run disk registry).1.disk := by
  have keeps := scan.keeps_disk (motive := Grows disk) fun part _ _ grown =>
    grown.trans (ensureDirectory_grows part _)
  exact keeps.run (.refl disk)

theorem run_spares (scan : Scan) (disk : Disk) (registry : Registry) (loc : Location) :
    Spared disk (scan.run disk registry).1.disk loc := by
  have keeps := scan.keeps_disk (motive := (Spared disk · loc)) fun part _ _ spared =>
    spared.trans (ensureDirectory_spares part _ loc)
  exact keeps.run (Or.inl rfl)

/-- A walk leaves everything that it finds and adds directories alone, whatever its root is. -/
theorem run_fills (scan : Scan) (disk : Disk) (registry : Registry) (base : Location) :
    Fills base disk (scan.run disk registry).1.disk :=
  ⟨run_grows scan disk registry, fun loc _ => run_spares scan disk registry loc⟩

end Emplace.Scan

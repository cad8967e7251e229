import Emplace.Proofs.Disk.Reordered
import Emplace.Proofs.Sorting
import Emplace.Scan

/-!
Two walks side by side. A walk sorts what a directory lists before it uses it, so two walks that begin
on disks with the same entries make the same steps, in the same order, whatever else differs between
them; a relation that single steps keep holds at their ends.
-/
namespace Emplace

open Disk

namespace Scan

/-- A relation between two walks that holds on disks with the same entries and is kept by the two
steps of a walk; directories are refused to both alike. -/
structure Abreast (scan : Scan) (related : Progress → Progress → Prop) : Prop where
  disks : ∀ first second, related first second → Reordered first.disk second.disk
  mirror : ∀ rel first second, related first second →
    (scan.mirror rel first).2 = (scan.mirror rel second).2 ∧
      related (scan.mirror rel first).1 (scan.mirror rel second).1
  take : ∀ rel file first second, related first second →
    related (first.take rel file) (second.take rel file)

/-- Two parts of a walk that end in the same way, at points that are related. -/
def EndRelated (related : Progress → Progress → Prop)
    (first second : Progress × Except Failure Unit) : Prop :=
  first.2 = second.2 ∧ related first.1 second.1

variable {scan : Scan} {related : Progress → Progress → Prop} {first second : Progress}

theorem leadsToDirectory_of_same {a b : Disk} (same : Same a b) :
    leadsToDirectory b = leadsToDirectory a := by
  funext loc dir name
  unfold leadsToDirectory status
  rw [same.2, same.locate_eq]

theorem isLink_of_same {a b : Disk} (same : Same a b) : isLink b = isLink a := by
  funext path
  unfold isLink
  rw [same.locate_eq]

theorem Abreast.visitFiles (abreast : scan.Abreast related) (rel dir : Path)
    (start : related first second) (names : List String) :
    EndRelated related (scan.visitFiles rel dir first names)
      (scan.visitFiles rel dir second names) := by
  induction names generalizing first second with
  | nil => exact ⟨rfl, start⟩
  | cons name rest ih =>
      have same : second.disk.isFile (dir.entry name) = first.disk.isFile (dir.entry name) :=
        (abreast.disks _ _ start).same.holds_eq _ _
      rw [Scan.visitFiles, Scan.visitFiles, same]
      split
      · exact ⟨rfl, start⟩
      · exact ih start
      · split
        · exact ⟨rfl, start⟩
        · exact ih start
        · exact ih (abreast.take _ _ _ _ start)

theorem Abreast.visitAll (abreast : scan.Abreast related) {rel : Path}
    {visit : Path → Progress → Progress × Except Failure Unit}
    (each : ∀ name first second, related first second →
      EndRelated related (visit (rel.entry name) first) (visit (rel.entry name) second))
    (start : related first second) (names : List String) :
    EndRelated related (visitAll visit scan rel first names)
      (visitAll visit scan rel second names) := by
  induction names generalizing first second with
  | nil => exact ⟨rfl, start⟩
  | cons name rest ih =>
      rw [Scan.visitAll, Scan.visitAll, isLink_of_same (abreast.disks _ _ start).same]
      split
      · exact ih start
      · obtain ⟨same, here⟩ := each name first second start
        rcases early : visit (rel.entry name) first with ⟨left, result⟩
        rcases late : visit (rel.entry name) second with ⟨right, other⟩
        rw [early, late] at same here
        obtain rfl : result = other := same
        cases result with
        | error failure => exact ⟨rfl, here⟩
        | ok => exact ih here

theorem Abreast.visit (abreast : scan.Abreast related) (depth : Nat) (rel : Path)
    (start : related first second) :
    EndRelated related (scan.visit depth rel first) (scan.visit depth rel second) := by
  induction depth generalizing rel first second with
  | zero => exact ⟨rfl, start⟩
  | succ depth ih =>
      have disks := abreast.disks _ _ start
      rw [Scan.visit, Scan.visit]
      cases hasNull (scan.scratch.join rel) with
      | true => exact ⟨rfl, start⟩
      | false =>
          rcases disks.list (scan.scratch.join rel) with ⟨cause, left, right⟩ | ⟨loc, left, right⟩
          · rw [left, right]
            exact ⟨rfl, start⟩
          · -- Sorting forgets the order in which the two disks list the directory.
            rw [left, right]
            simp only [Bool.false_eq_true, if_false, leadsToDirectory_of_same disks.same,
              Sorting.sorted_eq_of_perm (disks.names loc)]
            generalize (Sorting.sorted (second.disk.names loc)).partition
              (leadsToDirectory first.disk loc (scan.scratch.join rel)) = parts
            obtain ⟨same, made⟩ := abreast.mirror rel first second start
            rcases early : scan.mirror rel first with ⟨next, result⟩
            rcases late : scan.mirror rel second with ⟨other, ending⟩
            rw [early, late] at same made
            obtain rfl : result = ending := same
            cases result with
            | error failure => exact ⟨rfl, made⟩
            | ok =>
                dsimp only
                obtain ⟨same, fed⟩ :=
                  abreast.visitFiles rel (scan.scratch.join rel) made parts.2
                rcases early : scan.visitFiles rel (scan.scratch.join rel) next parts.2 with
                  ⟨last, result⟩
                rcases late : scan.visitFiles rel (scan.scratch.join rel) other parts.2 with
                  ⟨final, ending⟩
                rw [early, late] at same fed
                obtain rfl : result = ending := same
                cases result with
                | error failure => exact ⟨rfl, fed⟩
                | ok => exact abreast.visitAll (fun name _ _ here => ih _ here) fed parts.1

theorem Abreast.run (abreast : scan.Abreast related) {a b : Disk} {registry other : Registry}
    (start : related ⟨a, registry, [], 0⟩ ⟨b, other, [], 0⟩) :
    EndRelated related (scan.run a registry) (scan.run b other) :=
  abreast.visit _ _ start

/-- Points of two walks that differ in nothing but the order in which directories list their
names. -/
structure Level (first second : Progress) : Prop where
  disk : Reordered first.disk second.disk
  registry : first.registry = second.registry
  notes : first.notes = second.notes
  seen : first.seen = second.seen

theorem abreast_level (scan : Scan) : scan.Abreast Level := by
  refine ⟨fun _ _ level => level.disk, fun rel first second level => ?_,
    fun rel file first second level => ?_⟩
  · unfold mirror
    split
    · exact ⟨rfl, level⟩
    · obtain ⟨same, disk⟩ := level.disk.ensureDirectory (scan.root.join rel)
      rcases early : first.disk.ensureDirectory (scan.root.join rel) with ⟨part, result⟩
      rcases late : second.disk.ensureDirectory (scan.root.join rel) with ⟨other, ending⟩
      rw [early, late] at same disk
      obtain rfl : result = ending := same
      cases result <;> exact ⟨rfl, ⟨disk, level.registry, level.notes, level.seen⟩⟩
  · unfold Progress.take
    rw [level.registry, level.notes, level.seen]
    exact ⟨level.disk, rfl, rfl, rfl⟩

/-- A walk ends as it does in whatever order directories list their names. -/
theorem run_level (scan : Scan) {a b : Disk} (reordered : Reordered a b) (registry : Registry) :
    EndRelated Level (scan.run a registry) (scan.run b registry) :=
  (abreast_level scan).run ⟨reordered, rfl, rfl, rfl⟩

end Scan
end Emplace

import Emplace.Proofs.Reconciliation.Outcome
import Emplace.Proofs.Scan.Abreast

/-!
The declared paths are a set. Two lists of the same paths, in any order and with any repetitions, give
registries with different tables, but a walk and an emission see no more of a registry than the verdicts
on its declared paths, and these depend on the set alone.
-/
namespace Emplace

open Registry Scan

variable {first second : List String}

namespace Registry

theorem lone_congr (same : ∀ path, path ∈ first ↔ path ∈ second) (path : String) :
    Lone first path ↔ Lone second path :=
  forall_congr' fun other => imp_congr (same other) .rfl

theorem settled_congr (same : ∀ path, path ∈ first ↔ path ∈ second) (files : List (String × Path))
    (path : String) : settled first files path = settled second files path := by
  have lone := lone_congr same path
  unfold settled verdict
  simp only [lone]

/-- The expected records are the verdicts in ascending order, whichever way the paths were declared. -/
theorem Tracks.expectedRecords_eq {files : List (String × Path)} {registry other : Registry}
    (tracks : Tracks first files registry) (tracksToo : Tracks second files other)
    (same : ∀ path, path ∈ first ↔ path ∈ second) :
    other.expectedRecords = registry.expectedRecords := by
  have ascending := tracks.expectedRecords_ascending
  have ascendingToo := tracksToo.expectedRecords_ascending
  have once := List.Nodup.of_map _ tracks.expectedRecords_once
  have onceToo := List.Nodup.of_map _ tracksToo.expectedRecords_once
  apply Sorting.eq_of_ascending Record.path _ ascendingToo ascending
  rw [List.perm_ext_iff_of_nodup onceToo once]
  intro record
  rw [tracksToo.mem_expectedRecords, tracks.mem_expectedRecords]
  exact exists_congr fun path => and_congr (same path).symm (by rw [settled_congr same])

end Registry

namespace Scan

/-- Points of two walks on one disk with registries of different lists that have taken the same files
into account. -/
structure SameFiles (first second : List String) (one other : Progress) : Prop where
  disk : one.disk = other.disk
  registry : ∃ files, Tracks first files one.registry ∧ Tracks second files other.registry

theorem abreast_sameFiles (scan : Scan) (first second : List String) :
    scan.Abreast (SameFiles first second) := by
  refine ⟨fun one other here => ?_, fun rel one other here => ?_, fun rel file one other here => ?_⟩
  · rw [here.disk]
    exact .refl other.disk
  · unfold mirror
    split
    · exact ⟨rfl, here⟩
    · rw [here.disk]
      rcases other.disk.ensureDirectory (scan.root.join rel) with ⟨made, fault | _⟩
        <;> exact ⟨rfl, rfl, here.registry⟩
  · obtain ⟨files, tracks, tracksToo⟩ := here.registry
    exact ⟨here.disk, _, tracks.discover rel.text file, tracksToo.discover rel.text file⟩

/-- Walks into registries of any two lists take the same files into account and end alike. -/
theorem run_sameFiles (scan : Scan) (disk : Disk) (first second : List String) :
    EndRelated (SameFiles first second) (scan.run disk (declare first))
      (scan.run disk (declare second)) :=
  (abreast_sameFiles scan first second).run
    ⟨rfl, [], tracks_declare first, tracks_declare second⟩

end Scan

namespace Reconciliation

/-- What a walk leaves for the emission is its disk and the expected records. -/
theorem run_congr (plan : Reconciliation) (disk : Disk) {registry other : Registry}
    (ends : (plan.scan.run disk registry).2 = (plan.scan.run disk other).2)
    (disks : (plan.scan.run disk registry).1.disk = (plan.scan.run disk other).1.disk)
    (records : (plan.scan.run disk other).1.registry.expectedRecords =
      (plan.scan.run disk registry).1.registry.expectedRecords) :
    (plan.run disk other).result = (plan.run disk registry).result ∧
      (plan.run disk other).disk = (plan.run disk registry).disk := by
  unfold run
  rcases walked : plan.scan.run disk registry with ⟨progress, result⟩
  rcases walkedToo : plan.scan.run disk other with ⟨later, ending⟩
  rw [walked, walkedToo] at ends disks records
  obtain rfl : result = ending := ends
  cases result with
  | error failure => exact ⟨rfl, disks.symm⟩
  | ok =>
      have emitted : plan.emission.emit later.disk later.registry =
          plan.emission.emit progress.disk progress.registry := by
        rw [Emission.emit, Emission.emit, records, ← disks]
      simp only [emitted]
      rcases plan.emission.emit progress.disk progress.registry with
        ⟨after, notes, failure | counts⟩ <;> exact ⟨rfl, rfl⟩

/-- Two lists of the same declared paths are reconciled to the same end, the same disk and the same
expected records; these hold every declared path once, in ascending order. -/
theorem runDeclared_set (plan : Reconciliation) (disk : Disk)
    (same : ∀ path, path ∈ first ↔ path ∈ second) :
    let one := plan.runDeclared disk first
    let other := plan.runDeclared disk second
    other.result = one.result ∧ other.disk = one.disk ∧
      other.registry.expectedRecords = one.registry.expectedRecords ∧
      (one.registry.expectedRecords.map Record.path).Pairwise (· < ·) ∧
      ∀ path, path ∈ one.registry.expectedRecords.map Record.path ↔ path ∈ first := by
  intro one other
  obtain ⟨ends, ⟨disks, files, tracks, tracksToo⟩⟩ := plan.scan.run_sameFiles disk first second
  have records := tracks.expectedRecords_eq tracksToo same
  have here : one.registry = (plan.scan.run disk (declare first)).1.registry :=
    run_registry plan disk (declare first)
  have there : other.registry = (plan.scan.run disk (declare second)).1.registry :=
    run_registry plan disk (declare second)
  rw [here, there]
  obtain ⟨result, disk⟩ := run_congr plan disk ends disks records
  refine ⟨result, disk, records, List.pairwise_map.mpr tracks.expectedRecords_ascending,
    fun path => ?_⟩
  simp only [List.mem_map, tracks.mem_expectedRecords]
  constructor
  · rintro ⟨record, ⟨declared, member, rfl⟩, rfl⟩
    exact member
  · exact fun member => ⟨_, ⟨path, member, rfl⟩, rfl⟩

/-- A list in another order and with repetitions, some of whose paths share their last name. -/
theorem runDeclared_set_shuffled :
    let first := ["a.go", "pkg/c.go", "a/d.go", "b/d.go"]
    let second := ["b/d.go", "pkg/c.go", "a.go", "b/d.go", "a/d.go", "pkg/c.go"]
    let other := mixedPlan.runDeclared mixedDisk second
    (∀ path, path ∈ first ↔ path ∈ second) ∧
      other.result = (mixedPlan.runDeclared mixedDisk first).result ∧
      other.disk = (mixedPlan.runDeclared mixedDisk first).disk ∧
      (mixedPlan.runDeclared mixedDisk first).registry.expectedRecords.map
          (fun record => (record.path, record.unique, record.state)) =
        [("a.go", true, .exact), ("a/d.go", false, .unmatched), ("b/d.go", false, .unmatched),
          ("pkg/c.go", true, .fallback)] ∧
      other.registry.expectedRecords =
        (mixedPlan.runDeclared mixedDisk first).registry.expectedRecords := by
  intro first second other
  have same : ∀ path, path ∈ first ↔ path ∈ second := by
    simp only [first, second, List.mem_cons, List.not_mem_nil, or_false]
    tauto
  obtain ⟨result, disk, records, _⟩ := runDeclared_set mixedPlan mixedDisk same
  exact ⟨same, result, disk, by decide +kernel, records⟩

end Reconciliation
end Emplace

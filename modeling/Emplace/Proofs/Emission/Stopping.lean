import Emplace.Proofs.Disk.Making
import Emplace.Proofs.Emission.Ambiguity

/-!
Emissions that are cut short. The records before the one that fails are written in full, the failing
one changes no file, and the records behind it are never come to.
-/
namespace Emplace

open Disk

namespace Emission

variable {plan : Emission} {disk after : Disk} {record : Record} {records : List Record}
  {failure : Failure}

/-- A record that fails does so before a file is opened: at most directories above its target are
made. -/
theorem writeRecord_madeAlong
    (failed : plan.writeRecord disk record = (after, .error failure)) :
    after = disk ∨ ∃ target,
      targetLocation disk (plan.rootOf record.state) record.path = .ok target ∧
        MadeAlong (pathOf target).parent disk after := by
  have writes := writeRecord_writes plan disk record
  rw [failed] at writes
  cases writes with
  | refused => exact Or.inl rfl
  | @halted target _ found =>
      exact Or.inr ⟨target, found, ensureDirectory_madeAlong disk (pathOf target).parent⟩

/-- Records are cut short by the first one that fails, after all before it are written. -/
theorem writeRecords_error_iff (plan : Emission) (disk : Disk) (found : Emitted)
    (records : List Record) (after : Disk) (failure : Failure) :
    (∃ notes, plan.writeRecords disk found records = (after, notes, .error failure)) ↔
      ∃ front record rest middle, records = front ++ record :: rest ∧
        WritesAll plan disk front middle ∧
        plan.writeRecord middle record = (after, .error failure) := by
  induction records generalizing disk found with
  | nil => simp [writeRecords]
  | cons head rest ih =>
      rw [writeRecords]
      rcases outcome : plan.writeRecord disk head with ⟨next, cause | _⟩
      · -- The head itself fails, so no record before the failing one can be written.
        constructor
        · rintro ⟨notes, same⟩
          cases same
          exact ⟨[], head, rest, disk, rfl, .nil disk, outcome⟩
        · rintro ⟨front, record, more, middle, parts, writes, failed⟩
          cases writes with
          | nil =>
              cases parts
              rw [outcome] at failed
              cases failed
              exact ⟨_, rfl⟩
          | cons written =>
              cases parts
              rw [outcome] at written
              cases written
      · have later := ih next (Emitted.add found head)
        constructor
        · rintro ⟨notes, same⟩
          rcases tail : plan.writeRecords next (Emitted.add found head) rest with
            ⟨last, more, result⟩
          simp only [tail, Prod.mk.injEq] at same
          obtain ⟨rfl, -, rfl⟩ := same
          obtain ⟨front, record, behind, middle, rfl, writes, failed⟩ := later.mp ⟨more, tail⟩
          exact ⟨head :: front, record, behind, middle, rfl, .cons outcome writes, failed⟩
        · rintro ⟨front, record, more, middle, parts, writes, failed⟩
          cases writes with
          | nil =>
              cases parts
              rw [outcome] at failed
              cases failed
          | cons written writes =>
              obtain ⟨rfl, rfl⟩ := List.cons_eq_cons.mp parts
              rw [outcome] at written
              cases written
              obtain ⟨notes, same⟩ := later.mpr ⟨_, record, more, middle, rfl, writes, failed⟩
              exact ⟨recordNotes head ++ notes, by simp only [same]⟩

/-- Ambiguous records can be left out. -/
theorem WritesAll.decided (writes : WritesAll plan disk records after) :
    WritesAll plan disk (decided records) after := by
  induction writes with
  | nil disk => exact .nil disk
  | @cons disk next after record rest written _ ih =>
      by_cases ambiguous : record.state = .ambiguous
      · rw [writeRecord_ambiguous ambiguous] at written
        cases written
        simpa [Emission.decided, ambiguous] using ih
      · simpa [Emission.decided, ambiguous] using WritesAll.cons written ih

theorem emit_eq_error {registry : Registry}
    (failed : (plan.emit disk registry).2.2 = .error failure)
    (other : ∀ paths importpath, failure ≠ .reconcile (.ambiguous paths importpath)) :
    ∃ notes, plan.writeRecords disk ⟨[], []⟩ registry.expectedRecords =
      ((plan.emit disk registry).1, notes, .error failure) := by
  rw [emit_fst]
  unfold emit at failed
  rcases whole : plan.writeRecords disk ⟨[], []⟩ registry.expectedRecords with
    ⟨last, notes, cause | found⟩
  · simp only [whole, Except.error.injEq] at failed
    exact ⟨notes, by rw [failed]⟩
  · simp only [whole] at failed
    split at failed
    · cases failed
    · cases failed
      exact absurd rfl (other _ _)

/-- An emission that ends in anything but a report of ambiguous outputs ends at one of its records, in
ascending order of their paths. Up to that record everything is written but for ambiguous records;
the record itself changes nothing that is there and makes at most directories above its target. -/
theorem emit_cut_short (plan : Emission) (disk : Disk) (registry : Registry) (failure : Failure)
    (failed : (plan.emit disk registry).2.2 = .error failure)
    (other : ∀ paths importpath, failure ≠ .reconcile (.ambiguous paths importpath)) :
    registry.expectedRecords.Pairwise (fun a b => a.path ≤ b.path) ∧
    ∃ k record middle, registry.expectedRecords[k]? = some record ∧
      WritesAll plan disk (decided (registry.expectedRecords.take k)) middle ∧
      plan.writeRecord middle record = ((plan.emit disk registry).1, .error failure) ∧
      ((plan.emit disk registry).1 = middle ∨ ∃ target,
        targetLocation middle (plan.rootOf record.state) record.path = .ok target ∧
          MadeAlong (pathOf target).parent middle (plan.emit disk registry).1) ∧
      ∀ loc entry, middle.get? loc = some entry →
        (plan.emit disk registry).1.get? loc = some entry := by
  refine ⟨Sorting.sortBy_ascending Record.path _, ?_⟩
  obtain ⟨notes, whole⟩ := emit_eq_error failed other
  generalize (plan.emit disk registry).1 = after at whole
  obtain ⟨front, record, rest, middle, parts, writes, halted⟩ :=
    (writeRecords_error_iff plan disk _ _ _ _).mp ⟨notes, whole⟩
  have made := writeRecord_madeAlong halted
  refine ⟨front.length, record, middle, ?_, ?_, halted, made, ?_⟩
  · simp [parts]
  · rw [parts, List.take_left]
    exact writes.decided
  · intro loc entry found
    rcases made with rfl | ⟨_, _, along⟩
    · exact found
    · exact along.keeps found

/-- An output with a source, one whose source is gone, and one behind it. -/
def severedDisk : Disk :=
  ⟨[], [(["out"], .directory), (["out", "b.go"], .file ⟨#[7]⟩ false), (["scratch"], .directory),
    (["scratch", "a.go"], .file ⟨#[1]⟩ false), (["scratch", "c.go"], .file ⟨#[3]⟩ false)]⟩

def severedRegistry : Registry :=
  (Registry.declare ["c.go", "b.go", "a.go"]).discoverAll
    (["c.go", "b.go", "a.go"].map fun rel => (rel, Path.ofString ("scratch/" ++ rel)))

/-- The target whose source cannot be read keeps its bytes. -/
theorem emit_cut_short_severed :
    let final := (rivalPlan.emit severedDisk severedRegistry).1
    (∃ k record middle, severedRegistry.expectedRecords[k]? = some record ∧
      WritesAll rivalPlan severedDisk (decided (severedRegistry.expectedRecords.take k)) middle ∧
      (∃ failure, rivalPlan.writeRecord middle record = (final, .error failure)) ∧
      ∀ loc entry, middle.get? loc = some entry → final.get? loc = some entry) ∧
    final.get? ["out", "a.go"] = some (.file ⟨#[1]⟩ false) ∧
    final.get? ["out", "b.go"] = some (.file ⟨#[7]⟩ false) ∧
    final.get? ["out", "c.go"] = none := by
  intro final
  have failed : (rivalPlan.emit severedDisk severedRegistry).2.2 =
      .error (.reconcile (.notCopied "scratch/b.go" "b.go" ⟨.noEntry, "scratch/b.go"⟩)) := by
    decide +kernel
  obtain ⟨_, k, record, middle, here, writes, halted, _, kept⟩ :=
    emit_cut_short rivalPlan severedDisk severedRegistry _ failed (by simp)
  exact ⟨⟨k, record, middle, here, writes, ⟨_, halted⟩, kept⟩, by decide +kernel, by decide +kernel,
    by decide +kernel⟩

end Emission
end Emplace

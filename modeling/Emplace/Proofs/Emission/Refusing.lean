import Emplace.Proofs.Disk.Faults
import Emplace.Proofs.Disk.Legible
import Emplace.Proofs.Emission.Writing

/-!
Where an emission fails without a stage to answer for it. Making directories, reading and writing
are guarded; the locations of a declared path and of the root are worked out without a guard, and
that is refused where the system meets a circle of links in the end.
-/
namespace Emplace

open Disk

variable {disk : Disk} {root : Path} {rel : String}

theorem targetLocation_faulty_iff (legible : Legible disk) (clear : hasNull root = false)
    (good : '\x00' ∉ rel.toList) : Faulty (targetLocation disk root rel) ↔
      Looping disk (root.join (Path.ofString rel)) ∨ Looping disk root := by
  rw [← canonical_fault_iff legible (hasNull_join clear (hasNull_ofString good)),
    ← canonical_fault_iff legible clear]
  unfold targetLocation
  cases disk.canonical (root.join (Path.ofString rel)) with
  | error fault => simp
  | ok target =>
      cases disk.canonical root with
      | error fault => simp
      | ok base =>
          dsimp only
          split <;> simp

theorem hasNull_target {target : Location} (found : targetLocation disk root rel = .ok target) :
    hasNull (pathOf target) = false := by
  obtain ⟨_, _, _, clear⟩ := canonical_eq_ok (targetLocation_eq_ok found).1
  exact clear

theorem hasNull_parent {path : Path} (clear : hasNull path = false) :
    hasNull path.parent = false :=
  hasNull_eq_false fun name member =>
    (hasNull_eq_false_iff path).mp clear name (List.mem_of_mem_dropLast member)

theorem prepareTarget_faulty_iff (legible : Legible disk) (clear : hasNull root = false)
    (good : '\x00' ∉ rel.toList) : Faulty (prepareTarget disk root rel).2 ↔
      Looping disk (root.join (Path.ofString rel)) ∨ Looping disk root := by
  rw [← targetLocation_faulty_iff legible clear good]
  unfold prepareTarget
  cases found : targetLocation disk root rel with
  | error failure => exact faulty_error_iff failure
  | ok target =>
      dsimp only
      rcases made : disk.ensureDirectory (pathOf target).parent with ⟨next, fault | _⟩
      · have system := ensureDirectory_fault (hasNull_parent (hasNull_target found)) (by rw [made])
        simp only [not_faulty_ok, not_faulty_blame system]
      · simp

theorem hasNull_prepared {next : Disk} {path : Path}
    (prepared : prepareTarget disk root rel = (next, .ok path)) : hasNull path = false := by
  unfold prepareTarget at prepared
  split at prepared
  · cases prepared
  · rename_i target found
    dsimp only at prepared
    split at prepared
    · cases prepared
      exact hasNull_target found
    · cases prepared

namespace Emission

variable {plan : Emission} {record : Record} {records : List Record}

/-- A record whose path or root the system still finds in a circle of links once it is worked
out. -/
def Stuck (plan : Emission) (stop : Disk × Record) : Prop :=
  stop.2.state ≠ .ambiguous ∧
    (Looping stop.1 ((plan.rootOf stop.2.state).join (Path.ofString stop.2.path)) ∨
      Looping stop.1 (plan.rootOf stop.2.state))

instance (plan : Emission) (stop : Disk × Record) : Decidable (plan.Stuck stop) := by
  unfold Stuck
  infer_instance

/-- Paths and words of an emission that the system can be given. -/
structure Readable (plan : Emission) : Prop where
  root : hasNull plan.root = false
  placeholderRoot : hasNull plan.placeholderRoot = false
  words : ∃ text, plan.words.content = .ok text

/-- Paths of a record that the system can be given; a matched one has a source. -/
structure Known (record : Record) : Prop where
  path : '\x00' ∉ record.path.toList
  source : record.state.isMatch →
    ∃ source, record.source = some source ∧ hasNull source = false

theorem Readable.rootOf (readable : plan.Readable) (state : MatchState) :
    hasNull (plan.rootOf state) = false := by
  cases state with
  | unmatched => exact readable.placeholderRoot
  | _ => exact readable.root

theorem writeRecord_legible (plan : Emission) (record : Record) (legible : Legible disk) :
    Legible (plan.writeRecord disk record).1 := by
  have writes := writeRecord_writes plan disk record
  generalize plan.writeRecord disk record = outcome at writes
  cases writes with
  | skipped => exact legible
  | refused => exact legible
  | halted failure found =>
      exact ensureDirectory_legible legible (hasNull_parent (hasNull_target found))
  | @done target made after bytes found ready _ written =>
      have kept := ensureDirectory_legible legible (hasNull_parent (hasNull_target found))
      rw [ready] at kept
      exact writeBytes_legible kept (hasNull_target found) written

theorem writePlaceholder_faulty_iff (legible : Legible disk) {words : Placeholder}
    (clear : hasNull root = false) (texts : ∃ text, words.content = .ok text)
    (good : '\x00' ∉ rel.toList) : Faulty (writePlaceholder disk root words rel).2 ↔
      Looping disk (root.join (Path.ofString rel)) ∨ Looping disk root := by
  rw [← prepareTarget_faulty_iff legible clear good]
  obtain ⟨text, content⟩ := texts
  unfold writePlaceholder
  rcases prepared : prepareTarget disk root rel with ⟨next, failure | path⟩
  · exact faulty_error_iff failure
  · simp only [content, not_faulty_ok, iff_false]
    cases written : next.writeBytes path text.toUTF8 with
    | ok after => exact not_faulty_ok ()
    | error fault => exact not_faulty_blame (answer_fault (hasNull_prepared prepared) written) _

theorem copySource_faulty_iff (legible : Legible disk) {source : Path}
    (clear : hasNull root = false) (known : hasNull source = false) (good : '\x00' ∉ rel.toList) :
    Faulty (copySource disk root (some source) rel).2 ↔
      Looping disk (root.join (Path.ofString rel)) ∨ Looping disk root := by
  rw [← prepareTarget_faulty_iff legible clear good]
  unfold copySource
  rcases prepared : prepareTarget disk root rel with ⟨next, failure | path⟩
  · exact faulty_error_iff failure
  · simp only [not_faulty_ok, iff_false]
    cases read : next.readBytes source with
    | error fault => exact not_faulty_blame (answer_fault known read) _
    | ok bytes =>
        dsimp only
        cases written : next.writeBytes path bytes with
        | ok after => exact not_faulty_ok ()
        | error fault => exact not_faulty_blame (answer_fault (hasNull_prepared prepared) written) _

theorem writeRecord_faulty_iff (readable : plan.Readable) (known : Known record)
    (legible : Legible disk) :
    Faulty (plan.writeRecord disk record).2 ↔ plan.Stuck (disk, record) := by
  have copying : record.state.isMatch → plan.rootOf record.state = plan.root →
      (Faulty (copySource disk plan.root record.source record.path).2 ↔
        plan.Stuck (disk, record)) := by
    intro matched below
    obtain ⟨source, same, clear⟩ := known.source matched
    have settled : record.state ≠ .ambiguous := by
      intro ambiguous
      simp [ambiguous, MatchState.isMatch] at matched
    rw [same, copySource_faulty_iff legible readable.root clear known.path]
    simp [Stuck, settled, below]
  unfold writeRecord
  cases state : record.state with
  | ambiguous => simp [Stuck, state]
  | unmatched =>
      have same := writePlaceholder_faulty_iff legible readable.placeholderRoot readable.words
        known.path
      simpa [Stuck, state, rootOf] using same
  | exact => exact copying (by rw [state]; rfl) (by rw [state]; rfl)
  | fallback => exact copying (by rw [state]; rfl) (by rw [state]; rfl)

theorem writeRecords_faulty_iff (readable : plan.Readable) (found : Emitted)
    (known : ∀ record ∈ records, Known record) (legible : Legible disk) :
    Faulty (plan.writeRecords disk found records).2.2 ↔
      ∃ stop ∈ plan.stops disk records, plan.Stuck stop := by
  induction records generalizing disk found with
  | nil => simp [writeRecords, stops]
  | cons record rest ih =>
      obtain ⟨first, later⟩ := List.forall_mem_cons.mp known
      have here := writeRecord_faulty_iff readable first legible
      have kept := writeRecord_legible plan record legible
      rw [writeRecords, stops]
      rcases outcome : plan.writeRecord disk record with ⟨next, failure | _⟩
      · rw [outcome] at here
        simp only [List.mem_singleton, exists_eq_left]
        exact (faulty_error_iff failure).trans here
      · rw [outcome] at here kept
        have free := not_of_faulty_ok_iff here
        rw [List.exists_mem_cons_iff, or_iff_right free]
        exact ih (Emitted.add found record) later kept

/-- An emission fails without a stage exactly where it comes to a record that is stuck. -/
theorem emit_faulty_iff (readable : plan.Readable) {registry : Registry}
    (known : ∀ record ∈ registry.expectedRecords, Known record) (legible : Legible disk) :
    Faulty (plan.emit disk registry).2.2 ↔
      ∃ stop ∈ plan.stops disk registry.expectedRecords, plan.Stuck stop := by
  rw [← writeRecords_faulty_iff readable ⟨[], []⟩ known legible]
  unfold emit
  rcases plan.writeRecords disk ⟨[], []⟩ registry.expectedRecords with ⟨after, notes, failure | found⟩
  · exact faulty_error_iff failure
  · simp only [not_faulty_ok, iff_false]
    cases found.ambiguous with
    | nil => exact not_faulty_ok _
    | cons path more => exact not_faulty_reconcile _

end Emission
end Emplace

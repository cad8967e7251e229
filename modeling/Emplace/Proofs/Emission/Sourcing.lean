import Emplace.Proofs.Emission.Stopping
import Emplace.Proofs.Registry.Consistency

/-!
Matched records without a source. An emission refuses one, but no registry that files lead to has
one.
-/
namespace Emplace

open Disk

/-- A fault is reported for want of a source only in a stage that reports all of them so. -/
theorem Fault.blame_ne_noSource {Item : Type} {stage : SystemError → Failure} {rel : String}
    (other : ∀ e, stage e ≠ .reconcile (.noSource rel)) (fault : Fault) :
    (.error (fault.blame stage) : Except Failure Item) ≠ .error (.reconcile (.noSource rel)) := by
  intro same
  cases fault with
  | system e => exact other e (Except.error.inj same)
  | _ => cases same

namespace Emission

variable {plan : Emission} {disk : Disk} {registry : Registry}

theorem prepareTarget_ne_noSource (disk : Disk) (root : Path) (path rel : String) :
    (prepareTarget disk root path).2 ≠ .error (.reconcile (.noSource rel)) := by
  intro failed
  unfold prepareTarget targetLocation at failed
  split at failed
  · rename_i refused
    cases failed
    split at refused
    · cases refused
    · split at refused
      · cases refused
      · split at refused <;> cases refused
  · dsimp only at failed
    split at failed
    · cases failed
    · exact Fault.blame_ne_noSource (by simp) _ failed

theorem failure_ne_noSource {root : Path} {path : String} {next : Disk} {failure : Failure}
    (prepared : prepareTarget disk root path = (next, .error failure)) (rel : String) :
    failure ≠ .reconcile (.noSource rel) := by
  have other := prepareTarget_ne_noSource disk root path rel
  rw [prepared] at other
  exact fun same => other (congrArg Except.error same)

theorem writePlaceholder_ne_noSource (disk : Disk) (root : Path) (words : Placeholder)
    (path rel : String) :
    (writePlaceholder disk root words path).2 ≠ .error (.reconcile (.noSource rel)) := by
  unfold writePlaceholder
  rcases prepared : prepareTarget disk root path with ⟨next, failure | target⟩
  · exact fun failed => failure_ne_noSource prepared rel (Except.error.inj failed)
  · cases content : words.content with
    | error fault => exact nofun
    | ok text =>
        dsimp only
        cases next.writeBytes target text.toUTF8 with
        | ok written => exact nofun
        | error fault => exact Fault.blame_ne_noSource (by simp) fault

theorem copySource_noSource_iff (disk : Disk) (root : Path) (source : Option Path)
    (path rel : String) :
    (copySource disk root source path).2 = .error (.reconcile (.noSource rel)) ↔
      source = none ∧ path = rel := by
  unfold copySource
  cases source with
  | none => simp
  | some file =>
      -- From here on every failure has another kind.
      simp only [reduceCtorEq, false_and, iff_false]
      rcases prepared : prepareTarget disk root path with ⟨next, failure | target⟩
      · exact fun failed => failure_ne_noSource prepared rel (Except.error.inj failed)
      · dsimp only
        cases next.readBytes file with
        | error fault => exact Fault.blame_ne_noSource (by simp) fault
        | ok bytes =>
            dsimp only
            cases next.writeBytes target bytes with
            | ok written => exact nofun
            | error fault => exact Fault.blame_ne_noSource (by simp) fault

/-- A record is refused for want of a source exactly where it is matched and has none. -/
theorem writeRecord_noSource_iff (plan : Emission) (disk : Disk) (record : Record) (rel : String) :
    (plan.writeRecord disk record).2 = .error (.reconcile (.noSource rel)) ↔
      record.state.isMatch ∧ record.source = none ∧ record.path = rel := by
  unfold writeRecord
  cases record.state with
  | ambiguous => simp [MatchState.isMatch]
  | unmatched =>
      simp only [MatchState.isMatch, Bool.false_eq_true, false_and, iff_false]
      exact writePlaceholder_ne_noSource disk _ _ _ rel
  | exact => simpa [MatchState.isMatch] using copySource_noSource_iff disk _ _ _ rel
  | fallback => simpa [MatchState.isMatch] using copySource_noSource_iff disk _ _ _ rel

/-- An emission that fails for want of a source has come to a matched record without one. -/
theorem emit_noSource {rel : String}
    (failed : (plan.emit disk registry).2.2 = .error (.reconcile (.noSource rel))) :
    ∃ record ∈ registry.expectedRecords, record.state.isMatch ∧ record.source = none := by
  obtain ⟨notes, whole⟩ := emit_eq_error failed nofun
  obtain ⟨front, record, rest, middle, parts, _, halted⟩ :=
    (writeRecords_error_iff plan disk _ _ _ _).mp ⟨notes, whole⟩
  obtain ⟨matched, missing, _⟩ :=
    (writeRecord_noSource_iff plan middle record rel).mp (by rw [halted])
  refine ⟨record, ?_, matched, missing⟩
  rw [parts]
  exact List.mem_append_right _ List.mem_cons_self

end Emission

/-- In every registry that files lead to from declared paths the tables agree with each other and with
the records, one more file keeps what was noted of the paths, and no emission finds a matched record
without a source. -/
theorem Registry.discoverAll_consistent (declared : List String) (files : List (String × Path)) :
    let registry := (declare declared).discoverAll files
    Consistent registry ∧
    (∀ rel source, KeepsNotes registry (registry.discover rel source).1) ∧
    (∀ path, path ∈ registry.expectedRecords.map Record.path ↔ path ∈ declared) ∧
    ∀ (plan : Emission) (disk : Disk) (rel : String),
      (plan.emit disk registry).2.2 ≠ .error (.reconcile (.noSource rel)) := by
  intro registry
  have tracks : Tracks declared files registry := tracks_discoverAll declared files
  have consistent := tracks.consistent
  refine ⟨consistent, fun rel source => ?_, tracks.mem_paths, fun plan disk rel failed => ?_⟩
  · exact tracks.keepsNotes (tracks.discover rel source)
  · obtain ⟨record, member, matched, missing⟩ := Emission.emit_noSource failed
    have known : record ∈ registry.records :=
      List.mem_of_mem_filter ((Sorting.sortBy_perm _ _).mem_iff.mp member)
    have sourced := (consistent.sourced record known).mpr
    rw [missing] at sourced
    cases state : record.state with
    | exact => exact absurd (sourced (Or.inl state)) (by simp)
    | fallback => exact absurd (sourced (Or.inr state)) (by simp)
    | _ => simp [state, MatchState.isMatch] at matched

end Emplace

import Emplace.Emission
import Emplace.Proofs.Disk.Calls

/-!
Writing the outputs of records. `Writes` lists the ways in which one record can end, so that what is
known of a whole emission is known of each of them; `stops` are the records that an emission comes
to before it ends.
-/
namespace Emplace

open Disk

theorem targetLocation_eq_ok {disk : Disk} {root : Path} {rel : String} {target : Location}
    (found : targetLocation disk root rel = .ok target) :
    disk.canonical (root.join (Path.ofString rel)) = .ok target ∧
      ∃ base, disk.canonical root = .ok base ∧ base <+: target := by
  unfold targetLocation at found
  split at found
  · cases found
  · rename_i loc first
    split at found
    · cases found
    · rename_i base second
      split at found
      · rename_i inside
        cases found
        exact ⟨first, base, second, List.isPrefixOf_iff_prefix.mp inside⟩
      · cases found

namespace Emission

/-- The directory that the output of a record is written below. -/
def rootOf (plan : Emission) : MatchState → Path
  | .unmatched => plan.placeholderRoot
  | _ => plan.root

/-- The bytes that the output of a record is given. -/
inductive Supplies (plan : Emission) (disk : Disk) (record : Record) : ByteArray → Prop where
  | standIn {content : String} : record.state = .unmatched → plan.words.content = .ok content →
      Supplies plan disk record content.toUTF8
  | copied {source : Path} {bytes : ByteArray} :
      record.state.isMatch → record.source = some source → disk.readBytes source = .ok bytes →
      Supplies plan disk record bytes

/-- The ways in which the writing of a record can end. -/
inductive Writes (plan : Emission) (disk : Disk) (record : Record) :
    Disk × Except Failure Unit → Prop where
  | skipped : record.state = .ambiguous → Writes plan disk record (disk, .ok ())
  | refused (failure : Failure) : Writes plan disk record (disk, .error failure)
  | halted {target : Location} (failure : Failure) :
      targetLocation disk (plan.rootOf record.state) record.path = .ok target →
      Writes plan disk record ((disk.ensureDirectory (pathOf target).parent).1, .error failure)
  | done {target : Location} {made after : Disk} {bytes : ByteArray} :
      targetLocation disk (plan.rootOf record.state) record.path = .ok target →
      disk.ensureDirectory (pathOf target).parent = (made, .ok ()) →
      Supplies plan made record bytes → made.writeBytes (pathOf target) bytes = .ok after →
      Writes plan disk record (after, .ok ())

variable {plan : Emission} {disk : Disk} {record : Record}

theorem rootOf_eq (same : plan.placeholderRoot = plan.root) (state : MatchState) :
    plan.rootOf state = plan.root := by
  cases state with
  | unmatched => exact same
  | _ => rfl

theorem Supplies.source {bytes : ByteArray} (supplies : plan.Supplies disk record bytes)
    (matched : record.state.isMatch) :
    ∃ source, record.source = some source ∧ disk.readBytes source = .ok bytes := by
  cases supplies with
  | standIn unmatched => simp [unmatched, MatchState.isMatch] at matched
  | copied _ known read => exact ⟨_, known, read⟩

theorem Supplies.settled {bytes : ByteArray} (supplies : plan.Supplies disk record bytes) :
    record.state ≠ .ambiguous := by
  intro ambiguous
  cases supplies with
  | standIn unmatched => simp [ambiguous] at unmatched
  | copied matched => simp [ambiguous, MatchState.isMatch] at matched

/-- What preparing a target comes to: nothing, some directories above it, or all of them. -/
theorem prepareTarget_cases (disk : Disk) (root : Path) (rel : String) :
    (∃ failure, prepareTarget disk root rel = (disk, .error failure)) ∨
      ∃ target, targetLocation disk root rel = .ok target ∧
        ((∃ failure, prepareTarget disk root rel =
            ((disk.ensureDirectory (pathOf target).parent).1, .error failure)) ∨
          ∃ made, disk.ensureDirectory (pathOf target).parent = (made, .ok ()) ∧
            prepareTarget disk root rel = (made, .ok (pathOf target))) := by
  unfold prepareTarget
  cases found : targetLocation disk root rel with
  | error failure => exact Or.inl ⟨failure, rfl⟩
  | ok target =>
      refine Or.inr ⟨target, rfl, ?_⟩
      rcases outcome : disk.ensureDirectory (pathOf target).parent with ⟨made, result⟩
      cases result with
      | error fault =>
          exact Or.inl ⟨fault.blame fun e => .reconcile (.noParent rel e), by simp [outcome]⟩
      | ok => exact Or.inr ⟨made, rfl, by simp [outcome]⟩

theorem writes_placeholder (state : record.state = .unmatched) :
    Writes plan disk record
      (writePlaceholder disk plan.placeholderRoot plan.words record.path) := by
  have root : plan.rootOf record.state = plan.placeholderRoot := by rw [state]; rfl
  unfold writePlaceholder
  rcases prepareTarget_cases disk plan.placeholderRoot record.path with
    ⟨failure, same⟩ | ⟨target, found, ⟨failure, same⟩ | ⟨made, ready, same⟩⟩
  · rw [same]
    exact .refused failure
  · rw [same]
    exact .halted failure (root ▸ found)
  · rw [same]
    have part : (disk.ensureDirectory (pathOf target).parent).1 = made := by rw [ready]
    dsimp only
    cases content : plan.words.content with
    | error fault => exact part ▸ .halted _ (root ▸ found)
    | ok text =>
        dsimp only
        cases written : made.writeBytes (pathOf target) text.toUTF8 with
        | error fault => exact part ▸ .halted _ (root ▸ found)
        | ok after => exact .done (root ▸ found) ready (.standIn state content) written

theorem writes_copy (state : record.state.isMatch) :
    Writes plan disk record (copySource disk plan.root record.source record.path) := by
  have root : plan.rootOf record.state = plan.root := by
    cases kind : record.state with
    | unmatched => simp [kind, MatchState.isMatch] at state
    | _ => rfl
  unfold copySource
  cases source : record.source with
  | none => exact .refused _
  | some file =>
      dsimp only
      rcases prepareTarget_cases disk plan.root record.path with
        ⟨failure, same⟩ | ⟨target, found, ⟨failure, same⟩ | ⟨made, ready, same⟩⟩
      · rw [same]
        exact .refused failure
      · rw [same]
        exact .halted failure (root ▸ found)
      · rw [same]
        have part : (disk.ensureDirectory (pathOf target).parent).1 = made := by rw [ready]
        dsimp only
        cases read : made.readBytes file with
        | error fault => exact part ▸ .halted _ (root ▸ found)
        | ok bytes =>
            dsimp only
            cases written : made.writeBytes (pathOf target) bytes with
            | error fault => exact part ▸ .halted _ (root ▸ found)
            | ok after => exact .done (root ▸ found) ready (.copied state source read) written

theorem writeRecord_writes (plan : Emission) (disk : Disk) (record : Record) :
    Writes plan disk record (plan.writeRecord disk record) := by
  unfold writeRecord
  cases state : record.state with
  | ambiguous => exact .skipped state
  | unmatched => exact writes_placeholder state
  | exact => exact writes_copy (by rw [state]; rfl)
  | fallback => exact writes_copy (by rw [state]; rfl)

theorem Writes.grows {outcome : Disk × Except Failure Unit}
    (writes : Writes plan disk record outcome) : Grows disk outcome.1 := by
  cases writes with
  | skipped => exact .refl disk
  | refused => exact .refl disk
  | @halted target => exact ensureDirectory_grows disk _
  | @done target made after bytes _ ready _ written =>
      have growth := ensureDirectory_grows disk (pathOf target).parent
      rw [ready] at growth
      exact growth.trans (writeBytes_grows written)

theorem writeRecord_ambiguous (ambiguous : record.state = .ambiguous) :
    plan.writeRecord disk record = (disk, .ok ()) := by
  simp [writeRecord, ambiguous]

/-! ### All records of an emission -/

/-- The records that an emission comes to, each with the disk as it is then. -/
def stops (plan : Emission) : Disk → List Record → List (Disk × Record)
  | _, [] => []
  | disk, record :: rest =>
    (disk, record) :: match plan.writeRecord disk record with
      | (_, .error _) => []
      | (disk, .ok ()) => stops plan disk rest

/-- The records that outputs are written for. -/
def decided (records : List Record) : List Record :=
  records.filter fun record => record.state ≠ .ambiguous

theorem decided_eq_self {records : List Record}
    (settled : ∀ record ∈ records, record.state ≠ .ambiguous) : decided records = records :=
  List.filter_eq_self.mpr fun record member => by simpa using settled record member

/-- Records whose outputs are written one after the other without a failure. -/
inductive WritesAll (plan : Emission) : Disk → List Record → Disk → Prop where
  | nil (disk : Disk) : WritesAll plan disk [] disk
  | cons {disk next after : Disk} {record : Record} {rest : List Record} :
      plan.writeRecord disk record = (next, .ok ()) → WritesAll plan next rest after →
      WritesAll plan disk (record :: rest) after

/-- What holds at the start and is kept at every stop holds at all of them and at the end. -/
theorem writeRecords_keeps {motive : Disk → Prop} {records : List Record} (found : Emitted)
    (start : motive disk)
    (step : ∀ stop ∈ plan.stops disk records, motive stop.1 →
      motive (plan.writeRecord stop.1 stop.2).1) :
    (∀ stop ∈ plan.stops disk records, motive stop.1) ∧
      motive (plan.writeRecords disk found records).1 := by
  induction records generalizing disk found with
  | nil => exact ⟨by simp [stops], start⟩
  | cons record rest ih =>
      have first := step (disk, record) List.mem_cons_self start
      rw [stops] at step ⊢
      rw [writeRecords]
      rcases outcome : plan.writeRecord disk record with ⟨after, result⟩
      rw [outcome] at first step
      cases result with
      | error failure =>
          refine ⟨fun stop member => ?_, first⟩
          rw [List.mem_singleton.mp member]
          exact start
      | ok =>
          obtain ⟨all, last⟩ := ih (Emitted.add found record) first
            (fun stop member => step stop (List.mem_cons_of_mem _ member))
          refine ⟨fun stop member => ?_, last⟩
          rcases List.mem_cons.mp member with rfl | later
          · exact start
          · exact all stop later

theorem writesAll_iff (plan : Emission) (disk : Disk) (found : Emitted) (records : List Record)
    (after : Disk) : WritesAll plan disk records after ↔
      ∃ notes result, plan.writeRecords disk found records = (after, notes, .ok result) := by
  induction records generalizing disk found with
  | nil =>
      rw [writeRecords]
      constructor
      · rintro ⟨⟩
        exact ⟨[], found, rfl⟩
      · rintro ⟨notes, result, same⟩
        cases same
        exact .nil _
  | cons record rest ih =>
      rw [writeRecords]
      constructor
      · rintro (_ | ⟨written, later⟩)
        obtain ⟨notes, result, same⟩ := (ih _ (Emitted.add found record)).mp later
        rw [written]
        exact ⟨recordNotes record ++ notes, result, by simp [same]⟩
      · rintro ⟨notes, result, same⟩
        rcases outcome : plan.writeRecord disk record with ⟨next, failure | _⟩
        · rw [outcome] at same
          cases same
        · rw [outcome] at same
          rcases tail : plan.writeRecords next (Emitted.add found record) rest with
            ⟨last, more, final⟩
          simp only [tail, Prod.mk.injEq] at same
          obtain ⟨rfl, -, rfl⟩ := same
          exact .cons outcome ((ih _ (Emitted.add found record)).mpr ⟨more, result, tail⟩)

/-- An emission leaves everything that it finds, at each of its stops and at its end. -/
theorem writeRecords_grows (plan : Emission) (disk : Disk) (found : Emitted)
    (records : List Record) : (∀ stop ∈ plan.stops disk records, Grows disk stop.1) ∧
      Grows disk (plan.writeRecords disk found records).1 :=
  writeRecords_keeps found (.refl disk) fun stop _ growth =>
    growth.trans (writeRecord_writes plan stop.1 stop.2).grows

theorem emit_fst (plan : Emission) (disk : Disk) (registry : Registry) :
    (plan.emit disk registry).1 = (plan.writeRecords disk ⟨[], []⟩ registry.expectedRecords).1 := by
  unfold emit
  rcases plan.writeRecords disk ⟨[], []⟩ registry.expectedRecords with ⟨after, notes, result⟩
  cases result with
  | error failure => rfl
  | ok found => cases ambiguous : found.ambiguous <;> simp [ambiguous]

theorem emit_grows (plan : Emission) (disk : Disk) (registry : Registry) :
    Grows disk (plan.emit disk registry).1 := by
  rw [emit_fst]
  exact (writeRecords_grows plan disk _ _).2

/-- The ambiguous paths that an emission has found in the end. -/
theorem ambiguous_of_writeRecords {records : List Record} {found result : Emitted} {after : Disk}
    {notes : List Note}
    (done : plan.writeRecords disk found records = (after, notes, .ok result)) :
    result.ambiguous = found.ambiguous ++
      (records.filter fun record => record.state = .ambiguous).map Record.path := by
  induction records generalizing disk found notes with
  | nil =>
      rw [writeRecords] at done
      cases done
      simp
  | cons record rest ih =>
      rw [writeRecords] at done
      rcases outcome : plan.writeRecord disk record with ⟨next, failure | _⟩
      · rw [outcome] at done
        cases done
      · rw [outcome] at done
        rcases tail : plan.writeRecords next (Emitted.add found record) rest with
          ⟨last, more, final⟩
        simp only [tail, Prod.mk.injEq] at done
        obtain ⟨rfl, rfl, rfl⟩ := done
        rw [ih tail]
        by_cases ambiguous : record.state = .ambiguous <;> simp [Emitted.add, ambiguous]

/-- Where no ambiguous path was found in the end, no record was ambiguous. -/
theorem settled_of_writeRecords {records : List Record} {result : Emitted} {after : Disk}
    {notes : List Note} (done : plan.writeRecords disk ⟨[], []⟩ records = (after, notes, .ok result))
    (none : result.ambiguous = []) : ∀ record ∈ records, record.state ≠ .ambiguous := by
  have listed := ambiguous_of_writeRecords done
  rw [none, List.nil_append, eq_comm, List.map_eq_nil_iff, List.filter_eq_nil_iff] at listed
  exact fun record member => by simpa using listed record member

end Emission
end Emplace

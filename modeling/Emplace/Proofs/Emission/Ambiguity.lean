import Emplace.Proofs.Emission.Writing
import Emplace.Proofs.Registry.Matching

/-!
Ambiguous outputs. They are passed over while all others are written and are reported together at
the end, so an emission with ambiguous records does to the disk what the one without them does.
-/
namespace Emplace

open Disk

/-- The registry with the records of ambiguous outputs taken out. -/
def Registry.withoutAmbiguous (registry : Registry) : Registry :=
  ⟨registry.table.filter fun row => row.2.state ≠ .ambiguous,
    registry.index.map fun row =>
      (row.1, row.2.filter fun path => (registry.record? path).all (·.state ≠ .ambiguous))⟩

namespace Emission

/-- The failures that the output of a path can bring: those of a stage name the path. -/
inductive Fails (path : String) : Failure → Prop where
  | fault (fault : Fault) : Fails path (.fault fault)
  | outside (root : String) : Fails path (.reconcile (.outside path root))
  | noParent (e : SystemError) : Fails path (.reconcile (.noParent path e))
  | noPlaceholder (e : SystemError) : Fails path (.reconcile (.noPlaceholder path e))
  | notCopied (source : String) (e : SystemError) :
      Fails path (.reconcile (.notCopied source path e))
  | noSource : Fails path (.reconcile (.noSource path))

variable {plan : Emission} {disk after : Disk} {record : Record} {records : List Record}
  {path : String} {failure : Failure}

/-! ### The failures of one record -/

theorem fails_blame {stage : SystemError → Failure} (named : ∀ e, Fails path (stage e))
    (fault : Fault) : Fails path (fault.blame stage) := by
  cases fault with
  | system e => exact named e
  | _ => exact .fault _

theorem prepareTarget_fails {root : Path}
    (failed : (prepareTarget disk root path).2 = .error failure) : Fails path failure := by
  unfold prepareTarget targetLocation at failed
  split at failed
  · rename_i refused
    cases failed
    split at refused
    · cases refused
      exact .fault _
    · split at refused
      · cases refused
        exact .fault _
      · split at refused
        · cases refused
        · cases refused
          exact .outside _
  · dsimp only at failed
    split at failed
    · cases failed
    · cases failed
      exact fails_blame .noParent _

theorem writeRecord_fails (failed : (plan.writeRecord disk record).2 = .error failure) :
    Fails record.path failure := by
  have copying : (copySource disk plan.root record.source record.path).2 = .error failure →
      Fails record.path failure := by
    intro failed
    unfold copySource at failed
    split at failed
    · cases failed
      exact .noSource
    · split at failed
      · rename_i unprepared
        cases failed
        exact prepareTarget_fails (by rw [unprepared])
      · dsimp only at failed
        split at failed
        · cases failed
          exact fails_blame (.notCopied _) _
        · split at failed
          · cases failed
          · cases failed
            exact fails_blame (.notCopied _) _
  unfold writeRecord at failed
  split at failed
  · cases failed
  · unfold writePlaceholder at failed
    split at failed
    · rename_i unprepared
      cases failed
      exact prepareTarget_fails (by rw [unprepared])
    · split at failed
      · cases failed
        exact .fault _
      · split at failed
        · cases failed
        · cases failed
          exact fails_blame .noPlaceholder _
  · exact copying failed

/-! ### All records -/

/-- An emission is cut short by one of its records or not at all. -/
theorem writeRecords_fails {found : Emitted}
    (failed : (plan.writeRecords disk found records).2.2 = .error failure) :
    ∃ record ∈ records, Fails record.path failure := by
  induction records generalizing disk found with
  | nil => cases failed
  | cons record rest ih =>
      rw [writeRecords] at failed
      rcases outcome : plan.writeRecord disk record with ⟨next, cause | _⟩
      · rw [outcome] at failed
        cases failed
        exact ⟨record, List.mem_cons_self, writeRecord_fails (by rw [outcome])⟩
      · rw [outcome] at failed
        obtain ⟨other, member, fails⟩ := ih failed
        exact ⟨other, List.mem_cons_of_mem _ member, fails⟩

/-- Whatever was found before, ambiguous records have no effect on the disk and on the failure. -/
theorem writeRecords_decided (plan : Emission) (disk : Disk) (found other : Emitted)
    (records : List Record) :
    (plan.writeRecords disk found records).1 =
        (plan.writeRecords disk other (decided records)).1 ∧
      ∀ failure, (plan.writeRecords disk found records).2.2 = .error failure ↔
        (plan.writeRecords disk other (decided records)).2.2 = .error failure := by
  induction records generalizing disk found other with
  | nil => exact ⟨rfl, fun failure => ⟨nofun, nofun⟩⟩
  | cons record rest ih =>
      by_cases ambiguous : record.state = .ambiguous
      · have passed : decided (record :: rest) = decided rest := by simp [decided, ambiguous]
        rw [passed, writeRecords, writeRecord_ambiguous ambiguous]
        exact ih disk (Emitted.add found record) other
      · have kept : decided (record :: rest) = record :: decided rest := by
          simp [decided, ambiguous]
        rw [kept, writeRecords, writeRecords]
        rcases plan.writeRecord disk record with ⟨next, failure | _⟩
        · exact ⟨rfl, fun _ => Iff.rfl⟩
        · exact ih next (Emitted.add found record) (Emitted.add other record)

/-! ### The report -/

/-- An emission ends in a report of ambiguous paths only where nothing cut it short. -/
theorem emit_reports_iff (plan : Emission) (disk : Disk) (registry : Registry)
    (paths : List String) (importpath : String) :
    (plan.emit disk registry).2.2 = .error (.reconcile (.ambiguous paths importpath)) ↔
      (∃ after, WritesAll plan disk (decided registry.expectedRecords) after) ∧
      paths = (registry.expectedRecords.filter (·.state = .ambiguous)).map Record.path ∧
      paths ≠ [] ∧ importpath = plan.importpath := by
  have same := writeRecords_decided plan disk ⟨[], []⟩ ⟨[], []⟩ registry.expectedRecords
  simp only [writesAll_iff plan disk ⟨[], []⟩]
  unfold emit
  rcases whole : plan.writeRecords disk ⟨[], []⟩ registry.expectedRecords with
    ⟨last, notes, failure | found⟩
  · -- A failure that cut it short is that of one path.
    obtain ⟨record, -, fails⟩ := writeRecords_fails (by rw [whole])
    have part := (same.2 failure).mp (by rw [whole])
    constructor
    · intro reported
      cases reported
      cases fails
    · rintro ⟨⟨after, more, result, written⟩, -⟩
      rw [written] at part
      cases part
  · have listed := ambiguous_of_writeRecords whole
    have written : ∃ after more result, plan.writeRecords disk ⟨[], []⟩
        (decided registry.expectedRecords) = (after, more, .ok result) := by
      rcases part : plan.writeRecords disk ⟨[], []⟩ (decided registry.expectedRecords) with
        ⟨after, more, failure | result⟩
      · have failed := (same.2 failure).mpr (by rw [part])
        rw [whole] at failed
        cases failed
      · exact ⟨after, more, result, rfl⟩
    rw [List.nil_append] at listed
    rw [← listed]
    cases ambiguous : found.ambiguous with
    | nil =>
        simp only [ambiguous, reduceCtorEq, false_iff]
        rintro ⟨-, rfl, some, -⟩
        exact some rfl
    | cons first rest =>
        simp only [ambiguous, Except.error.injEq, Failure.reconcile.injEq,
          ReconcileError.ambiguous.injEq]
        constructor
        · rintro ⟨rfl, rfl⟩
          exact ⟨written, rfl, by simp, rfl⟩
        · rintro ⟨-, rfl, -, rfl⟩
          exact ⟨rfl, rfl⟩

/-- Taking the ambiguous records out of a registry leaves the other ones in their order. -/
theorem expectedRecords_withoutAmbiguous {declared : List String} {files : List (String × Path)}
    {registry : Registry} (tracks : Registry.Tracks declared files registry) :
    registry.withoutAmbiguous.expectedRecords = decided registry.expectedRecords := by
  have rest : registry.withoutAmbiguous.records.filter Record.expected =
      decided (registry.records.filter Record.expected) := by
    simp only [Registry.withoutAmbiguous, Registry.records, decided, List.filter_map,
      List.filter_filter, Function.comp_def, Bool.and_comm]
  have perm : registry.withoutAmbiguous.expectedRecords.Perm (decided registry.expectedRecords) := by
    refine (Sorting.sortBy_perm _ _).trans ?_
    rw [rest]
    exact ((Sorting.sortBy_perm Record.path _).filter _).symm
  have ascending := tracks.expectedRecords_ascending.filter fun record => record.state ≠ .ambiguous
  refine Sorting.eq_of_ascending Record.path perm ?_ ascending
  -- The paths differ, so the order that sorting gives is strict.
  have sorted := Sorting.sortBy_ascending Record.path
    (registry.withoutAmbiguous.records.filter Record.expected)
  have different : registry.withoutAmbiguous.expectedRecords.Pairwise
      fun a b => a.path ≠ b.path := by
    have once : (decided registry.expectedRecords).Pairwise fun a b => a.path ≠ b.path :=
      ascending.imp String.ne_of_lt
    exact (perm.pairwise_iff fun different => different.symm).mpr once
  apply (sorted.and different).imp
  rintro a b ⟨upTo, other⟩
  by_contra notBelow
  exact other (String.le_antisymm upTo (String.not_lt.mp notBelow))

/-- An emission reports ambiguous paths exactly where there are any and every other output is
written. The report names all of them in ascending order, and the disk is that of an emission
without them, whatever the end. -/
theorem emit_ambiguous_iff (plan : Emission) (disk : Disk) (declared : List String)
    (files : List (String × Path)) :
    let registry := (Registry.declare declared).discoverAll files
    registry.expectedRecords.Pairwise (fun a b => a.path < b.path) ∧
    ((∃ paths importpath, (plan.emit disk registry).2.2 =
        .error (.reconcile (.ambiguous paths importpath))) ↔
      (∃ record ∈ registry.expectedRecords, record.state = .ambiguous) ∧
        ∃ after, WritesAll plan disk (decided registry.expectedRecords) after) ∧
    (∀ paths importpath, (plan.emit disk registry).2.2 =
        .error (.reconcile (.ambiguous paths importpath)) →
      (∀ path, path ∈ paths ↔
        ∃ record ∈ registry.expectedRecords, record.state = .ambiguous ∧ record.path = path) ∧
      paths.Pairwise (· < ·) ∧
      (Failure.reconcile (.ambiguous paths importpath)).message =
        Text.join "\n" (paths.map (fun path => "Ambiguous output " ++ path ++ ".") ++
          ["Check that the go_package option is \"" ++ plan.importpath ++ "\"."])) ∧
    (plan.emit disk registry).1 = (plan.emit disk registry.withoutAmbiguous).1 := by
  intro registry
  have tracks : Registry.Tracks declared files registry :=
    Registry.tracks_discoverAll declared files
  refine ⟨tracks.expectedRecords_ascending, ?_, ?_, ?_⟩
  · simp only [emit_reports_iff]
    constructor
    · rintro ⟨paths, importpath, written, rfl, some, -⟩
      obtain ⟨path, member⟩ := List.exists_mem_of_ne_nil _ some
      obtain ⟨record, ambiguous, -⟩ := List.mem_map.mp member
      obtain ⟨listed, state⟩ := List.mem_filter.mp ambiguous
      exact ⟨⟨record, listed, by simpa using state⟩, written⟩
    · rintro ⟨⟨record, listed, state⟩, written⟩
      refine ⟨_, _, written, rfl, ?_, rfl⟩
      exact List.ne_nil_of_mem (List.mem_map_of_mem
        (List.mem_filter.mpr ⟨listed, by simpa using state⟩))
  · intro paths importpath reported
    obtain ⟨-, rfl, -, rfl⟩ := (emit_reports_iff plan disk registry paths importpath).mp reported
    refine ⟨fun path => ?_, ?_, rfl⟩
    · simp [and_assoc]
    · exact List.pairwise_map.mpr (tracks.expectedRecords_ascending.filter _)
  · rw [emit_fst, emit_fst, expectedRecords_withoutAmbiguous tracks]
    exact (writeRecords_decided plan disk ⟨[], []⟩ ⟨[], []⟩ registry.expectedRecords).1

/-- Two outputs with two files each, one with a file of its own and one without any. -/
def rivalDisk : Disk :=
  ⟨[], [(["out"], .directory), (["scratch"], .directory),
    (["scratch", "y.go"], .file ⟨#[1]⟩ false)]⟩

def rivalFiles : List (String × Path) :=
  ["q/x.go", "r/x.go", "q/w.go", "r/w.go", "y.go"].map fun rel =>
    (rel, Path.ofString ("scratch/" ++ rel))

def rivalPlan : Emission := ⟨Path.ofString "out", Path.ofString "out", .standard, "example"⟩

theorem emit_two_ambiguous :
    let registry :=
      (Registry.declare ["z/x.go", "y.go", "none.go", "a/w.go"]).discoverAll rivalFiles
    (rivalPlan.emit rivalDisk registry).2.2 =
        .error (.reconcile (.ambiguous ["a/w.go", "z/x.go"] "example")) ∧
      (Failure.reconcile (.ambiguous ["a/w.go", "z/x.go"] "example")).message =
        "Ambiguous output a/w.go.\nAmbiguous output z/x.go.\n" ++
          "Check that the go_package option is \"example\"." ∧
      (∃ after, WritesAll rivalPlan rivalDisk (decided registry.expectedRecords) after) ∧
      (rivalPlan.emit rivalDisk registry).1 =
        (rivalPlan.emit rivalDisk registry.withoutAmbiguous).1 := by
  intro registry
  have reported : (rivalPlan.emit rivalDisk registry).2.2 =
      .error (.reconcile (.ambiguous ["a/w.go", "z/x.go"] "example")) := by decide +kernel
  obtain ⟨-, reports, named, same⟩ := emit_ambiguous_iff rivalPlan rivalDisk
    ["z/x.go", "y.go", "none.go", "a/w.go"] rivalFiles
  exact ⟨reported, (named _ _ reported).2.2.trans (by decide), (reports.mp ⟨_, _, reported⟩).2, same⟩

end Emission
end Emplace

import Emplace.Proofs.Emission.Placing
import Emplace.Proofs.Reconciliation.Judging
import Emplace.Proofs.Scan.Preserving
import Emplace.Proofs.Scan.Taking
import Emplace.Reconciliation

/-!
What a reconciliation that returns leaves in an output tree without links that lies apart from the
scratch tree. Both trees are described as they are before the run.
-/
namespace Emplace

open Disk Registry Scan Emission

/-- The bytes that a declared path is to get from the files of the scratch tree: those of the file
at the path itself, else those of the only file with its last name where no other declared path has
that name, else those of a stand-in file. -/
inductive Given (plan : Reconciliation) (disk : Disk) (top : Location) (declared : List String)
    (path : String) : ByteArray → Prop where
  | own {bytes : ByteArray} : plan.scan.Eligible disk top (Text.split '/' path) bytes →
      Given plan disk top declared path bytes
  | only {names : List String} {bytes : ByteArray} :
      (∀ other, ¬ plan.scan.Eligible disk top (Text.split '/' path) other) → Lone declared path →
      plan.scan.Eligible disk top names bytes → names.getLastD "" = lastName path →
      (∀ other more, plan.scan.Eligible disk top other more → other.getLastD "" = lastName path →
        other = names) →
      Given plan disk top declared path bytes
  | standIn {text : String} :
      (∀ other, ¬ plan.scan.Eligible disk top (Text.split '/' path) other) →
      (Lone declared path → ∀ names bytes, plan.scan.Eligible disk top names bytes →
        names.getLastD "" ≠ lastName path) →
      plan.words.content = .ok text → Given plan disk top declared path text.toUTF8

namespace Reconciliation

variable {plan : Reconciliation} {disk : Disk} {top base : Location} {declared : List String}

/-- A source that is read after outputs were written is read as it was before. -/
theorem bytes_eq_of_read (apart : Apart disk plan.scratch plan.root top base) {made : Disk}
    (quiet : Quiet base disk made) {names : List String} {bytes other : ByteArray}
    (eligible : plan.scan.Eligible disk top names bytes)
    (read : made.readBytes (plan.scratch.join ⟨.here, names⟩) = .ok other) : other = bytes := by
  obtain ⟨executable, after⟩ := readBytes_eq_ok read
  obtain ⟨_, before⟩ := eligible.file
  rw [apart.status_within_eq quiet eligible.inTree] at after
  have same := before.symm.trans after
  simp only [Except.ok.injEq, Entry.file.injEq] at same
  exact same.1.symm

/-- The bytes that the record of a declared path is supplied with are those it is to get. -/
theorem given_of_supplies (apart : Apart disk plan.scratch plan.root top base) {made : Disk}
    (quiet : Quiet base disk made) {path : String} {record : Record}
    (judged : Judged plan.scan disk top declared path (record.state, record.source))
    {bytes : ByteArray} (supplies : plan.emission.Supplies made record bytes) :
    Given plan disk top declared path bytes := by
  generalize state : record.state = kind at judged
  generalize from_ : record.source = source at judged
  cases judged with
  | own eligible =>
      cases supplies with
      | standIn unmatched => simp [state] at unmatched
      | copied _ known read =>
          rw [from_] at known
          cases known
          rw [bytes_eq_of_read apart quiet eligible read]
          exact .own eligible
  | only noOwn lone eligible base unique =>
      cases supplies with
      | standIn unmatched => simp [state] at unmatched
      | copied _ known read =>
          rw [from_] at known
          cases known
          rw [bytes_eq_of_read apart quiet eligible read]
          exact .only noOwn lone eligible base unique
  | several =>
      cases supplies with
      | standIn unmatched => simp [state] at unmatched
      | copied matched => simp [state, MatchState.isMatch] at matched
  | missing noOwn noOther =>
      cases supplies with
      | standIn _ content => exact .standIn noOwn noOther content
      | copied matched => simp [state, MatchState.isMatch] at matched

/-- The records that the emission of a run comes to, each with the disk as it is then. -/
def stops (plan : Reconciliation) (disk : Disk) (declared : List String) : List (Disk × Record) :=
  match plan.scan.run disk (declare declared) with
  | (_, .error _) => []
  | (progress, .ok ()) => plan.emission.stops progress.disk progress.registry.expectedRecords

theorem stops_of_walked (walked : (plan.scan.run disk (declare declared)).2 = .ok ()) :
    plan.stops disk declared = plan.emission.stops
      (plan.scan.run disk (declare declared)).1.disk
      (plan.scan.run disk (declare declared)).1.registry.expectedRecords := by
  unfold stops
  rcases whole : plan.scan.run disk (declare declared) with ⟨progress, failure | _⟩
  · rw [whole] at walked
    cases walked
  · rfl

theorem runDeclared_disk (plan : Reconciliation) (disk : Disk) (declared : List String) :
    (plan.runDeclared disk declared).disk = (plan.run disk (declare declared)).disk := rfl

theorem runDeclared_result (plan : Reconciliation) (disk : Disk) (declared : List String) :
    (plan.runDeclared disk declared).result = (plan.run disk (declare declared)).result := rfl

theorem run_registry (plan : Reconciliation) (disk : Disk) (registry : Registry) :
    (plan.run disk registry).registry = (plan.scan.run disk registry).1.registry := by
  unfold run
  rcases plan.scan.run disk registry with ⟨progress, failure | _⟩
  · rfl
  · dsimp only
    rcases plan.emission.emit progress.disk progress.registry with ⟨after, notes, failure | counts⟩
      <;> rfl

/-- A run leaves everything that it finds. -/
theorem run_grows (plan : Reconciliation) (disk : Disk) (registry : Registry) :
    Grows disk (plan.run disk registry).disk := by
  have walk := Scan.run_grows plan.scan disk registry
  unfold run
  rcases walked : plan.scan.run disk registry with ⟨progress, failure | _⟩
  · rw [walked] at walk
    exact walk
  · rw [walked] at walk
    have emission := plan.emission.emit_grows progress.disk progress.registry
    dsimp only
    rcases emitted : plan.emission.emit progress.disk progress.registry with
      ⟨after, notes, failure | counts⟩
    · rw [emitted] at emission
      exact walk.trans emission
    · rw [emitted] at emission
      exact walk.trans emission

theorem runDeclared_grows (plan : Reconciliation) (disk : Disk) (declared : List String) :
    Grows disk (plan.runDeclared disk declared).disk :=
  run_grows plan disk (declare declared)

/-- A run that returns has come to the end of its walk and of its emission. -/
theorem run_eq_ok {registry : Registry} (done : (plan.run disk registry).result = .ok ()) :
    (plan.scan.run disk registry).2 = .ok () ∧
      ∃ notes found,
        plan.emission.writeRecords (plan.scan.run disk registry).1.disk ⟨[], []⟩
          (plan.scan.run disk registry).1.registry.expectedRecords =
            ((plan.run disk registry).disk, notes, .ok found) ∧
        found.ambiguous = [] := by
  unfold run at done ⊢
  rcases walked : plan.scan.run disk registry with ⟨progress, failure | _⟩
  · simp [walked] at done
  · refine ⟨rfl, ?_⟩
    simp only [walked] at done ⊢
    unfold emit at done ⊢
    rcases wrote : plan.emission.writeRecords progress.disk ⟨[], []⟩
      progress.registry.expectedRecords with ⟨after, notes, failure | found⟩
    · simp [wrote] at done
    · simp only [wrote] at done ⊢
      cases ambiguous : found.ambiguous with
      | nil => exact ⟨notes, found, by simp, ambiguous⟩
      | cons path more => simp [ambiguous] at done

/-- After a reconciliation that returns, every declared path holds what it is to get, no declared
path had several files to choose from, and everything else is as it was but for new directories
below the output root. -/
theorem runDeclared_outcome (apart : Apart disk plan.scratch plan.root top base)
    (same : plan.placeholderRoot = plan.root) (normal : ∀ path ∈ declared, Normal path)
    (done : (plan.runDeclared disk declared).result = .ok ()) :
    (∀ path ∈ declared, ∃ bytes executable,
      (plan.runDeclared disk declared).disk.get? (base ++ Text.split '/' path) =
        some (.file bytes executable) ∧ Given plan disk top declared path bytes) ∧
    (∀ path ∈ declared, Lone declared path →
      (∀ bytes, ¬ plan.scan.Eligible disk top (Text.split '/' path) bytes) →
      ∀ first second bytes more, plan.scan.Eligible disk top first bytes →
        first.getLastD "" = lastName path → plan.scan.Eligible disk top second more →
        second.getLastD "" = lastName path → first = second) ∧
    (∀ loc, (∀ path ∈ declared, loc ≠ base ++ Text.split '/' path) →
      Untouched base disk (plan.runDeclared disk declared).disk loc) := by
  simp only [runDeclared_disk, runDeclared_result] at done ⊢
  obtain ⟨walked, notes, found, wrote, noneAmbiguous⟩ := run_eq_ok done
  -- The registry that the emission starts from holds the verdict on the files that were gathered.
  have completes := run_completes plan.scan apart walked
  have tells := run_tells plan.scan (declare declared) apart.root
  have judged := verdict_judged apart.sound completes.gathers declared
  have tracks := tracks_discoverAll declared
    (plan.scan.found (files (plan.scan.runSteps disk (declare declared))))
  rw [← tells.registry] at tracks
  generalize plan.scan.found (files (plan.scan.runSteps disk (declare declared))) = taken
    at judged tracks
  -- An emission with an ambiguous record fails in the end.
  have settledAll : ∀ record ∈ (plan.scan.run disk (declare declared)).1.registry.expectedRecords,
      record.state ≠ .ambiguous := settled_of_writeRecords wrote noneAmbiguous
  have normalAll : ∀ record ∈ (plan.scan.run disk (declare declared)).1.registry.expectedRecords,
      Normal record.path := by
    intro record member
    obtain ⟨path, isDeclared, rfl⟩ := (tracks.mem_expectedRecords record).mp member
    exact normal path isDeclared
  have listed : ∀ path ∈ declared, settled declared taken path ∈
      (plan.scan.run disk (declare declared)).1.registry.expectedRecords := fun path member =>
    (tracks.mem_expectedRecords _).mpr ⟨path, member, rfl⟩
  obtain ⟨placed, beside⟩ := writeRecords_placed plan.emission apart same completes.quiet
    normalAll tracks.expectedRecords_once settledAll wrote
  refine ⟨fun path member => ?_, fun path member lone noOwn first second bytes more => ?_,
    fun loc elsewhere => ?_⟩
  · obtain ⟨made, bytes, executable, quiet, supplies, written⟩ :=
      (placed _ (listed path member)).supplied
    exact ⟨bytes, executable, written, given_of_supplies apart quiet (judged path) supplies⟩
  · intro isFirst firstBase isSecond secondBase
    have state := settledAll _ (listed path member)
    have verdictOf := judged path
    unfold settled at state
    generalize verdict declared taken path = decided at state verdictOf
    cases verdictOf with
    | own eligible => exact absurd eligible (noOwn _)
    | only _ _ _ _ unique =>
        rw [unique first bytes isFirst firstBase, unique second more isSecond secondBase]
    | several => exact absurd rfl state
    | missing _ noOther => exact absurd firstBase (noOther lone first bytes isFirst)
  · have walk : Untouched base disk (plan.scan.run disk (declare declared)).1.disk loc := by
      by_cases under : base <+: loc
      · rcases Scan.run_spares plan.scan disk (declare declared) loc with kept | ⟨free, made⟩
        · exact Or.inl kept
        · exact Or.inr ⟨free, under, made⟩
      · exact Or.inl (completes.quiet.off loc under)
    refine walk.trans (beside loc fun record member => ?_)
    obtain ⟨path, isDeclared, rfl⟩ := (tracks.mem_expectedRecords record).mp member
    exact elsewhere path isDeclared

/-- A scratch tree with a file under its own path, one under another and one behind a link. -/
def mixedDisk : Disk :=
  ⟨[], [(["out"], .directory), (["out", "old.txt"], .file ⟨#[9]⟩ false), (["scratch"], .directory),
    (["scratch", "a.go"], .file ⟨#[1]⟩ false), (["scratch", "gen"], .directory),
    (["scratch", "gen", "b.go"], .file ⟨#[2]⟩ false),
    (["scratch", "gen", "real"], .file ⟨#[3]⟩ false), (["scratch", "c.go"], .link "gen/real")]⟩

def mixedPlan : Reconciliation :=
  ⟨Path.ofString "scratch", Path.ofString "out", standardEndings, Path.ofString "out", .standard,
    "example"⟩

theorem mixed_apart :
    Apart mixedDisk mixedPlan.scratch mixedPlan.root ["scratch"] ["out"] where
  sound := by decide
  scratch := rfl
  root := rfl
  below := by decide
  above := by decide
  bare := by
    intro loc under target found
    have row := mem_of_get?_link found
    revert under
    simp only [mixedDisk, List.mem_cons, Prod.mk.injEq, reduceCtorEq, and_false, false_or,
      List.not_mem_nil, or_false] at row
    rw [row.1]
    decide
  away := by
    intro dir name target _ found
    have row := mem_of_get?_link found
    simp only [mixedDisk, List.mem_cons, Prod.mk.injEq, reduceCtorEq, and_false, false_or,
      List.not_mem_nil, or_false, Entry.link.injEq] at row
    obtain ⟨place, rfl⟩ := row
    have parts : dir = ["scratch"] ∧ [name] = ["c.go"] :=
      List.append_inj' (show dir ++ [name] = ["scratch"] ++ ["c.go"] from place) rfl
    obtain ⟨rfl, same⟩ := parts
    cases same
    rintro ⟨place, looks, under, _⟩
    have inside : ["scratch"] <+: place := looks.inside (by decide) (by decide)
    rcases List.prefix_or_prefix_of_prefix inside under with below | above
    · exact absurd below (by decide)
    · exact absurd above (by decide)

/-- The file behind the link is taken for the path that alone has its name. -/
theorem mixed_outcome :
    ∃ bytes executable,
      (mixedPlan.runDeclared mixedDisk ["a.go", "pkg/c.go", "pkg/d.go"]).disk.get?
        (["out"] ++ Text.split '/' "pkg/c.go") = some (.file bytes executable) ∧
      Given mixedPlan mixedDisk ["scratch"] ["a.go", "pkg/c.go", "pkg/d.go"] "pkg/c.go" bytes :=
  (runDeclared_outcome mixed_apart rfl (by decide) (by decide +kernel)).1 "pkg/c.go" (by decide)

end Reconciliation
end Emplace

import Emplace.Proofs.Emission.Refusing
import Emplace.Proofs.Reconciliation.Outcome
import Emplace.Proofs.Scan.Refusing

/-!
Which failures a reconciliation does not raise as its own. On a disk that the system can hold there
are two kinds: the walk asks whether a name leads to a file and is led to something that is too long,
and the emission comes to a path that stays in a circle of links.

Both are about names, as all refusals are on a disk without access rights. Where a directory may be
listed and not searched, the same question of the walk is refused as well, and that refusal is not
raised as a failure of the reconciliation either.
-/
namespace Emplace

open Disk Registry

/-- A registry that has taken files into account whose paths the system can be given. -/
def Registry.Fed (start registry : Registry) : Prop :=
  ∃ files, registry = start.discoverAll files ∧ ∀ file ∈ files, hasNull file.2 = false

theorem Scan.keeps_fed (scan : Scan) (start : Registry) :
    scan.Keeps fun progress => start.Fed progress.registry := by
  constructor
  · intro rel progress _ _ fed
    have same : (scan.mirror rel progress).1.registry = progress.registry := by
      unfold Scan.mirror
      split
      · rfl
      · rcases progress.disk.ensureDirectory (scan.root.join rel) with ⟨made, fault | _⟩ <;> rfl
    rwa [same]
  · rintro rel file progress there ⟨files, same, clear⟩
    refine ⟨files ++ [(rel.text, file)], ?_, ?_⟩
    · simp [Progress.take, same, discoverAll]
    · intro other member
      rcases List.mem_append.mp member with early | late
      · exact clear other early
      · rw [List.mem_singleton.mp late]
        by_contra null
        unfold isFile holds at there
        rw [if_pos (by simpa using null)] at there
        cases there

/-- The records that an emission is given are those of declared paths and of files that were found. -/
theorem known_of_fed {declared : List String} {registry : Registry}
    (fed : (declare declared).Fed registry) (clear : ∀ path ∈ declared, '\x00' ∉ path.toList) :
    ∀ record ∈ registry.expectedRecords, Emission.Known record := by
  obtain ⟨files, rfl, found⟩ := fed
  intro record member
  obtain ⟨path, isDeclared, rfl⟩ :=
    ((tracks_discoverAll declared files).mem_expectedRecords record).mp member
  refine ⟨clear path isDeclared, fun matched => ?_⟩
  obtain ⟨file, listed, source⟩ := verdict_source matched
  exact ⟨file.2, source, found file listed⟩

namespace Reconciliation

/-- What a reconciliation is given: texts as endings, words that can be written down, and paths
without the character that ends names. -/
structure Proper (plan : Reconciliation) (declared : List String) : Prop where
  scratch : hasNull plan.scratch = false
  root : hasNull plan.root = false
  placeholderRoot : hasNull plan.placeholderRoot = false
  endings : .other ∉ plan.endings
  words : ∃ text, plan.words.content = .ok text
  declared : ∀ path ∈ declared, '\x00' ∉ path.toList

variable {plan : Reconciliation} {disk : Disk} {declared : List String}

/-- A reconciliation returns or raises an error of its own exactly where no name that the walk asks
for leads to something that is too long and no record that the emission comes to is stuck in a
circle of links. -/
theorem runDeclared_reported_iff (legible : Legible disk) (proper : plan.Proper declared) :
    Reported (plan.runDeclared disk declared).result ↔
      (∀ look ∈ plan.scan.runLooks disk (declare declared), ¬ Scan.TooLong look) ∧
      ∀ stop ∈ plan.stops disk declared, ¬ plan.emission.Stuck stop := by
  have walk := Scan.run_faulty_iff plan.scan proper.root proper.scratch proper.endings legible
    (declare declared)
  have legibly : plan.scan.Keeps fun progress => Legible progress.disk :=
    Scan.keeps_legible proper.root
  have kept : Legible (plan.scan.run disk (declare declared)).1.disk := legibly.run legible
  have fed : (declare declared).Fed (plan.scan.run disk (declare declared)).1.registry :=
    (Scan.keeps_fed plan.scan (declare declared)).run ⟨[], rfl, by simp⟩
  have readable : plan.emission.Readable :=
    ⟨proper.root, proper.placeholderRoot, proper.words⟩
  have emission := Emission.emit_faulty_iff readable (known_of_fed fed proper.declared) kept
  rw [runDeclared_result, reported_iff]
  unfold run stops
  rcases walked : plan.scan.run disk (declare declared) with ⟨progress, failure | _⟩
  · -- The walk was cut short, so the emission comes to nothing.
    rw [walked] at walk
    simp only [walk, not_exists, not_and, List.not_mem_nil, false_implies, implies_true, and_true]
  · rw [walked] at walk emission
    have short : ∀ look ∈ plan.scan.runLooks disk (declare declared), ¬ Scan.TooLong look :=
      fun look member long => not_of_faulty_ok_iff walk ⟨look, member, long⟩
    dsimp only
    rcases emitted : plan.emission.emit progress.disk progress.registry with
      ⟨after, notes, failure | counts⟩
    · rw [emitted] at emission
      rw [faulty_error_iff failure, emission]
      simp only [not_exists, not_and]
      exact ⟨fun free => ⟨short, free⟩, fun both => both.2⟩
    · rw [emitted] at emission
      have free := not_exists.mp (not_of_faulty_ok_iff emission)
      simp only [not_and] at free
      exact ⟨fun _ => ⟨short, free⟩, fun _ => not_faulty_ok ()⟩

/-- A scratch tree with one link, in which `out/x.go` is what is given. -/
def awkwardDisk (name target : String) (entry : Entry) : Disk :=
  ⟨[], [(["out"], .directory), (["out", "x.go"], entry), (["scratch"], .directory),
    (["scratch", name], .link target)]⟩

def awkwardPlan : Reconciliation :=
  ⟨Path.ofString "scratch", Path.ofString "out", standardEndings, Path.ofString "out", .standard,
    "example"⟩

theorem awkward_legible : Legible (awkwardDisk "y.go" "y.go" .directory) :=
  legible_of_rows (by decide) (by decide) (by simp [awkwardDisk])

theorem awkward_proper : awkwardPlan.Proper ["x.go"] :=
  ⟨by decide, by decide, by decide, by decide, ⟨_, rfl⟩, by decide⟩

/-- A circle of links in the scratch tree and a directory in the way of an output are reported. -/
theorem runDeclared_reports_directory :
    let result := (awkwardPlan.runDeclared (awkwardDisk "y.go" "y.go" .directory) ["x.go"]).result
    result ≠ .ok () ∧ Reported result :=
  ⟨by decide +kernel,
    (runDeclared_reported_iff awkward_legible awkward_proper).mpr
      ⟨by decide +kernel, by decide +kernel⟩⟩

/-- A circle of links on a declared path is not. -/
theorem runDeclared_unreported_circle :
    Legible (awkwardDisk "y" "y" (.link "x.go")) ∧ awkwardPlan.Proper ["x.go"] ∧
      ¬ Reported (awkwardPlan.runDeclared (awkwardDisk "y" "y" (.link "x.go")) ["x.go"]).result := by
  have failed : (awkwardPlan.runDeclared (awkwardDisk "y" "y" (.link "x.go")) ["x.go"]).result =
      .error (.fault (.linkLoop "/out/x.go")) := by decide +kernel
  rw [failed]
  exact ⟨legible_of_rows (by decide) (by decide) (by simp [awkwardDisk]), awkward_proper,
    faulty_fault _⟩

end Reconciliation
end Emplace

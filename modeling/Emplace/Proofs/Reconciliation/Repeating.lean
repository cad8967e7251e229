import Emplace.Proofs.Emission.Repeating
import Emplace.Proofs.Reconciliation.Outcome
import Emplace.Proofs.Scan.Retracing

/-!
Reconciling again. Where the scratch tree and the output tree lie apart, a second run on the disk that
the first one has left walks over the same files, comes to the same records and changes nothing,
whether the first run came to its end or was cut short on its way.
-/
namespace Emplace

open Disk Registry Scan Emission

namespace Reconciliation

variable {plan : Reconciliation} {disk : Disk} {top base : Location} {declared : List String}

/-- What a record is given by a walk that came to its end. -/
theorem judged_of_walked (apart : Apart disk plan.scratch plan.root top base)
    (walked : (plan.scan.run disk (declare declared)).2 = .ok ()) {record : Record}
    (member : record ∈ (plan.scan.run disk (declare declared)).1.registry.expectedRecords) :
    Judged plan.scan disk top declared record.path (record.state, record.source) := by
  have completes := run_completes plan.scan apart walked
  have tells := run_tells plan.scan (declare declared) apart.root
  have tracks := tracks_discoverAll declared
    (plan.scan.found (files (plan.scan.runSteps disk (declare declared))))
  rw [← tells.registry] at tracks
  obtain ⟨path, _, rfl⟩ := (tracks.mem_expectedRecords record).mp member
  exact verdict_judged apart.sound completes.gathers declared path

/-- The sources that a walk has found are read as before while outputs are written. -/
theorem fixed_of_walked (apart : Apart disk plan.scratch plan.root top base)
    (walked : (plan.scan.run disk (declare declared)).2 = .ok ()) {record : Record}
    (member : record ∈ (plan.scan.run disk (declare declared)).1.registry.expectedRecords) :
    Fixed disk base record := by
  have judged := judged_of_walked apart walked member
  have reads : ∀ names bytes, plan.scan.Eligible disk top names bytes → ∀ later,
      Quiet base disk later → later.readBytes (plan.scratch.join ⟨.here, names⟩) =
        disk.readBytes (plan.scratch.join ⟨.here, names⟩) := by
    intro names bytes eligible later quiet
    rw [readBytes, readBytes, apart.status_within_eq quiet eligible.inTree]
  intro source known
  rw [known] at judged
  generalize record.state = state at judged
  cases judged with
  | own eligible => exact reads _ _ eligible
  | only _ _ eligible => exact reads _ _ eligible

theorem run_of_walked {registry : Registry} {progress : Progress}
    (walked : plan.scan.run disk registry = (progress, .ok ())) :
    (plan.run disk registry).disk = (plan.emission.emit progress.disk progress.registry).1 ∧
      (plan.run disk registry).result =
        (plan.emission.emit progress.disk progress.registry).2.2.map fun _ => () := by
  simp only [run, walked]
  rcases plan.emission.emit progress.disk progress.registry with ⟨after, notes, failure | counts⟩
    <;> exact ⟨rfl, rfl⟩

/-- A run that comes again to the disk that it has left ends as before, with the same registry, and
changes nothing. -/
theorem run_again (apart : Apart disk plan.scratch plan.root top base)
    (same : plan.placeholderRoot = plan.root) {registry : Registry}
    (fixed : (plan.scan.run disk registry).2 = .ok () →
      ∀ record ∈ (plan.scan.run disk registry).1.registry.expectedRecords,
        Fixed disk base record) :
    Repeats (plan.run disk registry).result
        (plan.run (plan.run disk registry).disk registry).result ∧
      (plan.run (plan.run disk registry).disk registry).registry =
        (plan.run disk registry).registry ∧
      (plan.run (plan.run disk registry).disk registry).disk = (plan.run disk registry).disk := by
  obtain ⟨quiet, again⟩ := run_retraces plan.scan apart registry
  rw [run_registry, run_registry]
  rcases walked : plan.scan.run disk registry with ⟨progress, failure | _⟩
  · rw [walked] at again
    have repeated := again progress.disk (.refl base _) (Or.inr rfl)
    have first : plan.run disk registry =
        ⟨progress.disk, progress.registry, progress.notes, .error failure⟩ := by
      simp only [run, walked]
    have second : plan.run progress.disk registry = plan.run disk registry := by
      rw [first, run, repeated]
      rfl
    rw [first, second, first, repeated]
    exact ⟨.refl _, rfl, rfl⟩
  · rw [walked] at again quiet fixed
    have free : LinkFree disk plan.emission.root base :=
      .of_locate apart.sound apart.root apart.bare
    have emitted := emit_quiet free apart.root same quiet.grows progress.registry
    obtain ⟨kept, ends⟩ := emit_again free apart.root same quiet (fixed rfl)
    obtain ⟨firstDisk, firstResult⟩ := run_of_walked walked
    -- The walk is over as it was, so the emission starts from what the first one has left.
    have repeated := again (plan.run disk registry).disk (firstDisk ▸ emitted) (Or.inl rfl)
    obtain ⟨secondDisk, secondResult⟩ := run_of_walked repeated
    rw [secondDisk, secondResult, repeated, firstResult]
    simp only [Progress.on, true_and]
    rw [firstDisk]
    exact ⟨ends, kept⟩

/-- A second reconciliation with the same declared paths ends as the first one did, with the same
records, and leaves the disk exactly as the first one has left it. Where both fail, they fail alike;
only the system's reason for a missing parent can be another one. -/
theorem runDeclared_again (apart : Apart disk plan.scratch plan.root top base)
    (same : plan.placeholderRoot = plan.root) (declared : List String) :
    let first := plan.runDeclared disk declared
    let second := plan.runDeclared first.disk declared
    Repeats first.result second.result ∧ second.registry = first.registry ∧
      second.disk = first.disk :=
  run_again apart same fun walked _ member => fixed_of_walked apart walked member

/-- Two spellings of one output, so that its file is written twice in each run, and an output below a
file, at which each run is cut short. -/
theorem runDeclared_again_below_file :
    let declared := ["a.go", "b/../a.go", "old.txt/x.go"]
    let first := mixedPlan.runDeclared mixedDisk declared
    let second := mixedPlan.runDeclared first.disk declared
    first.result = .error (.reconcile (.noParent "old.txt/x.go" ⟨.exists, "/out/old.txt"⟩)) ∧
      first.disk.get? ["out", "a.go"] = some
        (.file (Placeholder.text "ignore" "ignore").toUTF8 false) ∧
      Repeats first.result second.result ∧ second.registry = first.registry ∧
      second.disk = first.disk :=
  ⟨by decide +kernel, by decide +kernel, runDeclared_again mixed_apart rfl _⟩

end Reconciliation
end Emplace

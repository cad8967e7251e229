import Emplace.Proofs.Registry.Matching
import Emplace.Proofs.Report.Summary

/-!
The counts of an emission against the report on the same records. Both count every declared path
once, so the two say the same and nothing is lost between them.
-/
namespace Emplace.Registry

variable {declared : List String} {files : List (String × Path)} {registry : Registry}

/-- The records of the declared paths are as many as there are different ones among these. -/
theorem Tracks.length_expectedRecords (tracks : Tracks declared files registry) :
    registry.expectedRecords.length = declared.dedup.length := by
  have same : (registry.expectedRecords.map Record.path).Perm declared.dedup :=
    (List.perm_ext_iff_of_nodup tracks.expectedRecords_once (List.nodup_dedup _)).mpr
      fun path => by rw [List.mem_dedup, tracks.mem_paths]
  simpa using same.length_eq

end Emplace.Registry

namespace Emplace.Report

/-- The counts that an emission gives are those of the report, state by state and in the order in
which the states first occur. Together they come to the number of different declared paths, each of
which has one result, in ascending order. -/
theorem emit_accounts (declared : List String) (files : List (String × Path)) (plan : Emission)
    (disk : Disk) (importpath : String) (times : Times) {counts : List (MatchState × Nat)}
    (done : (plan.emit disk ((Registry.declare declared).discoverAll files)).2.2 = .ok counts) :
    let registry := (Registry.declare declared).discoverAll files
    let report := (empty importpath).add registry.expectedRecords
    report.stateCounts = counts.map (fun count => (count.1.label, count.2)) ∧
    ∃ summary, Summary.read? (report.text times) = some summary ∧
      summary.counts = counts ∧
      counts.map (·.1) = (summary.results.map Result.state).eraseDups ∧
      (counts.map (·.2)).sum = declared.dedup.length ∧
      summary.total = declared.dedup.length ∧
      summary.results.length = declared.dedup.length ∧
      (∀ state, (counts.lookup state).getD 0 =
        summary.results.countP fun result => result.state = state) ∧
      MatchState.ambiguous ∉ counts.map (·.1) ∧
      (summary.results.Pairwise fun a b => a.path < b.path) ∧
      ∀ path, path ∈ summary.results.map Result.path ↔ path ∈ declared := by
  intro registry report
  have tracks : Registry.Tracks declared files registry :=
    Registry.tracks_discoverAll declared files
  obtain ⟨rfl, settled⟩ := Emission.emit_eq_ok done
  have states : (registry.expectedRecords.map Result.of).map Result.state =
      registry.expectedRecords.map Record.state := by simp [Result.of, Function.comp_def]
  refine ⟨stateCounts_eq report, .of report, read?_text report times, rfl, ?order, ?total, ?said,
    ?results, ?each, ?ambiguous, ?ascending, ?paths⟩
  case order =>
    rw [keys_tally]
    exact congrArg List.eraseDups states.symm
  case total => rw [sum_tally, List.length_map, tracks.length_expectedRecords]
  case said => exact tracks.length_expectedRecords
  case results => exact (List.length_map _).trans tracks.length_expectedRecords
  case each =>
    intro state
    rw [lookup_tally, ← states, List.count_eq_countP, List.countP_map]
    rfl
  case ambiguous =>
    rw [keys_tally, List.mem_eraseDups, List.mem_map]
    rintro ⟨record, member, same⟩
    exact settled record member same
  case ascending => exact List.pairwise_map.mpr tracks.expectedRecords_ascending
  case paths =>
    intro path
    have same : (registry.expectedRecords.map Result.of).map Result.path =
        registry.expectedRecords.map Record.path := by simp [Result.of, Function.comp_def]
    rw [← tracks.mem_paths, ← same]
    rfl

/-- A path declared twice, one found at its place, one found by its name and two not found. -/
theorem emit_accounts_mixed :
    let declared := ["z/x.go", "a/y.go", "z/x.go", "c.go", "b.go"]
    let files :=
      [("q/x.go", Path.ofString "scratch/q/x.go"), ("a/y.go", Path.ofString "scratch/y.go")]
    let disk : Disk := ⟨[], [(["out"], .directory), (["scratch"], .directory),
      (["scratch", "q"], .directory), (["scratch", "q", "x.go"], .file ⟨#[1]⟩ false),
      (["scratch", "y.go"], .file ⟨#[2]⟩ false)]⟩
    let plan : Emission := ⟨Path.ofString "out", Path.ofString "out", .standard, "example"⟩
    let report := (empty "example").add
      ((Registry.declare declared).discoverAll files).expectedRecords
    (plan.emit disk ((Registry.declare declared).discoverAll files)).2.2 =
        .ok [(.exact, 1), (.unmatched, 2), (.fallback, 1)] ∧
      report.stateCounts =
        [("matched_exact", 1), ("unmatched", 2), ("matched_fallback", 1)] ∧
      ∃ summary, Summary.read? (report.text ⟨7, 0⟩) = some summary ∧ summary.total = 4 ∧
        summary.results.length = 4 := by
  intro declared files disk plan report
  have done : (plan.emit disk ((Registry.declare declared).discoverAll files)).2.2 =
      .ok [(.exact, 1), (.unmatched, 2), (.fallback, 1)] := by decide +kernel
  obtain ⟨same, summary, read, -, -, -, total, results, -⟩ :=
    emit_accounts declared files plan disk "example" ⟨7, 0⟩ done
  exact ⟨done, same, summary, read, total, results⟩

end Emplace.Report

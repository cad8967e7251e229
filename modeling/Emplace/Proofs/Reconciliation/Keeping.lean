import Emplace.Proofs.Emission.Delivering
import Emplace.Proofs.Reconciliation.Outcome
import Emplace.Proofs.Scan.Preserving

/-!
Which copied outputs are there when a reconciliation is over. Records are told apart by the texts of
their paths and written in the order of these, so an output is lost where a later text is taken for
the same file and given other bytes.
-/
namespace Emplace.Reconciliation

open Disk Registry Emission

/-- The deliveries of a reconciliation, in order. -/
def deliveries (plan : Reconciliation) (disk : Disk) (declared : List String) : List Delivery :=
  (plan.stops disk declared).filterMap plan.emission.delivery?

variable {plan : Reconciliation} {disk : Disk} {base : Location} {declared : List String}

/-- In a reconciliation that returns, every declared path is delivered once to the file that the path
is taken for, with the bytes of its source unless that lies in the output tree itself; and the copied
outputs are all kept exactly where each is given the same bytes as what is delivered to its file
last. -/
theorem runDeclared_keeps_iff (free : LinkFree disk plan.root base)
    (same : plan.placeholderRoot = plan.root)
    (done : (plan.runDeclared disk declared).result = .ok ()) :
    (plan.deliveries disk declared).map Delivery.record =
        (plan.runDeclared disk declared).registry.expectedRecords ∧
    (∀ delivery ∈ plan.deliveries disk declared,
      (delivery.record.state.isMatch → ∃ source loc bytes, delivery.record.source = some source ∧
        Reads (plan.runDeclared disk declared).disk source loc bytes ∧
        (¬ base <+: loc → bytes = delivery.bytes ∧
          ∀ place old, Reads disk source place old → old = bytes)) ∧
      (¬ Circular disk (plan.root.join (Path.ofString delivery.record.path)) →
        targetLocation disk plan.root delivery.record.path = .ok delivery.target ∧
        targetLocation (plan.runDeclared disk declared).disk plan.root delivery.record.path =
          .ok delivery.target)) ∧
    ((∀ delivery ∈ plan.deliveries disk declared, delivery.record.state.isMatch →
        Stands (plan.runDeclared disk declared).disk delivery.target delivery.bytes) ↔
      ∀ delivery ∈ plan.deliveries disk declared, delivery.record.state.isMatch →
        (lastTo? delivery.target (plan.deliveries disk declared)).map Delivery.bytes =
          some delivery.bytes) := by
  have walk := Scan.run_fills plan.scan disk (declare declared) base
  obtain ⟨walked, notes, found, wrote, noneAmbiguous⟩ := run_eq_ok done
  have registry : (plan.runDeclared disk declared).registry =
      (plan.scan.run disk (declare declared)).1.registry := run_registry plan disk _
  have emitted : plan.deliveries disk declared = plan.emission.deliveries
      (plan.scan.run disk (declare declared)).1.disk
      (plan.scan.run disk (declare declared)).1.registry.expectedRecords := by
    rw [deliveries, stops_of_walked walked]
    rfl
  have writes := (writesAll_iff plan.emission _ ⟨[], []⟩ _ _).mpr ⟨notes, found, wrote⟩
  have allDecided := decided_eq_self (settled_of_writeRecords wrote noneAmbiguous)
  rw [← runDeclared_disk] at writes
  obtain ⟨listed, left⟩ := writes.delivers free walk.grows same
  rw [allDecided] at listed
  rw [registry, emitted]
  refine ⟨listed, fun delivery member => ?_, ?_⟩
  · obtain ⟨stop, next, early, delivers, late⟩ :=
      writes.mem_deliveries free walk.grows same member
    refine ⟨fun matched => ?_, fun straight => ?_⟩
    · obtain ⟨source, known, read⟩ := delivers.supplied.source matched
      obtain ⟨loc, reads⟩ := reads_of_readBytes read
      have readied := ensureDirectory_fills stop (pathOf delivery.target).parent base
      obtain ⟨bytes, last, outside⟩ :=
        reads.around (walk.trans (early.trans readied)) (delivers.fills.trans late)
      exact ⟨source, loc, bytes, known, last, outside⟩
    · have start := targetLocation_grows free.sound (walk.trans early).grows straight free.straight
      have final := targetLocation_grows free.sound (runDeclared_grows plan disk declared) straight
        free.straight
      have here : targetLocation disk plan.root delivery.record.path = .ok delivery.target :=
        start ▸ delivers.accepted
      exact ⟨here, final.trans here⟩
  · exact forall₃_congr fun delivery member _ => left.stands_iff member

/-- One produced file and an empty output root. -/
def oneFileDisk : Disk :=
  ⟨[], [(["out"], .directory), (["scratch"], .directory),
    (["scratch", "x.go"], .file ⟨#[1]⟩ false)]⟩

def oneFilePlan : Reconciliation :=
  ⟨Path.ofString "scratch", Path.ofString "out", standardEndings, Path.ofString "out", .standard,
    "example"⟩

theorem oneFile_linkFree : LinkFree oneFileDisk oneFilePlan.root ["out"] :=
  ⟨by decide, by decide +kernel, by decide +kernel, by decide⟩

/-- The stand-in for the other text comes first and is replaced. -/
theorem runDeclared_keeps_before_dot :
    (oneFilePlan.deliveries oneFileDisk ["x.go", "./x.go"]).map (fun delivery =>
        (delivery.record.path, delivery.record.state, delivery.target)) =
      [("./x.go", .unmatched, ["out", "x.go"]), ("x.go", .exact, ["out", "x.go"])] ∧
    ∀ delivery ∈ oneFilePlan.deliveries oneFileDisk ["x.go", "./x.go"],
      delivery.record.state.isMatch →
        Stands (oneFilePlan.runDeclared oneFileDisk ["x.go", "./x.go"]).disk delivery.target
          delivery.bytes := by
  have done : (oneFilePlan.runDeclared oneFileDisk ["x.go", "./x.go"]).result = .ok () := by
    decide +kernel
  obtain ⟨_, _, keeps⟩ := runDeclared_keeps_iff oneFile_linkFree rfl done
  exact ⟨by decide +kernel, keeps.mpr (by decide +kernel)⟩

/-- The stand-in for the other text comes last and takes the place of the copied file. -/
theorem runDeclared_loses_before_slash :
    let run := oneFilePlan.runDeclared oneFileDisk ["x.go", "x.go/"]
    LinkFree oneFileDisk oneFilePlan.root ["out"] ∧ run.result = .ok () ∧
      (∃ record ∈ run.registry.expectedRecords, record.path = "x.go" ∧ record.state = .exact ∧
        record.source = some (Path.ofString "scratch/x.go")) ∧
      oneFileDisk.readBytes (Path.ofString "scratch/x.go") = .ok ⟨#[1]⟩ ∧
      targetLocation run.disk oneFilePlan.root "x.go" = .ok ["out", "x.go"] ∧
      ¬ Stands run.disk ["out", "x.go"] ⟨#[1]⟩ :=
  ⟨oneFile_linkFree, by decide +kernel, by decide +kernel, by decide +kernel, by decide +kernel,
    by decide +kernel⟩

end Emplace.Reconciliation

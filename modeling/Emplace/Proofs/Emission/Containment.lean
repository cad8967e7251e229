import Emplace.Proofs.Disk.Settling
import Emplace.Proofs.Emission.Writing

/-!
What an emission touches outside its output root. A target on which no link is left is where the
guard saw it, and everything that is made or opened for it lies below the root. A link can be left
where a path ran into a circle of links and was worked out by its text from there on; the system
follows it wherever it leads.
-/
namespace Emplace

open Disk

/-- A declared path that is let through although a link is left on its target. -/
def Astray (disk : Disk) (root : Path) (rel : String) : Prop :=
  Circular disk (root.join (Path.ofString rel)) ∧
    ∃ target, targetLocation disk root rel = .ok target ∧ ¬ Bare disk [] target

namespace Emission

/-- The file that is opened for the output of a record, where it is written. -/
def opened (plan : Emission) (disk : Disk) (record : Record) : Option Location :=
  match record.state, (plan.writeRecord disk record).2,
      targetLocation disk (plan.rootOf record.state) record.path with
  | .ambiguous, _, _ => none
  | _, .ok (), .ok target =>
    match (disk.ensureDirectory (pathOf target).parent).1.locate .writing (pathOf target) with
    | .ok spot => some spot.place
    | .error _ => none
  | _, _, _ => none

/-- A place that the writing of a record makes, changes or opens. -/
def Touches (plan : Emission) (disk : Disk) (record : Record) (loc : Location) : Prop :=
  (plan.writeRecord disk record).1.get? loc ≠ disk.get? loc ∨ plan.opened disk record = some loc

variable {plan : Emission} {first disk : Disk} {base : Location}

/-- The directories above a bare target are made below the root, which is there already. -/
theorem ensureDirectory_sameOff (sound : Sound first) (growth : Grows first disk)
    (root : first.get? base = some .directory) {target : Location} (bare : Bare disk [] target)
    (ordinary : ∀ name ∈ target, Ordinary name) (inside : base <+: target) :
    SameOff (base <+: ·) disk (disk.ensureDirectory (pathOf target).parent).1 := by
  have kept : SameOff (base <+: ·) disk (disk.ensureDirectory (pathOf target).parent).1 ∧
      Grows disk (disk.ensureDirectory (pathOf target).parent).1 := by
    apply ensureDirectory_keeps
      (motive := fun part => SameOff (base <+: ·) disk part ∧ Grows disk part)
    · rintro part front dir name above ⟨off, grown⟩ found
      have upTo : front <+: target := above.trans (List.dropLast_prefix target)
      obtain ⟨_, free⟩ := locate_absent found
      have place : dir ++ [name] = front :=
        place_of_locate_bare ((bare.of_prefix upTo).grows grown)
          (fun other member => ordinary other (upTo.subset member)) found
      refine ⟨off.trans (sameOff_put part _ ?_), grown.trans (grows_put_directory part free)⟩
      -- A directory above the root is there and cannot be the one that is made.
      rw [place] at free ⊢
      rcases List.prefix_or_prefix_of_prefix inside upTo with below | higher
      · exact below
      · have there := (growth.trans grown).directory (sound.above_of_prefix root higher)
        rw [free] at there
        cases there
    · exact ⟨SameOff.refl _ disk, Grows.refl disk⟩
  exact kept.1

theorem opened_eq_some {record : Record} {loc : Location}
    (found : plan.opened disk record = some loc) :
    ∃ target spot, targetLocation disk (plan.rootOf record.state) record.path = .ok target ∧
      (disk.ensureDirectory (pathOf target).parent).1.locate .writing (pathOf target) = .ok spot ∧
      spot.place = loc := by
  unfold opened at found
  split at found
  · cases found
  · rename_i target _ accepted _
    split at found
    · rename_i spot reached
      exact ⟨target, spot, accepted, reached, by simpa using found⟩
    · cases found
  · cases found

/-- A record whose target has no link left on it touches nothing outside the root. -/
theorem touches_inside (sound : Sound first) (growth : Grows first disk)
    (located : first.locate .target plan.root = .ok (.present base .directory))
    (same : plan.placeholderRoot = plan.root) {record : Record}
    (straight : ¬ Astray disk plan.root record.path) {loc : Location}
    (touches : plan.Touches disk record loc) : base <+: loc := by
  have grounded := sound.grounded.grows growth
  have safe : ∀ target, targetLocation disk (plan.rootOf record.state) record.path = .ok target →
      base <+: target ∧ Bare disk [] target ∧ ∀ name ∈ target, Ordinary name := by
    intro target accepted
    rw [rootOf_eq same] at accepted
    obtain ⟨settled, top, resolved, inside⟩ := targetLocation_eq_ok accepted
    rw [canonical_of_locate sound growth located] at resolved
    cases resolved
    refine ⟨inside, ?_, canonical_ordinary grounded settled⟩
    -- A link that is left comes from a circle, and then the record is astray.
    by_contra left
    apply straight
    refine ⟨?_, target, accepted, left⟩
    by_contra noCircle
    exact left (bare_of_canonical grounded settled noCircle)
  have there := directory_of_locate sound located
  rcases touches with changed | opened
  · by_contra outside
    apply changed
    have writes := writeRecord_writes plan disk record
    generalize plan.writeRecord disk record = outcome at writes
    cases writes with
    | skipped => rfl
    | refused => rfl
    | halted failure accepted =>
        obtain ⟨inside, bare, ordinary⟩ := safe _ accepted
        exact ensureDirectory_sameOff sound growth there bare ordinary inside loc outside
    | @done target made after bytes accepted ready _ written =>
        obtain ⟨inside, bare, ordinary⟩ := safe _ accepted
        have off := ensureDirectory_sameOff sound growth there bare ordinary inside
        have grown := ensureDirectory_grows disk (pathOf target).parent
        rw [ready] at off grown
        obtain ⟨spot, executable, reached, rfl, _⟩ := writeBytes_eq_ok written
        have place := place_of_locate_bare (bare.grows grown) ordinary reached
        exact (off.trans (sameOff_put made _ (by rw [place]; exact inside))) loc outside
  · obtain ⟨target, spot, accepted, reached, rfl⟩ := opened_eq_some opened
    obtain ⟨inside, bare, ordinary⟩ := safe _ accepted
    rw [place_of_locate_bare (bare.grows (ensureDirectory_grows disk _)) ordinary reached]
    exact inside

/-- An emission stays below its root exactly where this can be said of the paths that are let
through with a link left on their targets. -/
theorem emit_inside_iff (sound : Sound disk)
    (located : disk.locate .target plan.root = .ok (.present base .directory))
    (same : plan.placeholderRoot = plan.root) (registry : Registry) :
    ((∀ stop ∈ plan.stops disk registry.expectedRecords,
        ∀ loc, plan.Touches stop.1 stop.2 loc → base <+: loc) ∧
      SameOff (base <+: ·) disk (plan.emit disk registry).1) ↔
    ∀ stop ∈ plan.stops disk registry.expectedRecords, Astray stop.1 plan.root stop.2.path →
      ∀ loc, plan.Touches stop.1 stop.2 loc → base <+: loc := by
  constructor
  · rintro ⟨inside, _⟩ stop member _
    exact inside stop member
  · intro watched
    have grown := (writeRecords_grows plan disk ⟨[], []⟩ registry.expectedRecords).1
    have inside : ∀ stop ∈ plan.stops disk registry.expectedRecords,
        ∀ loc, plan.Touches stop.1 stop.2 loc → base <+: loc := by
      intro stop member loc touches
      by_cases astray : Astray stop.1 plan.root stop.2.path
      · exact watched stop member astray loc touches
      · exact touches_inside sound (grown stop member) located same astray touches
    refine ⟨inside, ?_⟩
    -- What a stop changes it touches, so nothing outside changes from one stop to the next.
    rw [emit_fst]
    refine (writeRecords_keeps (motive := SameOff (base <+: ·) disk) _ (SameOff.refl _ disk) ?_).2
    intro stop member off loc outside
    rw [← off loc outside]
    by_contra changed
    exact outside (inside stop member loc (Or.inl changed))

/-- A root with a circle of links and a link that leads out of it. -/
def circleDisk : Disk :=
  ⟨[], [(["out"], .directory), (["out", "loop"], .link "loop"),
    (["out", "x.go"], .link "../outside.go"), (["outside.go"], .file ByteArray.empty false)]⟩

def outPlan : Emission := ⟨Path.ofString "out", Path.ofString "out", .standard, "example"⟩

/-- The link that leads out is refused, and what comes before it stays inside. -/
theorem emit_inside_beside_link :
    SameOff (["out"] <+: ·) circleDisk
      (outPlan.emit circleDisk (Registry.declare ["sub/y.go", "x.go"])).1 := by
  have noCircle : ∀ stop ∈ outPlan.stops circleDisk
      (Registry.declare ["sub/y.go", "x.go"]).expectedRecords,
      ¬ Circular stop.1 (outPlan.root.join (Path.ofString stop.2.path)) := by decide +kernel
  have inside : ∀ stop ∈ outPlan.stops circleDisk
      (Registry.declare ["sub/y.go", "x.go"]).expectedRecords,
      Astray stop.1 outPlan.root stop.2.path →
        ∀ loc, outPlan.Touches stop.1 stop.2 loc → ["out"] <+: loc :=
    fun stop member astray => absurd astray.1 (noCircle stop member)
  exact ((emit_inside_iff (by decide) rfl rfl _).mpr inside).2

/-- Behind the circle the same link is let through, and the file that it leads to is written. -/
theorem emit_outside_behind_circle :
    Sound circleDisk ∧
      circleDisk.locate .target outPlan.root = .ok (.present ["out"] .directory) ∧
      ¬ SameOff (["out"] <+: ·) circleDisk
        (outPlan.emit circleDisk (Registry.declare ["loop/../x.go"])).1 := by
  refine ⟨by decide, rfl, ?_⟩
  intro off
  have kept := off ["outside.go"] (by decide)
  revert kept
  decide +kernel

end Emission
end Emplace

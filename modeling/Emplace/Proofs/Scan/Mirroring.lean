import Emplace.Proofs.Scan.Walking

/-!
What a walk changes outside its output root. The root is joined with a relative path as it is and
the system follows the links on that, so a directory is made wherever its parent turns out to be.
-/
namespace Emplace.Scan

open Disk

/-- The directories that are asked for, each with the disk as it is then: one that is made can
complete the way of a link that led nowhere before. -/
def stops (scan : Scan) : Disk → List Path → List (Disk × Path)
  | _, [] => []
  | disk, rel :: rest => (disk, rel) :: stops scan (scan.mirrored disk rel) rest

/-- The directories that a whole walk asks for, each with the disk as it is then. -/
def runStops (scan : Scan) (disk : Disk) (registry : Registry) : List (Disk × Path) :=
  scan.stops disk (dirs (scan.runSteps disk registry))

/-- Where the directory is missing, the one that it would be made in lies in the tree at `base`. -/
def MissingInside (scan : Scan) (base : Location) (stop : Disk × Path) : Prop :=
  ∀ dir name, stop.1.locate .self (scan.root.join stop.2) = .ok (.absent dir name) → base <+: dir

instance (scan : Scan) (base : Location) (stop : Disk × Path) :
    Decidable (scan.MissingInside base stop) :=
  match found : stop.1.locate .self (scan.root.join stop.2) with
  | .ok (.absent dir _) => decidable_of_iff (base <+: dir) (by simp [MissingInside, found])
  | .ok (.present _ _) => .isTrue (by simp [MissingInside, found])
  | .error _ => .isTrue (by simp [MissingInside, found])

variable {scan : Scan} {disk : Disk} {base : Location}

/-- Where no name is free for a directory that is asked for, nothing is made. -/
theorem ensureDirectory_join_taken {rel : Path} (anchor : rel.anchor = .here)
    (below : rel.names ≠ []) (clear : hasNull (scan.root.join rel) = false)
    (entered : scan.Entered disk rel.parent)
    (taken : ∀ dir name, disk.locate .self (scan.root.join rel) ≠ .ok (.absent dir name)) :
    (disk.ensureDirectory (scan.root.join rel)).1 = disk := by
  obtain ⟨loc, there⟩ := entered
  have parent : (scan.root.join rel).parent = scan.root.join rel.parent := by
    simp [Path.parent, Path.join, anchor, List.dropLast_append_of_ne_nil below]
  rw [← parent] at there
  exact ensureDirectory_taken clear there (by simp [Path.join, anchor, below]) taken

/-- One directory that is asked for changes nothing outside exactly where it is missing inside. -/
theorem mirrored_inside_iff {rel : Path} (root : disk.get? base = some .directory)
    (anchor : rel.anchor = .here) (below : rel.names ≠ [])
    (clear : hasNull (scan.root.join rel) = false) (entered : scan.Entered disk rel.parent) :
    SameOff (base <+: ·) disk (scan.mirrored disk rel) ↔ scan.MissingInside base (disk, rel) := by
  by_cases free : ∃ dir name, disk.locate .self (scan.root.join rel) = .ok (.absent dir name)
  · obtain ⟨dir, name, found⟩ := free
    have absent := (locate_absent found).2
    rw [mirrored, ensureDirectory_absent clear found]
    constructor
    · intro off other last again
      rw [found] at again
      cases again
      by_contra outside
      -- The root is there, so a free place inside it lies below it.
      have elsewhere : ¬ base <+: dir ++ [name] := by
        intro inside
        rcases List.prefix_concat_iff.mp inside with same | shorter
        · rw [same, absent] at root
          cases root
        · exact outside shorter
      have kept := off _ elsewhere
      rw [get?_put_same disk _ (by simp), absent] at kept
      cases kept
    · intro inside
      exact sameOff_put disk _ ((inside dir name found).trans (List.prefix_append _ _))
  · have taken : ∀ dir name, disk.locate .self (scan.root.join rel) ≠ .ok (.absent dir name) :=
      fun dir name found => free ⟨dir, name, found⟩
    rw [mirrored, ensureDirectory_join_taken anchor below clear entered taken]
    exact ⟨fun _ dir name found => absurd found (taken dir name), fun _ => .refl _ disk⟩

theorem foldl_mirrored_inside_iff {rels : List Path} (root : disk.get? base = some .directory)
    (clear : hasNull scan.root = false) (orderly : scan.Orderly disk rels) :
    SameOff (base <+: ·) disk (rels.foldl scan.mirrored disk) ↔
      ∀ stop ∈ scan.stops disk rels, scan.MissingInside base stop := by
  induction rels generalizing disk with
  | nil => simp [stops, SameOff.refl]
  | cons rel rest ih =>
      obtain ⟨anchor, below, noNull, entered, later⟩ := orderly
      have growth := scan.mirrored_grows disk rel
      have rest_iff := ih (growth.directory root) later
      have whole : hasNull (scan.root.join rel) = false := by
        rw [hasNull_join_of_here anchor, clear, noNull]
        rfl
      have first_iff := mirrored_inside_iff root anchor below whole entered
      rw [stops, List.forall_mem_cons, ← first_iff, ← rest_iff, List.foldl_cons]
      constructor
      · intro off
        -- What the first directory adds outside is there at the end as well.
        have first : SameOff (base <+: ·) disk (scan.mirrored disk rel) := by
          intro loc outside
          rcases ensureDirectory_spares disk (scan.root.join rel) loc with same | ⟨free, made⟩
          · exact same
          · have last := (scan.foldl_mirrored_grows (scan.mirrored disk rel) rest).directory made
            have kept := off loc outside
            rw [last, free] at kept
            cases kept
        exact ⟨first, fun loc outside => (off loc outside).trans (first loc outside).symm⟩
      · rintro ⟨first, second⟩
        exact first.trans second

/-- A walk changes nothing outside its root exactly where every directory that it asks for and that
is missing would be made inside. -/
theorem run_inside_iff (sound : Sound disk) (registry : Registry)
    (located : disk.locate .target scan.root = .ok (.present base .directory)) :
    SameOff (base <+: ·) disk (scan.run disk registry).1.disk ↔
      ∀ stop ∈ scan.runStops disk registry, scan.MissingInside base stop := by
  have tells := run_tells scan registry located
  rw [tells.disk]
  exact foldl_mirrored_inside_iff (directory_of_locate sound located)
    (hasNull_of_locate sound located) tells.orderly

/-- Scratch directories `a` and `a/b`, and a root in which `a` is a link. -/
def linkDisk (target : String) : Disk :=
  ⟨[], [(["scratch"], .directory), (["scratch", "a"], .directory),
    (["scratch", "a", "b"], .directory), (["out"], .directory), (["out", "inner"], .directory),
    (["out", "a"], .link target), (["elsewhere"], .directory)]⟩

def linkScan : Scan := ⟨Path.ofString "scratch", Path.ofString "out", [.text ".go"]⟩

/-- A link that stays inside has its directory made inside. -/
theorem run_inside_inward_link :
    SameOff (["out"] <+: ·) (linkDisk "inner") (linkScan.run (linkDisk "inner") .empty).1.disk := by
  have inside : ∀ stop ∈ linkScan.runStops (linkDisk "inner") .empty,
      linkScan.MissingInside ["out"] stop := by decide +kernel
  exact (run_inside_iff (by decide) .empty rfl).mpr inside

/-- A link that leads out has its directory made where it leads. -/
theorem run_outside_outward_link :
    Sound (linkDisk "../elsewhere") ∧
      (linkDisk "../elsewhere").locate .target linkScan.root = .ok (.present ["out"] .directory) ∧
      ¬ SameOff (["out"] <+: ·) (linkDisk "../elsewhere")
        (linkScan.run (linkDisk "../elsewhere") .empty).1.disk := by
  refine ⟨by decide, rfl, ?_⟩
  intro off
  have kept := off ["elsewhere", "b"] (by decide)
  revert kept
  decide +kernel

end Emplace.Scan

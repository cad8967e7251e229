import Emplace.Proofs.Disk.Raising
import Emplace.Proofs.Scan.Eligible

/-!
What a walk that returns has gone through, on any disk. The directories that it makes below the output
root can complete the way of a link in the scratch tree, so a file is told to be eligible when the walk
comes to its directory: `Walked` enters the directories one after the other, each with its files.
-/
namespace Emplace.Scan

open Disk

/-- The disk once a directory of the scratch tree is entered: it is there below the output root. -/
def entering (scan : Scan) (disk : Disk) (rel : Path) : Disk :=
  if rel.names = [] then disk else scan.mirrored disk rel

/-- Directories that are entered in turn, and the files that are eligible in each of them then. -/
inductive Walked (scan : Scan) (top : Location) : Disk → List Path → List Path → Disk → Prop where
  | stop (disk : Disk) : Walked scan top disk [] [] disk
  | enter {disk after : Disk} {rel : Path} {dirs here files : List Path} :
      scan.Gathers (scan.entering disk rel) top (·.dropLast = rel.names) here →
      Walked scan top (scan.entering disk rel) dirs files after →
      Walked scan top disk (rel :: dirs) (here ++ files) after

variable {scan : Scan} {disk later after : Disk} {top : Location} {rel : Path}
  {dirs files : List Path}

theorem entering_raised (scan : Scan) (disk : Disk) (rel : Path) :
    Raised disk (scan.entering disk rel) := by
  unfold entering
  split
  · exact .refl disk
  · exact raised_ensureDirectory disk _

theorem Named.entering (named : Named disk) (scan : Scan) (rel : Path) :
    Named (scan.entering disk rel) := by
  unfold Scan.entering
  split
  · exact named
  · exact named.ensureDirectory _

theorem Eligible.raised (raised : Raised disk later) {names : List String} {bytes : ByteArray}
    (eligible : scan.Eligible disk top names bytes) : scan.Eligible later top names bytes := by
  obtain ⟨executable, file⟩ := eligible.file
  exact ⟨eligible.below, (raised.grows.places _).isSome eligible.inTree,
    ⟨executable, raised.status_file file⟩, eligible.ending⟩

theorem Walked.raised (walked : scan.Walked top disk dirs files after) : Raised disk after := by
  induction walked with
  | stop disk => exact .refl disk
  | enter _ _ ih => exact (entering_raised scan _ _).trans ih

theorem Walked.named (walked : scan.Walked top disk dirs files after) (named : Named disk) :
    Named after := by
  induction walked with
  | stop => exact named
  | enter _ _ ih => exact ih (Named.entering named scan _)

theorem Walked.append {dirsToo filesToo : List Path}
    (first : scan.Walked top disk dirs files later)
    (second : scan.Walked top later dirsToo filesToo after) :
    scan.Walked top disk (dirs ++ dirsToo) (files ++ filesToo) after := by
  induction first with
  | stop => exact second
  | enter gathers _ ih =>
      rw [List.cons_append, List.append_assoc]
      exact .enter gathers (ih second)

/-- The files are those of the directories, and still eligible in the end. -/
theorem Walked.late (walked : scan.Walked top disk dirs files after) :
    ∀ path ∈ files, path.anchor = .here ∧ (∃ rel ∈ dirs, path.names.dropLast = rel.names) ∧
      ∃ bytes, scan.Eligible after top path.names bytes := by
  induction walked with
  | stop => simp
  | enter gathers walked ih =>
      intro path member
      rcases List.mem_append.mp member with here | further
      · obtain ⟨anchor, parent, bytes, eligible⟩ := (gathers.members path).mp here
        exact ⟨anchor, ⟨_, List.mem_cons_self, parent⟩, bytes, eligible.raised walked.raised⟩
      · obtain ⟨anchor, ⟨rel, inDirs, parent⟩, eligible⟩ := ih path further
        exact ⟨anchor, ⟨rel, List.mem_cons_of_mem _ inDirs, parent⟩, eligible⟩

/-- A file that is eligible at the start is taken where its directory is entered. -/
theorem Walked.early (walked : scan.Walked top disk dirs files after) {names : List String}
    {bytes : ByteArray} (eligible : scan.Eligible disk top names bytes)
    (entered : ∃ rel ∈ dirs, names.dropLast = rel.names) : ⟨.here, names⟩ ∈ files := by
  induction walked with
  | stop => simp at entered
  | @enter disk after rel dirs here files gathers walked ih =>
      have still := eligible.raised (entering_raised scan disk rel)
      rw [List.mem_append]
      obtain ⟨other, member, parent⟩ := entered
      rcases List.mem_cons.mp member with rfl | inDirs
      · exact Or.inl ((gathers.members _).mpr ⟨rfl, parent, bytes, still⟩)
      · exact Or.inr (ih still ⟨other, inDirs, parent⟩)

theorem Walked.files_nodup (walked : scan.Walked top disk dirs files after)
    (once : (dirs.map Path.names).Nodup) : files.Nodup := by
  induction walked with
  | stop => exact List.nodup_nil
  | enter gathers walked ih =>
      obtain ⟨fresh, rest⟩ := List.nodup_cons.mp once
      rw [List.nodup_append]
      refine ⟨gathers.once, ih rest, ?_⟩
      rintro path early _ late rfl
      obtain ⟨_, parent, _⟩ := (gathers.members path).mp early
      obtain ⟨_, ⟨other, member, same⟩, _⟩ := walked.late path late
      rw [← parent, same] at fresh
      exact fresh (List.mem_map_of_mem member)

end Emplace.Scan

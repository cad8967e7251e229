import Emplace.Proofs.Disk.Making
import Emplace.Proofs.Scan.Taking

/-!
Walking again. On the disk that a walk has left, or on one that has only grown in the output tree
since, the same walk makes nothing, takes the same files into account and ends in the same way.
-/
namespace Emplace

open Disk

/-- The same progress on another disk. -/
def Progress.on (progress : Progress) (disk : Disk) : Progress := { progress with disk }

namespace Scan

/-- A part of a walk. -/
abbrev Part := Progress → Progress × Except Failure Unit

/-- Two parts, the second where the first comes to its end. -/
def andThen (first second : Part) : Part := fun progress =>
  match first progress with
  | (progress, .error failure) => (progress, .error failure)
  | (progress, .ok ()) => second progress

/-- A part of a walk that only adds to the tree at `base` and does not do so a second time. One that
fails is gone through again on the very disk that it has left. -/
structure Retraces (base : Location) (part : Part) (progress : Progress) : Prop where
  quiet : Quiet base progress.disk (part progress).1.disk
  again : ∀ final, Quiet base (part progress).1.disk final →
    ((part progress).2 = .ok () ∨ final = (part progress).1.disk) →
      part (progress.on final) = ((part progress).1.on final, (part progress).2)

variable {scan : Scan} {disk later : Disk} {top base : Location} {rel : Path} {part other : Part}
  {progress : Progress}

theorem Retraces.congr (retraces : Retraces base other progress)
    (same : ∀ final, Quiet base progress.disk final →
      part (progress.on final) = other (progress.on final)) : Retraces base part progress := by
  have here : part progress = other progress := same progress.disk (.refl base _)
  refine ⟨here ▸ retraces.quiet, fun final quiet allowed => ?_⟩
  rw [here] at quiet allowed ⊢
  rw [same final (retraces.quiet.trans quiet)]
  exact retraces.again final quiet allowed

theorem retraces_still (base : Location) (result : Except Failure Unit) (progress : Progress) :
    Retraces base (fun progress => (progress, result)) progress :=
  ⟨.refl base _, fun _ _ _ => rfl⟩

/-- Two parts one after the other are gone through again, the first one on a disk that the second has
added to. -/
theorem Retraces.andThen {first second : Part} (before : Retraces base first progress)
    (after : (first progress).2 = .ok () → Retraces base second (first progress).1) :
    Retraces base (andThen first second) progress := by
  have early := before.quiet
  have again := before.again
  rcases outcome : first progress with ⟨middle, failure | _⟩
  · rw [outcome] at early again
    have same : Scan.andThen first second progress = (middle, .error failure) := by
      simp only [Scan.andThen, outcome]
    refine ⟨by rw [same]; exact early, fun final quiet allowed => ?_⟩
    rw [same] at quiet allowed ⊢
    simp only [Scan.andThen, again final quiet allowed]
  · rw [outcome] at early again after
    have late := after rfl
    have same : Scan.andThen first second progress = second middle := by
      simp only [Scan.andThen, outcome]
    refine ⟨by rw [same]; exact early.trans late.quiet, fun final quiet allowed => ?_⟩
    rw [same] at quiet allowed ⊢
    simp only [Scan.andThen, again final (late.quiet.trans quiet) (Or.inl rfl)]
    exact late.again final quiet allowed

/-! ### The parts of a visit -/

theorem mirror_retraces (apart : Apart disk scan.scratch scan.root top base)
    (quiet : Quiet base disk progress.disk) (way : scan.Reached disk top rel)
    (entered : scan.Entered progress.disk rel.parent) :
    Retraces base (scan.mirror rel) progress := by
  have clear := hasNull_of_join way.anchor (hasNull_of_locate apart.sound way.found)
  have made := mirror_quiet apart quiet way.anchor (directory_of_locate apart.sound way.found)
    entered
  refine ⟨quiet.between made (mirror_tells way.anchor clear entered).1.grows,
    fun final grown allowed => ?_⟩
  have whole : hasNull (scan.root.join rel) = false :=
    hasNull_join (hasNull_of_locate apart.sound apart.root) clear
  -- A directory that was made is there by then, and asking for it again does nothing.
  unfold mirror at grown allowed ⊢
  by_cases root : rel.names = []
  · simp only [root, if_true]
  · rw [if_neg root] at grown allowed
    rw [if_neg root, if_neg root]
    rcases outcome : progress.disk.ensureDirectory (scan.root.join rel) with ⟨next, fault | _⟩
    · -- A directory that is refused leaves the disk as it is, so the call is the very same.
      have taken : ∀ dir name,
          progress.disk.locate .self (scan.root.join rel) ≠ .ok (.absent dir name) := by
        intro dir name free
        rw [ensureDirectory_absent whole free] at outcome
        cases outcome
      have unchanged := ensureDirectory_join_taken way.anchor root whole entered taken
      rw [outcome] at unchanged allowed
      obtain rfl : next = progress.disk := unchanged
      obtain rfl : final = progress.disk := allowed.resolve_left (by simp)
      simp only [Progress.on, outcome]
    · obtain ⟨loc, there⟩ := ensureDirectory_eq_ok (by rw [outcome])
      rw [outcome] at there grown
      have present := ensureDirectory_present whole (locate_directory_grows grown.grows there)
      simp only [Progress.on, present]

theorem visitFiles_on (apart : Apart disk scan.scratch scan.root top base)
    (quiet : Quiet base disk progress.disk) (quietLater : Quiet base disk later)
    (way : scan.Reached disk top rel) (names : List String) :
    scan.visitFiles rel (scan.scratch.join rel) (progress.on later) names =
      ((scan.visitFiles rel (scan.scratch.join rel) progress names).1.on later,
        (scan.visitFiles rel (scan.scratch.join rel) progress names).2) := by
  have inside : top <+: top ++ rel.names := List.prefix_append _ _
  induction names generalizing progress with
  | nil => rfl
  | cons name rest ih =>
      have same : later.isFile ((scan.scratch.join rel).entry name) =
          progress.disk.isFile ((scan.scratch.join rel).entry name) :=
        (isFile_entry_eq apart quietLater inside way.found name).trans
          (isFile_entry_eq apart quiet inside way.found name).symm
      rw [visitFiles, visitFiles]
      simp only [Progress.on] at same ih ⊢
      rw [same]
      split
      · rfl
      · exact ih quiet
      · split
        · rfl
        · exact ih quiet
        · exact @ih (progress.take _ _) quiet

theorem visitFiles_retraces (apart : Apart disk scan.scratch scan.root top base)
    (quiet : Quiet base disk progress.disk) (way : scan.Reached disk top rel)
    (names : List String) :
    Retraces base (scan.visitFiles rel (scan.scratch.join rel) · names) progress := by
  refine ⟨?_, fun final grown _ => ?_⟩
  · rw [visitFiles_disk]
    exact .refl base _
  · rw [visitFiles_disk] at grown
    exact visitFiles_on apart quiet (quiet.trans grown) way names

theorem sorted_names_eq (apart : Apart disk scan.scratch scan.root top base)
    (quiet : Quiet base disk later) {loc : Location} (inside : top <+: loc) :
    Sorting.sorted (later.names loc) = Sorting.sorted (disk.names loc) :=
  Sorting.sorted_eq_of_perm <|
    (List.perm_ext_iff_of_nodup (names_nodup later (quiet.grows.once apart.sound.once) loc)
      (names_nodup disk apart.sound.once loc)).mpr (mem_names_eq apart quiet inside)

/-- A visit of a directory that is found goes on from the names that it had before the walk. -/
theorem visit_of_reached (apart : Apart disk scan.scratch scan.root top base)
    (quiet : Quiet base disk progress.disk) (way : scan.Reached disk top rel) (depth : Nat) :
    scan.visit (depth + 1) rel progress =
      andThen (scan.mirror rel)
        (andThen
          (scan.visitFiles rel (scan.scratch.join rel) ·
            ((Sorting.sorted (disk.names (top ++ rel.names))).filter
              (not ∘ leadsToDirectory disk (top ++ rel.names) (scan.scratch.join rel))))
          (visitAll (scan.visit depth) scan rel ·
            ((Sorting.sorted (disk.names (top ++ rel.names))).filter
              (leadsToDirectory disk (top ++ rel.names) (scan.scratch.join rel))))) progress := by
  have inside : top <+: top ++ rel.names := List.prefix_append _ _
  have listed : progress.disk.list (scan.scratch.join rel) =
      .ok (top ++ rel.names, progress.disk.names (top ++ rel.names)) := by
    rw [Disk.list, locate_directory_grows quiet.grows way.found]
  rw [visit, if_neg (by simp [hasNull_of_locate apart.sound way.found]), listed]
  simp only [List.partition_eq_filter_filter, sorted_names_eq apart quiet inside,
    leadsToDirectory_eq apart quiet inside way.found]
  rfl

/-! ### The whole walk -/

/-- A relative path of the scratch tree that stays what it is while the other tree is written, a
directory at its own names or none at all. -/
structure Steady (scan : Scan) (disk : Disk) (top base : Location) (rel : Path) : Prop where
  anchor : rel.anchor = .here
  same : ∀ later, Quiet base disk later →
    later.locate .target (scan.scratch.join rel) = disk.locate .target (scan.scratch.join rel)
  here : ∀ there, disk.locate .target (scan.scratch.join rel) = .ok (.present there .directory) →
    there = top ++ rel.names

theorem Steady.entry (apart : Apart disk scan.scratch scan.root top base)
    (way : scan.Reached disk top rel) {name : String} (ordinary : Ordinary name)
    (isLink : isLink disk (scan.scratch.join (rel.entry name)) = false) :
    scan.Steady disk top base (rel.entry name) := by
  rw [Path.join_entry _ _ _ way.anchor] at isLink
  refine ⟨way.anchor, fun later quiet => ?_, fun there found => ?_⟩
  · rw [Path.join_entry _ _ _ way.anchor]
    exact apart.locate_entry_eq quiet (List.prefix_append _ _) way.found (by simp) name
  · rw [Path.join_entry _ _ _ way.anchor] at found
    rw [(directory_of_not_isLink way.found ordinary found isLink).2, List.append_assoc]
    rfl

theorem Steady.list_eq_error (steady : scan.Steady disk top base rel)
    (nowhere : ¬ ∃ loc,
      disk.locate .target (scan.scratch.join rel) = .ok (.present loc .directory)) :
    ∃ cause, ∀ later, Quiet base disk later →
      later.list (scan.scratch.join rel) = .error cause := by
  cases spot : disk.locate .target (scan.scratch.join rel) with
  | error cause =>
      exact ⟨cause, fun later quiet => by rw [Disk.list, steady.same later quiet, spot]⟩
  | ok found =>
      cases found with
      | absent dir name =>
          exact ⟨.noEntry, fun later quiet => by rw [Disk.list, steady.same later quiet, spot]⟩
      | present loc entry =>
          refine ⟨.notDirectory, fun later quiet => ?_⟩
          rw [Disk.list, steady.same later quiet, spot]
          cases entry with
          | directory => exact absurd ⟨loc, spot⟩ nowhere
          | _ => rfl

theorem ordinary_of_mem_sorted (sound : Sound disk) {loc : Location} {name : String}
    (member : name ∈ Sorting.sorted (disk.names loc)) : Ordinary name := by
  have listed := (Sorting.sorted_perm _).mem_iff.mp member
  obtain ⟨entry, there⟩ := Option.isSome_iff_exists.mp ((mem_names_iff disk _ name).mp listed)
  exact (sound.parent there).1.1

theorem visitAll_retraces (apart : Apart disk scan.scratch scan.root top base)
    (way : scan.Reached disk top rel) {depth : Nat}
    (each : ∀ name progress, scan.Steady disk top base (rel.entry name) →
      Quiet base disk progress.disk → scan.Entered progress.disk rel →
      Retraces base (scan.visit depth (rel.entry name)) progress)
    {names : List String} (ordinary : ∀ name ∈ names, Ordinary name)
    (quiet : Quiet base disk progress.disk) (entered : scan.Entered progress.disk rel) :
    Retraces base (visitAll (scan.visit depth) scan rel · names) progress := by
  induction names generalizing progress with
  | nil => exact (retraces_still base (.ok ()) progress).congr fun _ _ => rfl
  | cons name rest ih =>
      obtain ⟨good, others⟩ := List.forall_mem_cons.mp ordinary
      have link : ∀ final, Quiet base progress.disk final →
          isLink (progress.on final).disk (scan.scratch.join (rel.entry name)) =
            isLink disk (scan.scratch.join (rel.entry name)) := by
        intro final grown
        rw [Path.join_entry _ _ _ way.anchor]
        exact isLink_entry_eq apart (quiet.trans grown) (List.prefix_append _ _) way.found name
      cases isLink : isLink disk (scan.scratch.join (rel.entry name)) with
      | true =>
          refine (ih others quiet entered).congr fun final grown => ?_
          rw [visitAll, if_pos ((link final grown).trans isLink)]
      | false =>
          have first := each name progress (.entry apart way good isLink) quiet entered
          refine (first.andThen fun _ => ih others (quiet.trans first.quiet)
            (entered.grows first.quiet.grows)).congr fun final grown => ?_
          rw [visitAll, if_neg (by simp [link final grown, isLink])]
          rfl

theorem visit_retraces (apart : Apart disk scan.scratch scan.root top base) (depth : Nat)
    (steady : scan.Steady disk top base rel) (quiet : Quiet base disk progress.disk)
    (entered : scan.Entered progress.disk rel.parent) :
    Retraces base (scan.visit depth rel) progress := by
  induction depth generalizing rel progress with
  | zero => exact (retraces_still base _ progress).congr fun _ _ => rfl
  | succ depth ih =>
      cases null : hasNull (scan.scratch.join rel) with
      | true =>
          refine (retraces_still base (.error (.fault .nullByte)) progress).congr fun _ _ => ?_
          rw [visit, if_pos null]
      | false =>
          by_cases there : ∃ loc,
              disk.locate .target (scan.scratch.join rel) = .ok (.present loc .directory)
          · obtain ⟨loc, found⟩ := there
            have way : scan.Reached disk top rel := ⟨steady.anchor, steady.here loc found ▸ found⟩
            have clear := hasNull_of_join steady.anchor null
            have ready := (mirror_tells steady.anchor clear entered).2
            have first := mirror_retraces apart quiet way entered
            -- The names that are visited are those before the walk, now and later.
            refine (first.andThen fun mirrored => ?_).congr fun final grown =>
              visit_of_reached apart (quiet.trans grown) way depth
            have second := visitFiles_retraces apart (quiet.trans first.quiet) way
              ((Sorting.sorted (disk.names (top ++ rel.names))).filter
                (not ∘ leadsToDirectory disk (top ++ rel.names) (scan.scratch.join rel)))
            refine second.andThen fun _ => visitAll_retraces apart way ?_ ?_
              ((quiet.trans first.quiet).trans second.quiet)
              ((ready mirrored).grows second.quiet.grows)
            · intro name progress steady quiet entered
              exact ih steady quiet (by rwa [Path.parent_entry])
            · exact fun name member =>
                ordinary_of_mem_sorted apart.sound (List.mem_filter.mp member).1
          · obtain ⟨cause, list⟩ := steady.list_eq_error there
            refine (retraces_still base (.error (.reconcile (.unreadableScratch
              (scan.scratch.join rel).text cause))) progress).congr fun final grown => ?_
            have listed := list final (quiet.trans grown)
            rw [visit, if_neg (by simp [null])]
            simp only [Progress.on, listed]

/-- A walk is gone through again on a disk that has only grown in the output tree since. -/
theorem run_retraces (scan : Scan) (apart : Apart disk scan.scratch scan.root top base)
    (registry : Registry) :
    Quiet base disk (scan.run disk registry).1.disk ∧
      ∀ final, Quiet base (scan.run disk registry).1.disk final →
        ((scan.run disk registry).2 = .ok () ∨ final = (scan.run disk registry).1.disk) →
          scan.run final registry =
            ((scan.run disk registry).1.on final, (scan.run disk registry).2) := by
  have scratch : scan.scratch.join ⟨.here, []⟩ = scan.scratch := by simp [Path.join]
  have root : scan.root.join ⟨.here, []⟩ = scan.root := by simp [Path.join]
  have steady : scan.Steady disk top base ⟨.here, []⟩ := by
    refine ⟨rfl, fun later quiet => ?_, fun there found => ?_⟩
    · rw [scratch, apart.scratch, locate_directory_grows quiet.grows apart.scratch]
    · rw [scratch, apart.scratch] at found
      cases found
      simp
  have above : scan.Entered disk (Path.parent ⟨.here, []⟩) :=
    ⟨base, by rw [Path.parent, List.dropLast_nil, root]; exact apart.root⟩
  have retraces : Retraces base (scan.visit (pathLimit + 1) ⟨.here, []⟩) ⟨disk, registry, [], 0⟩ :=
    visit_retraces apart (pathLimit + 1) steady (.refl base disk) above
  exact ⟨retraces.quiet, retraces.again⟩

end Scan
end Emplace

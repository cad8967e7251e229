import Emplace.Proofs.Disk.Apart
import Emplace.Proofs.Scan.Eligible
import Emplace.Proofs.Scan.Mirroring

/-!
What a walk does that comes to its end, where the scratch tree and the output tree lie apart. What
is made in the output tree is not seen from the scratch tree, so every directory shows the files
that it had before the walk: each eligible file is taken once, nothing else is, and nothing outside
the output root changes.
-/
namespace Emplace.Scan

open Disk

variable {scan : Scan} {disk later : Disk} {top base loc : Location} {rel dir : Path}

/-! ### The scratch tree during the walk -/

theorem isLink_entry_eq (apart : Apart disk scan.scratch scan.root top base)
    (quiet : Quiet base disk later) (inside : top <+: loc)
    (entered : disk.locate .target dir = .ok (.present loc .directory)) (name : String) :
    isLink later (dir.entry name) = isLink disk (dir.entry name) := by
  unfold isLink
  rw [apart.locate_entry_eq quiet inside entered (by simp) name]

theorem isFile_entry_eq (apart : Apart disk scan.scratch scan.root top base)
    (quiet : Quiet base disk later) (inside : top <+: loc)
    (entered : disk.locate .target dir = .ok (.present loc .directory)) (name : String) :
    later.isFile (dir.entry name) = disk.isFile (dir.entry name) := by
  unfold isFile holds
  rw [apart.status_entry_eq quiet inside entered name]

theorem takes_eq (apart : Apart disk scan.scratch scan.root top base)
    (quiet : Quiet base disk later) (inside : top <+: loc)
    (entered : disk.locate .target dir = .ok (.present loc .directory)) :
    scan.takes later dir = scan.takes disk dir := by
  funext name
  unfold takes
  rw [isFile_entry_eq apart quiet inside entered name]

theorem leadsToDirectory_eq (apart : Apart disk scan.scratch scan.root top base)
    (quiet : Quiet base disk later) (inside : top <+: loc)
    (entered : disk.locate .target dir = .ok (.present loc .directory)) :
    leadsToDirectory later loc dir = leadsToDirectory disk loc dir := by
  funext name
  unfold leadsToDirectory
  rw [apart.get?_eq quiet (inside.trans (List.prefix_append _ _)),
    apart.status_entry_eq quiet inside entered name]

theorem mem_names_eq (apart : Apart disk scan.scratch scan.root top base)
    (quiet : Quiet base disk later) (inside : top <+: loc) (name : String) :
    name ∈ later.names loc ↔ name ∈ disk.names loc := by
  rw [mem_names_iff, mem_names_iff, apart.get?_eq quiet (inside.trans (List.prefix_append _ _))]

/-- A directory that is asked for below the output root is made there or nowhere. -/
theorem mirrored_quiet (apart : Apart disk scan.scratch scan.root top base)
    (quiet : Quiet base disk later) (anchor : rel.anchor = .here) (below : rel.names ≠ [])
    (real : disk.get? (top ++ rel.names) = some .directory)
    (entered : scan.Entered later rel.parent) : Quiet base disk (scan.mirrored later rel) := by
  have good : ∀ name ∈ rel.names, Nameable name := fun name member =>
    apart.sound.nameable real name (List.mem_append_right _ member)
  have clear : hasNull (scan.root.join rel) = false := by
    rw [hasNull_join_of_here anchor, hasNull_of_locate apart.sound apart.root, Bool.false_or]
    exact hasNull_eq_false fun name member => (good name member).2.2
  have root := quiet.grows.directory (directory_of_locate apart.sound apart.root)
  have off := (mirrored_inside_iff root anchor below clear entered).mpr <| by
    intro parent name free
    rw [Path.eq_here anchor] at free
    have place := apart.place_below quiet.grows (fun name member => (good name member).1) below free
    have inside : base <+: parent ++ [name] := by
      have shown : parent ++ [name] = base ++ rel.names := place
      rw [shown]
      exact List.prefix_append _ _
    rcases List.prefix_concat_iff.mp inside with same | shorter
    · rw [same, (locate_absent free).2] at root
      cases root
    · exact shorter
  exact quiet.trans ⟨scan.mirrored_grows later rel, off⟩

/-! ### The walk -/

/-- What a part of the walk that comes to its end leaves behind. -/
structure Completes (scan : Scan) (disk : Disk) (top base : Location)
    (region : List String → Prop) (steps : List Step) (after : Progress) : Prop where
  quiet : Quiet base disk after.disk
  gathers : scan.Gathers disk top region (files steps)

theorem Completes.congr {region other : List String → Prop} {steps : List Step} {after : Progress}
    (completes : scan.Completes disk top base region steps after)
    (same : ∀ names bytes, scan.Eligible disk top names bytes → (region names ↔ other names)) :
    scan.Completes disk top base other steps after :=
  ⟨completes.quiet, completes.gathers.congr same⟩

/-- A directory that is visited to the end and is no link is one of the scratch tree. -/
theorem Reached.visited (apart : Apart disk scan.scratch scan.root top base)
    (way : scan.Reached disk top rel) {name : String} (ordinary : Ordinary name)
    (real : isLink disk (scan.scratch.join (rel.entry name)) = false) {depth : Nat}
    {progress : Progress} (quiet : Quiet base disk progress.disk)
    (done : (scan.visit depth (rel.entry name) progress).2 = .ok ()) :
    scan.Reached disk top (rel.entry name) := by
  obtain ⟨place, found⟩ := located_of_visit done
  rw [Path.join_entry _ _ _ way.anchor,
    apart.locate_entry_eq quiet (List.prefix_append _ _) way.found (by simp) name,
    ← Path.join_entry _ _ _ way.anchor] at found
  exact (way.entry ordinary found real).1

theorem visitAll_completes (apart : Apart disk scan.scratch scan.root top base) {depth : Nat}
    (way : scan.Reached disk top rel)
    (each : ∀ name progress, scan.Reached disk top (rel.entry name) →
      Quiet base disk progress.disk → scan.Entered progress.disk rel →
      (scan.visit depth (rel.entry name) progress).2 = .ok () →
      scan.Completes disk top base ((rel.entry name).names <+: ·)
        (scan.steps depth (rel.entry name) progress) (scan.visit depth (rel.entry name) progress).1)
    {names : List String} (once : names.Nodup)
    (listed : ∀ name ∈ names, name ∈ disk.names (top ++ rel.names))
    (leads : ∀ name ∈ names,
      leadsToDirectory disk (top ++ rel.names) (scan.scratch.join rel) name = true)
    {progress : Progress} (quiet : Quiet base disk progress.disk)
    (entered : scan.Entered progress.disk rel)
    (done : (visitAll (scan.visit depth) scan rel progress names).2 = .ok ()) :
    scan.Completes disk top base (fun path => ∃ name ∈ names, rel.names ++ [name] <+: path)
      (allSteps (scan.steps depth) (scan.visit depth) scan rel progress names)
      (visitAll (scan.visit depth) scan rel progress names).1 := by
  induction names generalizing progress with
  | nil => exact ⟨quiet, ⟨fun path => by simp [allSteps, files], List.nodup_nil⟩⟩
  | cons name rest ih =>
      obtain ⟨fresh, restOnce⟩ := List.nodup_cons.mp once
      obtain ⟨entry, there⟩ := Option.isSome_iff_exists.mp
        ((mem_names_iff disk _ name).mp (listed name List.mem_cons_self))
      have ordinary : Ordinary name := (apart.sound.parent there).1.1
      have later := @ih restOnce
        (fun other member => listed other (List.mem_cons_of_mem _ member))
        (fun other member => leads other (List.mem_cons_of_mem _ member))
      have unmoved := isLink_entry_eq apart quiet (List.prefix_append _ _) way.found name
      rw [← Path.join_entry _ _ _ way.anchor] at unmoved
      obtain ⟨link, same, steps⟩ | ⟨real, middle, visited, same, steps⟩ := visitAll_cons_eq_ok done
      · rw [same] at done
        rw [same, steps]
        -- The link is passed, and nothing eligible lies behind it.
        apply (later quiet entered done).congr
        intro names bytes eligible
        rw [unmoved, Path.join_entry _ _ _ way.anchor] at link
        obtain ⟨target, isThere⟩ := link_of_isLink way.found ordinary link
        have none := eligible.not_behind_link apart.sound way (leads name List.mem_cons_self) isThere
        simp [none]
      · rw [same] at done
        rw [same, steps]
        have ended : (scan.visit depth (rel.entry name) progress).2 = .ok () := by rw [visited]
        -- What was made since does not show in the scratch tree, so the directory is one of it.
        have below := way.visited apart ordinary (unmoved ▸ real) quiet ended
        have now := each name progress below quiet entered ended
        have tells := visit_tells scan depth (rel.entry name) progress way.anchor
          (by rwa [Path.parent_entry])
        rw [visited] at now tells
        have onward := later now.quiet (entered.grows tells.grows) done
        refine ⟨onward.quiet, ?_⟩
        rw [files_append]
        exact (now.gathers.append onward.gathers (entry_apart fresh)).congr
          fun names _ _ => by simp [Path.entry]

theorem mirror_quiet (apart : Apart disk scan.scratch scan.root top base) {progress : Progress}
    (quiet : Quiet base disk progress.disk) (anchor : rel.anchor = .here)
    (real : disk.get? (top ++ rel.names) = some .directory)
    (entered : scan.Entered progress.disk rel.parent) :
    Quiet base disk (scan.mirror rel progress).1.disk := by
  by_cases below : rel.names = []
  · simpa [mirror, below] using quiet
  · have made : (scan.mirror rel progress).1.disk = scan.mirrored progress.disk rel := by
      unfold mirror mirrored
      rw [if_neg below]
      rcases progress.disk.ensureDirectory (scan.root.join rel) with ⟨part, result⟩
      cases result <;> rfl
    rw [made]
    exact mirrored_quiet apart quiet anchor below real entered

/-- The files that are taken in one directory. -/
theorem fileSteps_gathers (apart : Apart disk scan.scratch scan.root top base)
    {progress : Progress} (quiet : Quiet base disk progress.disk)
    (way : scan.Reached disk top rel)
    {names : List String} (once : names.Nodup)
    (listed : ∀ name ∈ names, name ∈ disk.names (top ++ rel.names))
    (done : (scan.visitFiles rel (scan.scratch.join rel) progress names).2 = .ok ()) :
    scan.Gathers disk top (fun path => ∃ name ∈ names, path = rel.names ++ [name])
      (files (scan.fileSteps rel (scan.scratch.join rel) progress.disk names)) := by
  have clear := hasNull_of_locate apart.sound apart.scratch
  rw [fileSteps_of_ok done, takes_eq apart quiet (List.prefix_append _ _) way.found]
  refine ⟨fun path => ?_, ?_⟩
  · simp only [List.mem_map, List.mem_filter]
    constructor
    · rintro ⟨name, ⟨member, taken⟩, rfl⟩
      exact ⟨way.anchor, ⟨name, member, rfl⟩,
        (takes_iff apart.sound clear way.anchor (listed name member)).mp taken⟩
    · rintro ⟨here, ⟨name, member, same⟩, eligible⟩
      rw [same] at eligible
      have taken := (takes_iff apart.sound clear way.anchor (listed name member)).mpr eligible
      refine ⟨name, ⟨member, taken⟩, ?_⟩
      obtain ⟨kind, names⟩ := path
      simp only at here same
      rw [here, same, Path.entry, way.anchor]
  · refine (once.filter _).map ?_
    intro a b same
    simpa [Path.entry] using same

/-- The eligible files below a directory are those in it and those below its directories. -/
theorem Eligible.region_iff (sound : Sound disk) {path : List String} {bytes : ByteArray}
    (eligible : scan.Eligible disk top path bytes) (way : scan.Reached disk top rel)
    {listed : List String} (names : ∀ name, name ∈ listed ↔ name ∈ disk.names (top ++ rel.names)) :
    ((∃ name ∈ listed.filter
          (not ∘ leadsToDirectory disk (top ++ rel.names) (scan.scratch.join rel)),
        path = rel.names ++ [name]) ∨
      ∃ name ∈ listed.filter (leadsToDirectory disk (top ++ rel.names) (scan.scratch.join rel)),
        rel.names ++ [name] <+: path) ↔ rel.names <+: path := by
  constructor
  · rintro (⟨name, _, rfl⟩ | ⟨name, _, below⟩)
    · exact List.prefix_append _ _
    · exact (List.prefix_append _ _).trans below
  · intro below
    obtain ⟨name, member, ⟨same, plain⟩ | ⟨further, directory⟩⟩ :=
      eligible.split sound way below
    · exact Or.inl ⟨name, List.mem_filter.mpr ⟨(names name).mpr member, by simp [plain]⟩, same⟩
    · have leads := (leadsToDirectory_iff disk _ (scan.scratch.join rel) name).mpr (.inl directory)
      exact Or.inr ⟨name, List.mem_filter.mpr ⟨(names name).mpr member, leads⟩, further⟩

theorem visit_completes (apart : Apart disk scan.scratch scan.root top base) (depth : Nat)
    {rel : Path} {progress : Progress} (way : scan.Reached disk top rel)
    (quiet : Quiet base disk progress.disk) (entered : scan.Entered progress.disk rel.parent)
    (done : (scan.visit depth rel progress).2 = .ok ()) :
    scan.Completes disk top base (rel.names <+: ·) (scan.steps depth rel progress)
      (scan.visit depth rel progress).1 := by
  induction depth generalizing rel progress with
  | zero => cases done
  | succ depth ih =>
      have inside : top <+: top ++ rel.names := List.prefix_append _ _
      have real := directory_of_locate apart.sound way.found
      have clear := hasNull_of_join way.anchor (hasNull_of_locate apart.sound way.found)
      obtain ⟨_, loc, names, mirrored, fed, same, listed, made, taken, visited, stepped⟩ :=
        visit_eq_ok done
      cases same
      -- The directory shows the names that it had before the walk.
      rw [Disk.list, locate_directory_grows quiet.grows way.found] at listed
      cases listed
      rw [visited] at done
      rw [visited, stepped]
      rw [leadsToDirectory_eq apart quiet inside way.found] at taken done ⊢
      have shown : ∀ name, name ∈ Sorting.sorted (progress.disk.names (top ++ rel.names)) ↔
          name ∈ disk.names (top ++ rel.names) := fun name =>
        (Sorting.sorted_perm _).mem_iff.trans (mem_names_eq apart quiet inside name)
      have once := sorted_names_nodup (quiet.grows.once apart.sound.once) (top ++ rel.names)
      generalize Sorting.sorted (progress.disk.names (top ++ rel.names)) = sorted at *
      have mirrorQuiet := mirror_quiet apart quiet way.anchor real entered
      have ready := (mirror_tells way.anchor clear entered).2
      rw [made] at mirrorQuiet ready
      have fedDisk := visitFiles_disk scan rel (scan.scratch.join rel) mirrored
        (sorted.filter
          (not ∘ leadsToDirectory disk (top ++ rel.names) (scan.scratch.join rel)))
      rw [taken] at fedDisk
      have here := fileSteps_gathers apart mirrorQuiet way
        (once.filter (not ∘ leadsToDirectory disk (top ++ rel.names) (scan.scratch.join rel)))
        (fun name member => (shown name).mp (List.mem_filter.mp member).1) (by rw [taken])
      have rest := visitAll_completes apart way
        (fun name progress way quiet entered done => ih way quiet
          (by rwa [Path.parent_entry]) done)
        (once.filter (leadsToDirectory disk (top ++ rel.names) (scan.scratch.join rel)))
        (fun name member => (shown name).mp (List.mem_filter.mp member).1)
        (fun name member => (List.mem_filter.mp member).2)
        (fedDisk ▸ mirrorQuiet) (fedDisk ▸ ready rfl) done
      refine ⟨rest.quiet, ?_⟩
      rw [files_append, files_append, files_mirrorSteps, List.nil_append]
      refine (here.append rest.gathers ?_).congr ?_
      · -- No file of the directory lies below one of its directories.
        rintro path ⟨name, plain, rfl⟩ ⟨other, leads, further⟩
        rw [← entry_unique (List.prefix_refl _) further] at leads
        have no := (List.mem_filter.mp plain).2
        have yes := (List.mem_filter.mp leads).2
        simp [yes] at no
      · intro path bytes eligible
        exact eligible.region_iff apart.sound way shown

/-- A walk that comes to its end takes every eligible file once and nothing else, and only adds to
the tree at the output root. -/
theorem run_completes (scan : Scan) (apart : Apart disk scan.scratch scan.root top base)
    {registry : Registry} (done : (scan.run disk registry).2 = .ok ()) :
    scan.Completes disk top base (fun _ => True) (scan.runSteps disk registry)
      (scan.run disk registry).1 := by
  have scratch : scan.scratch.join ⟨.here, []⟩ = scan.scratch := by simp [Path.join]
  have root : scan.root.join ⟨.here, []⟩ = scan.root := by simp [Path.join]
  have way : scan.Reached disk top ⟨.here, []⟩ := by
    refine ⟨rfl, ?_⟩
    rw [scratch, List.append_nil]
    exact apart.scratch
  have above : scan.Entered disk (Path.parent ⟨.here, []⟩) :=
    ⟨base, by rw [Path.parent, List.dropLast_nil, root]; exact apart.root⟩
  have completes := visit_completes apart _ way (.refl base disk) above done
  exact completes.congr fun names _ _ => by simp

end Emplace.Scan

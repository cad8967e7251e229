import Emplace.Proofs.Disk.Apart
import Emplace.Proofs.Scan.Walking
import Emplace.Proofs.Sorting

/-!
The files that a walk is to take into account, by what the system finds at their paths before it
starts, and how a single directory of the scratch tree shows them.
-/
namespace Emplace

open Disk

theorem Disk.isFile_eq_ok_true_iff (disk : Disk) (path : Path) :
    disk.isFile path = .ok true ↔
      hasNull path = false ∧
        ∃ bytes executable, disk.status path = .ok (.file bytes executable) := by
  unfold isFile holds
  cases hasNull path with
  | true => simp
  | false =>
      cases disk.status path with
      | error cause => cases cause <;> simp [meansAbsent]
      | ok entry => cases entry <;> simp

namespace Scan

/-- A file that is to be taken into account, by its names below the scratch root, and its bytes. It
stands in the tree itself, so that no link lies above it. -/
structure Eligible (scan : Scan) (disk : Disk) (top : Location) (names : List String)
    (bytes : ByteArray) : Prop where
  below : names ≠ []
  inTree : (disk.get? (top ++ names)).isSome
  file : ∃ executable, disk.status (scan.scratch.join ⟨.here, names⟩) = .ok (.file bytes executable)
  ending : hasEnding (names.getLastD "") scan.endings = .ok true

/-- All files that are eligible and lie in a region of the tree, each of them once. -/
structure Gathers (scan : Scan) (disk : Disk) (top : Location) (region : List String → Prop)
    (files : List Path) : Prop where
  members : ∀ path, path ∈ files ↔
    path.anchor = .here ∧ region path.names ∧ ∃ bytes, scan.Eligible disk top path.names bytes
  once : files.Nodup

variable {scan : Scan} {disk : Disk} {top base : Location} {rel : Path}

theorem Gathers.append {region other : List String → Prop} {files more : List Path}
    (first : scan.Gathers disk top region files) (second : scan.Gathers disk top other more)
    (apart : ∀ names, region names → ¬ other names) :
    scan.Gathers disk top (fun names => region names ∨ other names) (files ++ more) := by
  refine ⟨fun path => ?_, ?_⟩
  · rw [List.mem_append, first.members, second.members]
    constructor
    · rintro (⟨anchor, inside, eligible⟩ | ⟨anchor, inside, eligible⟩)
      · exact ⟨anchor, Or.inl inside, eligible⟩
      · exact ⟨anchor, Or.inr inside, eligible⟩
    · rintro ⟨anchor, inside | inside, eligible⟩
      · exact Or.inl ⟨anchor, inside, eligible⟩
      · exact Or.inr ⟨anchor, inside, eligible⟩
  · rw [List.nodup_append]
    refine ⟨first.once, second.once, ?_⟩
    rintro path early _ late rfl
    exact apart path.names ((first.members path).mp early).2.1 ((second.members path).mp late).2.1

/-- Only the eligible files of a region matter. -/
theorem Gathers.congr {region other : List String → Prop} {files : List Path}
    (gathers : scan.Gathers disk top region files)
    (same : ∀ names bytes, scan.Eligible disk top names bytes → (region names ↔ other names)) :
    scan.Gathers disk top other files := by
  refine ⟨fun path => ?_, gathers.once⟩
  rw [gathers.members]
  constructor
  · rintro ⟨anchor, inside, bytes, eligible⟩
    exact ⟨anchor, (same _ bytes eligible).mp inside, bytes, eligible⟩
  · rintro ⟨anchor, inside, bytes, eligible⟩
    exact ⟨anchor, (same _ bytes eligible).mpr inside, bytes, eligible⟩

/-! ### The files of one directory -/

/-- Whether the entry `name` of the directory `dir` is taken into account. -/
def takes (scan : Scan) (disk : Disk) (dir : Path) (name : String) : Bool :=
  match hasEnding name scan.endings, disk.isFile (dir.entry name) with
  | .ok true, .ok true => true
  | _, _ => false

theorem fileSteps_of_ok {dir : Path} {progress : Progress} {names : List String}
    (done : (scan.visitFiles rel dir progress names).2 = .ok ()) :
    files (scan.fileSteps rel dir progress.disk names) =
      (names.filter (scan.takes progress.disk dir)).map rel.entry := by
  induction names generalizing progress with
  | nil => rfl
  | cons name rest ih =>
      rw [visitFiles] at done
      rw [fileSteps]
      cases ends : hasEnding name scan.endings with
      | error fault =>
          rw [ends] at done
          cases done
      | ok answer =>
          rw [ends] at done
          cases answer with
          | false =>
              rw [List.filter_cons_of_neg (by simp [takes, ends])]
              exact ih done
          | true =>
              dsimp only at done ⊢
              cases there : progress.disk.isFile (dir.entry name) with
              | error fault =>
                  rw [there] at done
                  cases done
              | ok answer =>
                  rw [there] at done
                  cases answer with
                  | false =>
                      rw [List.filter_cons_of_neg (by simp [takes, ends, there])]
                      exact ih done
                  | true =>
                      rw [List.filter_cons_of_pos (by simp [takes, ends, there])]
                      have later := @ih (progress.take (rel.entry name) _) done
                      exact congrArg (rel.entry name :: ·) later

/-! ### The entries of a directory of the scratch tree -/

theorem mem_sorted_names_iff (disk : Disk) (dir : Location) (name : String) :
    name ∈ Sorting.sorted (disk.names dir) ↔ (disk.get? (dir ++ [name])).isSome :=
  (Sorting.sorted_perm _).mem_iff.trans (mem_names_iff disk dir name)

theorem sorted_names_nodup (once : (disk.entries.map (·.1)).Nodup) (dir : Location) :
    (Sorting.sorted (disk.names dir)).Nodup :=
  (Sorting.sorted_perm _).nodup_iff.mpr (names_nodup disk once dir)

section Entries

variable {later : Disk} {dir : Path} {loc : Location} {name : String}

/-- What the system finds at an entry under an ordinary name, by what stands there. -/
theorem locate_named (entered : disk.locate .target dir = .ok (.present loc .directory))
    (ordinary : Ordinary name) :
    ∃ left, left ≤ linkLimit ∧ ∀ aim, aim ≠ .writing → disk.locate aim (dir.entry name) =
      if pathLimit < (dir.entry name).text.utf8ByteSize then .error .nameTooLong
      else if nameLimit < name.utf8ByteSize then .error .nameTooLong
      else match disk.get? (loc ++ [name]) with
        | none => .ok (.absent loc name)
        | some (.link target) =>
          if aim = .self then .ok (.present (loc ++ [name]) (.link target))
          else match left with
            | 0 => .error .tooManyLinks
            | left + 1 =>
              disk.chase aim left (startOf loc (Path.raw target)) (Path.raw target).names
        | some entry => .ok (.present (loc ++ [name]) entry) := by
  obtain ⟨left, few, entries⟩ := locate_entry entered
  refine ⟨left, few, fun aim reading => ?_⟩
  rw [entries disk (.refl disk) aim name (fun writing => absurd writing reading)]
  by_cases long : pathLimit < (dir.entry name).text.utf8ByteSize
  · rw [if_pos long, if_pos long]
  · rw [if_neg long, if_neg long, chase_ordinary ordinary, if_neg (by simp) (c := _ ∧ _)]
    by_cases wide : nameLimit < name.utf8ByteSize
    · rw [if_pos wide, if_pos wide]
    · rw [if_neg wide, if_neg wide]
      cases disk.get? (loc ++ [name]) with
      | none => simp
      | some entry =>
          cases entry with
          | directory => simp only [chase_nil]
          | file bytes executable => simp
          | pipe => simp
          | link target => cases left <;> simp

theorem link_of_isLink (entered : disk.locate .target dir = .ok (.present loc .directory))
    (ordinary : Ordinary name) (isLink : isLink disk (dir.entry name) = true) :
    ∃ target, disk.get? (loc ++ [name]) = some (.link target) := by
  obtain ⟨left, _, found⟩ := locate_named entered ordinary
  unfold Scan.isLink at isLink
  rw [found .self (by simp)] at isLink
  split at isLink
  · rename_i there target same
    split at same
    · cases same
    · split at same
      · cases same
      · cases here : disk.get? (loc ++ [name]) with
        | none => simp [here] at same
        | some entry => cases entry <;> simp_all
  · cases isLink

/-- An entry that is not a link and leads to a directory is one. -/
theorem directory_of_not_isLink
    (entered : disk.locate .target dir = .ok (.present loc .directory)) (ordinary : Ordinary name)
    {there : Location}
    (found : disk.locate .target (dir.entry name) = .ok (.present there .directory))
    (isLink : isLink disk (dir.entry name) = false) :
    disk.get? (loc ++ [name]) = some .directory ∧ there = loc ++ [name] := by
  obtain ⟨left, _, answer⟩ := locate_named entered ordinary
  have self := answer .self (by simp)
  rw [answer .target (by simp)] at found
  split at found
  · cases found
  · rename_i short
    split at found
    · cases found
    · rename_i narrow
      rw [if_neg short, if_neg narrow] at self
      cases here : disk.get? (loc ++ [name]) with
      | none => simp [here] at found
      | some entry =>
          cases entry with
          | directory =>
              rw [here] at found
              cases found
              exact ⟨rfl, rfl⟩
          | file bytes executable => simp [here] at found
          | pipe => simp [here] at found
          | link target =>
              rw [here] at self
              simp [Scan.isLink, self] at isLink

theorem leadsToDirectory_iff (disk : Disk) (loc : Location) (dir : Path) (name : String) :
    leadsToDirectory disk loc dir name = true ↔
      disk.get? (loc ++ [name]) = some .directory ∨
        (∃ target, disk.get? (loc ++ [name]) = some (.link target)) ∧
          disk.status (dir.entry name) = .ok .directory := by
  unfold leadsToDirectory
  cases disk.get? (loc ++ [name]) with
  | none => simp
  | some entry =>
      cases entry with
      | directory => simp
      | file => simp
      | pipe => simp
      | link target =>
          cases disk.status (dir.entry name) with
          | error cause => simp
          | ok found => cases found <;> simp

/-- An entry that leads to a directory is not read as a file. -/
theorem status_ne_file_of_leadsToDirectory
    (entered : disk.locate .target dir = .ok (.present loc .directory)) (ordinary : Ordinary name)
    (leads : leadsToDirectory disk loc dir name = true) (bytes : ByteArray) (executable : Bool) :
    disk.status (dir.entry name) ≠ .ok (.file bytes executable) := by
  intro file
  rcases (leadsToDirectory_iff disk loc dir name).mp leads with here | ⟨_, directory⟩
  · obtain ⟨there, found⟩ := locate_of_status file
    obtain ⟨left, _, answer⟩ := locate_named entered ordinary
    rw [answer .target (by simp), here] at found
    split at found
    · cases found
    · split at found <;> cases found
  · rw [directory] at file
    cases file

end Entries

/-! ### Eligible files below a directory -/

theorem join_names (base : Path) (anchor : rel.anchor = .here) (name : String) :
    base.join ⟨.here, rel.names ++ [name]⟩ = (base.join rel).entry name := by
  rw [← Path.join_entry base rel name anchor]
  simp [Path.join, Path.entry, anchor]

/-- A directory of the scratch tree that is found where its relative path says. -/
structure Reached (scan : Scan) (disk : Disk) (top : Location) (rel : Path) : Prop where
  anchor : rel.anchor = .here
  found : disk.locate .target (scan.scratch.join rel) =
    .ok (.present (top ++ rel.names) .directory)

/-- What the system takes for a directory and not for a link is one, found at its own names. -/
theorem Reached.entry (way : scan.Reached disk top rel) {name : String} (ordinary : Ordinary name)
    {there : Location}
    (found : disk.locate .target (scan.scratch.join (rel.entry name)) =
      .ok (.present there .directory))
    (isLink : isLink disk (scan.scratch.join (rel.entry name)) = false) :
    scan.Reached disk top (rel.entry name) ∧
      disk.get? (top ++ (rel.entry name).names) = some .directory := by
  have whole : top ++ (rel.entry name).names = top ++ rel.names ++ [name] :=
    (List.append_assoc _ _ _).symm
  rw [Path.join_entry _ _ _ way.anchor] at found isLink
  obtain ⟨real, rfl⟩ := directory_of_not_isLink way.found ordinary found isLink
  refine ⟨⟨way.anchor, ?_⟩, ?_⟩
  · rw [Path.join_entry _ _ _ way.anchor, whole]
    exact found
  · rw [whole]
    exact real

/-- An eligible file below a directory lies in it or below one of its directories. -/
theorem Eligible.split (sound : Sound disk) {names : List String} {bytes : ByteArray}
    (eligible : scan.Eligible disk top names bytes) (way : scan.Reached disk top rel)
    (below : rel.names <+: names) :
    ∃ name, name ∈ disk.names (top ++ rel.names) ∧
      (names = rel.names ++ [name] ∧
          leadsToDirectory disk (top ++ rel.names) (scan.scratch.join rel) name = false ∨
        rel.names ++ [name] <+: names ∧
          disk.get? (top ++ rel.names ++ [name]) = some .directory) := by
  obtain ⟨more, rfl⟩ := below
  obtain ⟨executable, file⟩ := eligible.file
  obtain ⟨entry, there⟩ := Option.isSome_iff_exists.mp eligible.inTree
  cases more with
  | nil =>
      have here : scan.scratch.join ⟨.here, rel.names ++ []⟩ = scan.scratch.join rel := by
        simp [Path.join, way.anchor]
      rw [here, status, way.found] at file
      cases file
  | cons name rest =>
      rw [← List.append_assoc, ← List.singleton_append, ← List.append_assoc] at there
      cases rest with
      | nil =>
          rw [List.append_nil] at there
          refine ⟨name, (mem_names_iff disk _ name).mpr (by rw [there]; rfl), Or.inl ⟨rfl, ?_⟩⟩
          rw [join_names _ way.anchor] at file
          by_contra leads
          exact status_ne_file_of_leadsToDirectory way.found (sound.parent there).1.1
            ((Bool.not_eq_false _).mp leads) bytes executable file
      | cons next others =>
          have directory := sound.above (next :: others) there (by simp)
          refine ⟨name, (mem_names_iff disk _ name).mpr (by rw [directory]; rfl), Or.inr ?_⟩
          exact ⟨⟨next :: others, by simp⟩, directory⟩

theorem entry_unique {front names : List String} {a b : String} (first : front ++ [a] <+: names)
    (second : front ++ [b] <+: names) : a = b := by
  have same := (List.prefix_of_prefix_length_le first second (by simp)).eq_of_length (by simp)
  simpa using same

/-- What lies below one name does not lie below the other ones. -/
theorem entry_apart {name : String} {rest : List String} (fresh : name ∉ rest) (names : List String)
    (below : (rel.entry name).names <+: names) :
    ¬ ∃ other ∈ rest, rel.names ++ [other] <+: names := by
  rintro ⟨other, member, further⟩
  rw [entry_unique below further] at fresh
  exact fresh member

/-- Nothing eligible lies behind a link to a directory. -/
theorem Eligible.not_behind_link (sound : Sound disk) {names : List String} {bytes : ByteArray}
    (eligible : scan.Eligible disk top names bytes) (way : scan.Reached disk top rel)
    {name target : String}
    (leads : leadsToDirectory disk (top ++ rel.names) (scan.scratch.join rel) name = true)
    (link : disk.get? (top ++ rel.names ++ [name]) = some (.link target)) :
    ¬ rel.names ++ [name] <+: names := by
  intro below
  obtain ⟨other, _, ⟨rfl, no⟩ | ⟨further, directory⟩⟩ :=
    eligible.split sound way ((List.prefix_append _ _).trans below)
  · rw [← entry_unique below (List.prefix_refl _), leads] at no
    cases no
  · rw [← entry_unique below further, link] at directory
    cases directory

theorem eligible_of_takes (anchor : rel.anchor = .here) {name : String}
    (inTree : (disk.get? (top ++ rel.names ++ [name])).isSome)
    (taken : scan.takes disk (scan.scratch.join rel) name = true) :
    ∃ bytes, scan.Eligible disk top (rel.names ++ [name]) bytes := by
  unfold takes at taken
  split at taken
  · rename_i ends isFile
    obtain ⟨_, bytes, executable, file⟩ := (isFile_eq_ok_true_iff disk _).mp isFile
    refine ⟨bytes, by simp, by rwa [← List.append_assoc], ⟨executable, ?_⟩, by simpa using ends⟩
    rwa [join_names _ anchor]
  · cases taken

theorem Eligible.takes (anchor : rel.anchor = .here) {name : String} {bytes : ByteArray}
    (eligible : scan.Eligible disk top (rel.names ++ [name]) bytes)
    (clear : hasNull ((scan.scratch.join rel).entry name) = false) :
    scan.takes disk (scan.scratch.join rel) name = true := by
  obtain ⟨executable, file⟩ := eligible.file
  rw [join_names _ anchor] at file
  have isFile := (isFile_eq_ok_true_iff disk _).mpr ⟨clear, bytes, executable, file⟩
  have ends : hasEnding name scan.endings = .ok true := by simpa using eligible.ending
  simp [Scan.takes, ends, isFile]

/-- No name of an entry of a sound disk, nor a path to it, holds a null character. -/
theorem hasNull_entry_of_isSome (sound : Sound disk) (clear : hasNull scan.scratch = false)
    (anchor : rel.anchor = .here) {name : String}
    (inTree : (disk.get? (top ++ rel.names ++ [name])).isSome) :
    hasNull ((scan.scratch.join rel).entry name) = false := by
  obtain ⟨entry, there⟩ := Option.isSome_iff_exists.mp inTree
  have names : hasNull ⟨.here, rel.names ++ [name]⟩ = false := by
    apply hasNull_eq_false
    intro other member
    have inside : other ∈ top ++ rel.names ++ [name] := by
      rw [List.append_assoc]
      exact List.mem_append_right _ member
    exact (sound.nameable there other inside).2.2
  rw [← join_names _ anchor, hasNull_join_of_here rfl, clear, names]
  rfl

/-- Which entries of a directory are taken says which of them are eligible. -/
theorem takes_iff (sound : Sound disk) (clear : hasNull scan.scratch = false)
    (anchor : rel.anchor = .here) {name : String} (listed : name ∈ disk.names (top ++ rel.names)) :
    scan.takes disk (scan.scratch.join rel) name = true ↔
      ∃ bytes, scan.Eligible disk top (rel.names ++ [name]) bytes := by
  have inTree := (mem_names_iff disk _ name).mp listed
  refine ⟨eligible_of_takes anchor inTree, ?_⟩
  rintro ⟨bytes, eligible⟩
  exact eligible.takes anchor (hasNull_entry_of_isSome sound clear anchor inTree)

end Scan
end Emplace

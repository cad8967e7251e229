import Emplace.Proofs.Scan.Abreast
import Emplace.Proofs.Scan.Entering
import Emplace.Proofs.Scan.Mirroring

/-!
A walk that returns enters every directory of the scratch tree once and takes each file that is
eligible then, whatever the links of the tree lead to; and no walk depends on the order in which
directories list their names.
-/
namespace Emplace.Scan

open Disk

variable {scan : Scan} {disk later : Disk} {top loc : Location} {rel dir : Path}

/-! ### One directory -/

theorem leadsToDirectory_grows (growth : Grows disk later) {name : String}
    (leads : leadsToDirectory disk loc dir name = true) :
    leadsToDirectory later loc dir name = true := by
  rw [leadsToDirectory_iff] at leads ⊢
  rcases leads with directory | ⟨⟨target, link⟩, led⟩
  · exact Or.inl (growth.directory directory)
  · exact Or.inr ⟨⟨target, (growth.link_iff _ _).mpr link⟩, status_directory_grows growth led⟩

theorem Eligible.eq_snoc {names front : List String} {bytes : ByteArray}
    (eligible : scan.Eligible disk top names bytes) (parent : names.dropLast = front) :
    ∃ name, names = front ++ [name] :=
  ⟨_, by rw [← parent, List.dropLast_append_getLast eligible.below]⟩

/-- What is eligible in a directory by then is a file or a link that was there from the beginning, and
is not listed as a directory. -/
theorem Eligible.plain (raised : Raised disk later) (named : Named later)
    (way : scan.Reached later top rel) {name : String} {bytes : ByteArray}
    (eligible : scan.Eligible later top (rel.names ++ [name]) bytes) :
    leadsToDirectory later (top ++ rel.names) (scan.scratch.join rel) name = false ∧
      (disk.get? (top ++ rel.names ++ [name])).isSome := by
  obtain ⟨executable, file⟩ := eligible.file
  rw [join_names _ way.anchor] at file
  obtain ⟨entry, there⟩ := Option.isSome_iff_exists.mp eligible.inTree
  rw [← List.append_assoc] at there
  have plain : leadsToDirectory later (top ++ rel.names) (scan.scratch.join rel) name = false := by
    by_contra leads
    exact status_ne_file_of_leadsToDirectory way.found (named _ _ _ there)
      ((Bool.not_eq_false _).mp leads) bytes executable file
  refine ⟨plain, ?_⟩
  have other : entry ≠ .directory := by
    rintro rfl
    rw [(leadsToDirectory_iff later _ _ _).mpr (.inl there)] at plain
    cases plain
  rw [raised.before there other]
  rfl

/-- The files that are taken in a directory are those that are eligible once it is entered. -/
theorem visitFiles_gathers (sound : Sound disk) (clear : hasNull scan.scratch = false)
    (early : Raised disk later) {progress : Progress}
    (late : Raised later progress.disk) (named : Named progress.disk)
    (way : scan.Reached later top rel)
    (done : (scan.visitFiles rel (scan.scratch.join rel) progress
      ((Sorting.sorted (later.names (top ++ rel.names))).filter
        (not ∘ leadsToDirectory later (top ++ rel.names) (scan.scratch.join rel)))).2 = .ok ()) :
    let taken := files (scan.fileSteps rel (scan.scratch.join rel) progress.disk
      ((Sorting.sorted (later.names (top ++ rel.names))).filter
        (not ∘ leadsToDirectory later (top ++ rel.names) (scan.scratch.join rel))))
    scan.Gathers progress.disk top (·.dropLast = rel.names) taken ∧
      ∀ path ∈ taken, (disk.get? (top ++ path.names)).isSome := by
  intro taken
  have now : scan.Reached progress.disk top rel :=
    ⟨way.anchor, locate_directory_grows late.grows way.found⟩
  have plain : ∀ name bytes, scan.Eligible progress.disk top (rel.names ++ [name]) bytes →
      leadsToDirectory progress.disk (top ++ rel.names) (scan.scratch.join rel) name = false ∧
        (disk.get? (top ++ rel.names ++ [name])).isSome :=
    fun _ _ eligible => eligible.plain (early.trans late) named now
  have members : ∀ path, path ∈ taken ↔ path.anchor = .here ∧ path.names.dropLast = rel.names ∧
      ∃ bytes, scan.Eligible progress.disk top path.names bytes := by
    intro path
    rw [show taken = _ from fileSteps_of_ok done]
    simp only [List.mem_map, List.mem_filter, mem_sorted_names_iff]
    constructor
    · rintro ⟨name, ⟨⟨listed, _⟩, taken⟩, rfl⟩
      refine ⟨way.anchor, by simp [Path.entry], ?_⟩
      exact eligible_of_takes way.anchor ((late.grows.places _).isSome listed) taken
    · rintro ⟨anchor, parent, bytes, eligible⟩
      obtain ⟨name, whole⟩ := eligible.eq_snoc parent
      rw [whole] at eligible
      obtain ⟨noDirectory, initial⟩ := plain name bytes eligible
      have listed := (early.grows.places _).isSome initial
      have noDirectoryYet :
          leadsToDirectory later (top ++ rel.names) (scan.scratch.join rel) name = false := by
        by_contra leads
        rw [leadsToDirectory_grows late.grows ((Bool.not_eq_false _).mp leads)] at noDirectory
        cases noDirectory
      refine ⟨name, ⟨⟨listed, by simp [noDirectoryYet]⟩, ?_⟩, ?_⟩
      · exact eligible.takes way.anchor (hasNull_entry_of_isSome sound clear way.anchor initial)
      · rw [Path.eq_here anchor, whole, Path.entry, way.anchor]
  refine ⟨⟨members, ?_⟩, ?_⟩
  · have once := sorted_names_nodup (early.grows.once sound.once) (top ++ rel.names)
    rw [show taken = _ from fileSteps_of_ok done]
    refine ((once.filter _).filter _).map ?_
    intro a b same
    simpa [Path.entry] using same
  · intro path member
    obtain ⟨_, parent, bytes, eligible⟩ := (members path).mp member
    obtain ⟨name, whole⟩ := eligible.eq_snoc parent
    rw [whole] at eligible ⊢
    rw [← List.append_assoc]
    exact (plain name bytes eligible).2

/-! ### Parts of a walk -/

/-- What a part of a walk on `disk` that returns has gone through: the directories of a region and the
files in them, with what it leaves behind. -/
structure Accounts (scan : Scan) (disk : Disk) (top : Location) (region : List String → Prop)
    (before : Progress) (dirs files : List Path) (after : Progress) : Prop where
  walked : scan.Walked top before.disk dirs files after.disk
  registry : after.registry = before.registry.discoverAll (scan.found files)
  seen : after.seen = before.seen + files.length
  once : (dirs.map Path.names).Nodup
  inside : ∀ rel ∈ dirs, rel.anchor = .here ∧ region rel.names
  every : ∀ names, region names → disk.get? (top ++ names) = some .directory →
    ⟨.here, names⟩ ∈ dirs
  real : ∀ rel ∈ dirs, after.disk.get? (top ++ rel.names) = some .directory
  mirrored : ∀ rel ∈ dirs, rel.names ≠ [] → scan.Entered after.disk rel
  initial : ∀ rel ∈ files, (disk.get? (top ++ rel.names)).isSome

variable {region other : List String → Prop} {before middle after : Progress}
  {dirs files dirsToo filesToo : List Path}

theorem Accounts.append
    (first : scan.Accounts disk top region before dirs files middle)
    (second : scan.Accounts disk top other middle dirsToo filesToo after)
    (apart : ∀ names, region names → ¬ other names) :
    scan.Accounts disk top (fun names => region names ∨ other names) before (dirs ++ dirsToo)
      (files ++ filesToo) after := by
  have growth := second.walked.raised.grows
  refine ⟨first.walked.append second.walked, ?registry, ?seen, ?once, ?inside, ?every, ?real,
    ?mirrored, ?initial⟩
  case registry =>
    rw [second.registry, first.registry]
    simp [found, Registry.discoverAll, List.foldl_append]
  case seen =>
    rw [second.seen, first.seen, List.length_append, Nat.add_assoc]
  case once =>
    rw [List.map_append, List.nodup_append]
    refine ⟨first.once, second.once, ?_⟩
    intro names early _ late same
    obtain ⟨rel, member, rfl⟩ := List.mem_map.mp early
    obtain ⟨relToo, memberToo, rfl⟩ := List.mem_map.mp late
    exact apart _ (first.inside rel member).2 (same ▸ (second.inside relToo memberToo).2)
  case inside =>
    intro rel member
    rcases List.mem_append.mp member with early | late
    · exact ⟨(first.inside rel early).1, Or.inl (first.inside rel early).2⟩
    · exact ⟨(second.inside rel late).1, Or.inr (second.inside rel late).2⟩
  case every =>
    rintro names (here | there) directory
    · exact List.mem_append_left _ (first.every names here directory)
    · exact List.mem_append_right _ (second.every names there directory)
  case real =>
    intro rel member
    rcases List.mem_append.mp member with early | late
    · exact growth.directory (first.real rel early)
    · exact second.real rel late
  case mirrored =>
    intro rel member below
    rcases List.mem_append.mp member with early | late
    · exact (first.mirrored rel early below).grows growth
    · exact second.mirrored rel late below
  case initial =>
    intro rel member
    rcases List.mem_append.mp member with early | late
    · exact first.initial rel early
    · exact second.initial rel late

theorem Accounts.congr (accounts : scan.Accounts disk top region before dirs files after)
    (into : ∀ names, region names → other names)
    (onto : ∀ names, other names → disk.get? (top ++ names) = some .directory → region names) :
    scan.Accounts disk top other before dirs files after :=
  { accounts with
    inside := fun rel member =>
      ⟨(accounts.inside rel member).1, into _ (accounts.inside rel member).2⟩
    every := fun names here directory =>
      accounts.every names (onto names here directory) directory }

theorem accounts_none (scan : Scan) (disk : Disk) (top : Location) (progress : Progress) :
    scan.Accounts disk top (fun _ => False) progress [] [] progress :=
  ⟨.stop _, rfl, rfl, List.nodup_nil, by simp, by simp, by simp, by simp, by simp⟩

/-- A directory of the scratch tree at which a walk on `disk` has arrived. -/
structure Comes (scan : Scan) (disk : Disk) (top : Location) (rel : Path) (progress : Progress) :
    Prop where
  raised : Raised disk progress.disk
  named : Named progress.disk
  way : scan.Reached progress.disk top rel
  real : progress.disk.get? (top ++ rel.names) = some .directory

theorem Comes.entry {progress : Progress} (comes : scan.Comes disk top rel progress) {name : String}
    (ordinary : Ordinary name)
    (real : isLink progress.disk (scan.scratch.join (rel.entry name)) = false) {depth : Nat}
    (done : (scan.visit depth (rel.entry name) progress).2 = .ok ()) :
    scan.Comes disk top (rel.entry name) progress := by
  obtain ⟨place, found⟩ := located_of_visit done
  obtain ⟨way, directory⟩ := comes.way.entry ordinary found real
  exact ⟨comes.raised, comes.named, way, directory⟩

theorem Comes.onward {progress : Progress} (comes : scan.Comes disk top rel progress)
    (accounts : scan.Accounts disk top region progress dirs files after) :
    scan.Comes disk top rel after := by
  have raised := accounts.walked.raised
  refine ⟨comes.raised.trans raised, accounts.walked.named comes.named, ⟨comes.way.anchor, ?_⟩, ?_⟩
  · exact locate_directory_grows raised.grows comes.way.found
  · exact raised.grows.directory comes.real

/-- No directory lies below a link. -/
theorem Comes.not_behind_link (sound : Sound disk) {progress : Progress}
    (comes : scan.Comes disk top rel progress) {name : String} (ordinary : Ordinary name)
    (isLink : isLink progress.disk (scan.scratch.join (rel.entry name)) = true)
    {names : List String} (below : rel.names ++ [name] <+: names) :
    disk.get? (top ++ names) ≠ some .directory := by
  intro directory
  rw [Path.join_entry _ _ _ comes.way.anchor] at isLink
  obtain ⟨target, there⟩ := link_of_isLink comes.way.found ordinary isLink
  have link := (comes.raised.grows.link_iff _ _).mp there
  have above := sound.above_of_prefix directory ((List.prefix_append_right_inj top).mpr below)
  rw [← List.append_assoc, link] at above
  cases above

theorem mirror_fst (scan : Scan) (rel : Path) (progress : Progress) :
    (scan.mirror rel progress).1 =
      { progress with disk := scan.entering progress.disk rel } := by
  unfold mirror entering mirrored
  split
  · rfl
  · rcases progress.disk.ensureDirectory (scan.root.join rel) with ⟨made, fault | _⟩ <;> rfl

theorem mirror_entered {progress : Progress} (below : rel.names ≠ [])
    (done : (scan.mirror rel progress).2 = .ok ()) :
    scan.Entered (scan.entering progress.disk rel) rel := by
  unfold mirror at done
  unfold Scan.entering mirrored
  rw [if_neg below] at done ⊢
  apply ensureDirectory_eq_ok
  rcases outcome : progress.disk.ensureDirectory (scan.root.join rel) with ⟨made, fault | _⟩
  · rw [outcome] at done
    cases done
  · rfl

/-! ### The whole walk -/

theorem visitAll_accounts (sound : Sound disk) {depth : Nat}
    (each : ∀ name progress, scan.Comes disk top (rel.entry name) progress →
      (scan.visit depth (rel.entry name) progress).2 = .ok () →
      ∃ dirs files, scan.Accounts disk top ((rel.entry name).names <+: ·) progress dirs files
        (scan.visit depth (rel.entry name) progress).1)
    {names : List String} (once : names.Nodup) (ordinary : ∀ name ∈ names, Ordinary name)
    {progress : Progress} (comes : scan.Comes disk top rel progress)
    (done : (visitAll (scan.visit depth) scan rel progress names).2 = .ok ()) :
    ∃ dirs files, scan.Accounts disk top (fun path => ∃ name ∈ names, rel.names ++ [name] <+: path)
      progress dirs files (visitAll (scan.visit depth) scan rel progress names).1 := by
  induction names generalizing progress with
  | nil => exact ⟨[], [], (accounts_none scan disk top progress).congr (by simp) (by simp)⟩
  | cons name rest ih =>
      obtain ⟨fresh, restOnce⟩ := List.nodup_cons.mp once
      have plain := ordinary name List.mem_cons_self
      have later := @ih restOnce (fun other member => ordinary other (List.mem_cons_of_mem _ member))
      obtain ⟨link, same, _⟩ | ⟨real, middle, visited, same, _⟩ := visitAll_cons_eq_ok done
      · rw [same] at done ⊢
        obtain ⟨dirs, files, accounts⟩ := later comes done
        refine ⟨dirs, files, accounts.congr ?_ ?_⟩
        · rintro path ⟨other, member, below⟩
          exact ⟨other, List.mem_cons_of_mem _ member, below⟩
        · -- Nothing is missed with the link, as the region only asks for directories.
          rintro path ⟨other, member, below⟩ directory
          rcases List.mem_cons.mp member with rfl | inRest
          · exact absurd directory (comes.not_behind_link sound plain link below)
          · exact ⟨other, inRest, below⟩
      · rw [same] at done ⊢
        have ended : (scan.visit depth (rel.entry name) progress).2 = .ok () := by rw [visited]
        obtain ⟨dirs, files, accounts⟩ := each name progress (comes.entry plain real ended) ended
        rw [visited] at accounts
        obtain ⟨dirsToo, filesToo, accountsToo⟩ := later (comes.onward accounts) done
        have both := accounts.append accountsToo (entry_apart fresh)
        exact ⟨_, _, both.congr (fun names => by simp [Path.entry])
          (fun names => by simp +contextual [Path.entry])⟩

theorem accounts_enter (sound : Sound disk) (clear : hasNull scan.scratch = false)
    {progress mirrored fed : Progress} (comes : scan.Comes disk top rel progress)
    (made : scan.mirror rel progress = (mirrored, .ok ()))
    (taken : scan.visitFiles rel (scan.scratch.join rel) mirrored
      ((Sorting.sorted (progress.disk.names (top ++ rel.names))).filter
        (not ∘ leadsToDirectory progress.disk (top ++ rel.names) (scan.scratch.join rel))) =
      (fed, .ok ())) :
    ∃ files, scan.Accounts disk top (· = rel.names) progress [rel] files fed := by
  have entered : mirrored = { progress with disk := scan.entering progress.disk rel } := by
    rw [← mirror_fst, made]
  have raised : Raised progress.disk mirrored.disk := by
    rw [entered]
    exact entering_raised scan progress.disk rel
  have named : Named mirrored.disk := by
    rw [entered]
    exact Named.entering comes.named scan rel
  obtain ⟨gathers, initial⟩ := visitFiles_gathers sound clear comes.raised raised named comes.way
    (by rw [taken])
  generalize (Sorting.sorted (progress.disk.names (top ++ rel.names))).filter
    (not ∘ leadsToDirectory progress.disk (top ++ rel.names) (scan.scratch.join rel)) = plain
      at taken gathers initial
  have fedDisk := visitFiles_disk scan rel (scan.scratch.join rel) mirrored plain
  have fedRegistry := @visitFiles_registry scan rel comes.way.anchor mirrored plain
  have fedSeen := visitFiles_seen scan rel (scan.scratch.join rel) mirrored plain
  rw [taken] at fedDisk fedRegistry fedSeen
  generalize files (scan.fileSteps rel (scan.scratch.join rel) mirrored.disk plain) = here at *
  refine ⟨here, ?walked, ?registry, ?seen, ?once, ?inside, ?every, ?real, ?mirrored, initial⟩
  case walked =>
    have last : scan.entering progress.disk rel = fed.disk := by rw [fedDisk, entered]
    rw [← List.append_nil here, ← last]
    refine .enter ?_ (.stop _)
    rw [last, fedDisk]
    exact gathers
  case registry => rw [fedRegistry, entered]
  case seen => rw [fedSeen, entered]
  case once => simp
  case inside =>
    intro other member
    rw [List.mem_singleton.mp member]
    exact ⟨comes.way.anchor, rfl⟩
  case every =>
    rintro _ rfl _
    rw [← Path.eq_here comes.way.anchor]
    exact List.mem_singleton_self rel
  case real =>
    intro other member
    rw [List.mem_singleton.mp member, fedDisk]
    exact raised.grows.directory comes.real
  case mirrored =>
    intro other member below
    rw [List.mem_singleton.mp member] at below ⊢
    rw [fedDisk, entered]
    exact mirror_entered below (by rw [made])

theorem visit_accounts (sound : Sound disk) (clear : hasNull scan.scratch = false) (depth : Nat)
    {rel : Path} {progress : Progress} (comes : scan.Comes disk top rel progress)
    (done : (scan.visit depth rel progress).2 = .ok ()) :
    ∃ dirs files, scan.Accounts disk top (rel.names <+: ·) progress dirs files
      (scan.visit depth rel progress).1 := by
  induction depth generalizing rel progress with
  | zero => cases done
  | succ depth ih =>
      obtain ⟨_, loc, names, mirrored, fed, same, listed, made, taken, visited, _⟩ :=
        visit_eq_ok done
      cases same
      rw [Disk.list, comes.way.found] at listed
      cases listed
      rw [visited] at done ⊢
      obtain ⟨files, accounts⟩ := accounts_enter sound clear comes made taken
      have shown := mem_sorted_names_iff progress.disk (top ++ rel.names)
      have once := sorted_names_nodup (comes.raised.grows.once sound.once) (top ++ rel.names)
      generalize Sorting.sorted (progress.disk.names (top ++ rel.names)) = sorted at *
      have ordinary : ∀ name ∈ sorted.filter
          (leadsToDirectory progress.disk (top ++ rel.names) (scan.scratch.join rel)),
          Ordinary name := by
        intro name member
        obtain ⟨entry, there⟩ := Option.isSome_iff_exists.mp
          ((shown name).mp (List.mem_filter.mp member).1)
        exact comes.named _ _ _ there
      obtain ⟨dirsToo, filesToo, accountsToo⟩ := visitAll_accounts sound (fun _ _ => ih)
        (once.filter _) ordinary (comes.onward accounts) done
      have both := accounts.append accountsToo <| by
        rintro _ rfl ⟨name, _, below⟩
        have longer := below.length_le
        rw [List.length_append, List.length_singleton] at longer
        omega
      refine ⟨_, _, both.congr ?_ ?_⟩
      · rintro names (rfl | ⟨name, _, below⟩)
        · exact List.prefix_refl _
        · exact (List.prefix_append _ _).trans below
      · rintro names ⟨more, rfl⟩ directory
        cases more with
        | nil => exact Or.inl (List.append_nil _)
        | cons name rest =>
            -- The first name on the way down is that of a directory, so it is gone into.
            have below : rel.names ++ [name] <+: rel.names ++ name :: rest := by simp
            have above := sound.above_of_prefix directory
              ((List.prefix_append_right_inj top).mpr below)
            rw [← List.append_assoc] at above
            have now := comes.raised.grows.directory above
            refine Or.inr ⟨name, List.mem_filter.mpr ⟨(shown name).mpr (by rw [now]; rfl), ?_⟩, below⟩
            exact (leadsToDirectory_iff _ _ _ _).mpr (.inl now)

/-- The files that a walk of the whole tree has taken into account: all that are eligible at the start,
and none that is not in the end. -/
structure Tallies (scan : Scan) (disk : Disk) (top : Location) (registry : Registry)
    (after : Progress) (dirs files : List Path) : Prop where
  accounts : scan.Accounts disk top (fun _ => True) ⟨disk, registry, [], 0⟩ dirs files after
  mirrors : ∀ names, names ≠ [] → disk.get? (top ++ names) = some .directory →
    scan.Entered after.disk ⟨.here, names⟩
  early : ∀ names bytes, scan.Eligible disk top names bytes → ⟨.here, names⟩ ∈ files
  late : ∀ rel ∈ files, rel.anchor = .here ∧ ∃ bytes, scan.Eligible after.disk top rel.names bytes
  gathers : (∀ names bytes, scan.Eligible after.disk top names bytes →
      ∃ old, scan.Eligible disk top names old) → scan.Gathers disk top (fun _ => True) files
  normal : ∀ rel ∈ files, Normal rel.text ∧ Path.ofString rel.text = rel
  texts : (files.map Path.text).Nodup

theorem Accounts.tallies (sound : Sound disk) {registry : Registry}
    (accounts : scan.Accounts disk top (fun _ => True) ⟨disk, registry, [], 0⟩ dirs files after) :
    scan.Tallies disk top registry after dirs files := by
  have late : ∀ rel ∈ files, rel.anchor = .here ∧
      ∃ bytes, scan.Eligible after.disk top rel.names bytes := by
    intro rel member
    obtain ⟨anchor, _, eligible⟩ := accounts.walked.late rel member
    exact ⟨anchor, eligible⟩
  have early : ∀ names bytes, scan.Eligible disk top names bytes → ⟨.here, names⟩ ∈ files := by
    intro names bytes eligible
    obtain ⟨name, whole⟩ := eligible.eq_snoc rfl
    obtain ⟨entry, there⟩ := Option.isSome_iff_exists.mp eligible.inTree
    have parent : disk.get? (top ++ names.dropLast) = some .directory := by
      rw [whole, ← List.append_assoc] at there
      exact (sound.parent there).2
    exact accounts.walked.early eligible ⟨_, accounts.every _ trivial parent, rfl⟩
  have once := accounts.walked.files_nodup accounts.once
  have normal : ∀ rel ∈ files, Normal rel.text ∧ Path.ofString rel.text = rel := by
    intro rel member
    obtain ⟨anchor, bytes, eligible⟩ := late rel member
    obtain ⟨entry, there⟩ := Option.isSome_iff_exists.mp (accounts.initial rel member)
    have nameable : ∀ name ∈ rel.names, Nameable name := fun name inside =>
      sound.nameable there name (List.mem_append_right _ inside)
    rw [Path.eq_here anchor]
    have normal := normal_text eligible.below nameable
    exact ⟨normal, by rw [normal.ofString, split_text eligible.below nameable]⟩
  refine ⟨accounts, fun names below directory => ?mirrors, early, late, fun settled => ?gathers,
    normal, ?texts⟩
  case mirrors => exact accounts.mirrored _ (accounts.every names trivial directory) below
  case gathers =>
    refine ⟨fun path => ⟨fun member => ?_, ?_⟩, once⟩
    · obtain ⟨anchor, bytes, eligible⟩ := late path member
      exact ⟨anchor, trivial, settled _ bytes eligible⟩
    · rintro ⟨anchor, -, bytes, eligible⟩
      rw [Path.eq_here anchor]
      exact early _ bytes eligible
  case texts =>
    refine once.map_on ?_
    intro rel member other memberToo same
    rw [← (normal rel member).2, same, (normal other memberToo).2]

/-- A walk that returns has taken each file once that was eligible when it came to the directory of the
file, under relative paths in their normal form; and every walk ends alike in whatever order directories
list their names. -/
theorem run_tallies (scan : Scan) (sound : Sound disk)
    (located : disk.locate .target scan.scratch = .ok (.present top .directory))
    (registry : Registry) :
    ((scan.run disk registry).2 = .ok () →
      ∃ dirs files, scan.Tallies disk top registry (scan.run disk registry).1 dirs files) ∧
    ∀ other, Reordered disk other →
      EndRelated Level (scan.run disk registry) (scan.run other registry) := by
  refine ⟨fun done => ?_, fun other reordered => scan.run_level reordered registry⟩
  have root := directory_of_locate sound located
  have comes : scan.Comes disk top ⟨.here, []⟩ ⟨disk, registry, [], 0⟩ := by
    have scratch : scan.scratch.join ⟨.here, []⟩ = scan.scratch := by simp [Path.join]
    refine ⟨.refl disk, sound.named, ⟨rfl, ?_⟩, ?_⟩
    · rw [scratch, List.append_nil]
      exact located
    · rw [List.append_nil]
      exact root
  obtain ⟨dirs, files, accounts⟩ :=
    visit_accounts sound (hasNull_of_locate sound located) _ comes done
  exact ⟨dirs, files, (accounts.congr (by simp) (by simp)).tallies sound⟩

/-- Two links in the scratch tree that lead nowhere until the directory `b` is made below the output
root, between the visit of the one and that of the other. -/
def lateDisk : Disk :=
  ⟨[], [(["out"], .directory), (["out", "f"], .file ⟨#[1]⟩ false), (["scratch"], .directory),
    (["scratch", "a"], .directory), (["scratch", "a", "p.go"], .link "../../out/b/../f"),
    (["scratch", "b"], .directory), (["scratch", "c"], .directory),
    (["scratch", "c", "q.go"], .link "../../out/b/../f")]⟩

theorem run_tallies_late :
    (∃ dirs files, linkScan.Tallies lateDisk ["scratch"] .empty
      (linkScan.run lateDisk .empty).1 dirs files ∧ files.length = 1) ∧
    EndRelated Level (linkScan.run lateDisk .empty)
      (linkScan.run ⟨[], lateDisk.entries.reverse⟩ .empty) := by
  have sound : Sound lateDisk := by decide
  have done : (linkScan.run lateDisk .empty).2 = .ok () := by decide +kernel
  have seen : (linkScan.run lateDisk .empty).1.seen = 1 := by decide +kernel
  obtain ⟨returns, orders⟩ := @run_tallies lateDisk ["scratch"] linkScan sound rfl .empty
  obtain ⟨dirs, files, tallies⟩ := returns done
  have count := tallies.accounts.seen
  rw [seen, Nat.zero_add] at count
  exact ⟨⟨dirs, files, tallies, count.symm⟩,
    orders _ (reordered_of_perm rfl (List.reverse_perm _).symm sound.once)⟩

/-- No file is eligible at the start, one is counted, and two are eligible in the end. -/
theorem run_counts_late_links :
    Sound lateDisk ∧
      lateDisk.locate .target linkScan.scratch = .ok (.present ["scratch"] .directory) ∧
      lateDisk.locate .target linkScan.root = .ok (.present ["out"] .directory) ∧
      ¬ ["scratch"] <+: ["out"] ∧ ¬ ["out"] <+: ["scratch"] ∧
      (∀ loc target, ["out"] <+: loc → lateDisk.get? loc ≠ some (.link target)) ∧
      (linkScan.run lateDisk .empty).2 = .ok () ∧ (linkScan.run lateDisk .empty).1.seen = 1 ∧
      (∀ names bytes, ¬ linkScan.Eligible lateDisk ["scratch"] names bytes) ∧
      linkScan.Eligible (linkScan.run lateDisk .empty).1.disk ["scratch"] ["a", "p.go"] ⟨#[1]⟩ ∧
      linkScan.Eligible (linkScan.run lateDisk .empty).1.disk ["scratch"] ["c", "q.go"] ⟨#[1]⟩ := by
  have noFile : ∀ row ∈ lateDisk.entries, row.1.head? = some "scratch" →
      hasNull (linkScan.scratch.join ⟨.here, row.1.tail⟩) = false ∧
        lateDisk.isFile (linkScan.scratch.join ⟨.here, row.1.tail⟩) ≠ .ok true := by
    decide +kernel
  refine ⟨by decide, rfl, rfl, by decide, by decide, fun loc target inside found => ?_,
    by decide +kernel, by decide +kernel, fun names bytes eligible => ?_,
    ⟨by decide, by decide +kernel, ⟨false, by decide +kernel⟩, by decide⟩,
    ⟨by decide, by decide +kernel, ⟨false, by decide +kernel⟩, by decide⟩⟩
  · have row := mem_of_get?_link found
    simp only [lateDisk, List.mem_cons, Prod.mk.injEq, reduceCtorEq, and_false, false_or,
      List.not_mem_nil, or_false] at row
    rcases row with ⟨rfl, -⟩ | ⟨rfl, -⟩ <;> exact absurd inside (by decide)
  · obtain ⟨entry, there⟩ := Option.isSome_iff_exists.mp eligible.inTree
    obtain ⟨executable, file⟩ := eligible.file
    obtain ⟨clear, isNone⟩ := noFile _ (mem_of_lookup there) rfl
    exact isNone ((isFile_eq_ok_true_iff lateDisk _).mpr ⟨clear, bytes, executable, file⟩)

end Emplace.Scan

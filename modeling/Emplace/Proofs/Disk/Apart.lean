import Emplace.Proofs.Disk.Looking
import Emplace.Proofs.Disk.Settling

/-!
Two trees that have nothing to do with each other: one that is read and one, without links, that is
written. Nothing that is written is seen through a path into the tree that is read.
-/
namespace Emplace.Disk

/-- A tree at `top` to be read and a tree at `base` to be written, with the paths of both. -/
structure Apart (disk : Disk) (scratch root : Path) (top base : Location) : Prop where
  sound : Sound disk
  scratch : disk.locate .target scratch = .ok (.present top .directory)
  root : disk.locate .target root = .ok (.present base .directory)
  below : ¬ top <+: base
  above : ¬ base <+: top
  /-- No link lies in the tree that is written. -/
  bare : ∀ loc, base <+: loc → ∀ target, disk.get? loc ≠ some (.link target)
  /-- No link in the tree that is read leads into the one that is written. -/
  away : ∀ dir name target, top <+: dir → disk.get? (dir ++ [name]) = some (.link target) →
    ¬ LeadsInto disk base dir target

/-- A disk that has grown in the tree at `base` alone. -/
structure Quiet (base : Location) (before after : Disk) : Prop where
  grows : Grows before after
  off : SameOff (base <+: ·) before after

variable {disk later : Disk} {scratch root : Path} {top base dir : Location}

theorem Quiet.refl (base : Location) (disk : Disk) : Quiet base disk disk :=
  ⟨.refl disk, .refl _ disk⟩

theorem Quiet.trans {a b c : Disk} (first : Quiet base a b) (second : Quiet base b c) :
    Quiet base a c :=
  ⟨first.grows.trans second.grows, first.off.trans second.off⟩

/-- Of two disks that have both grown so, the later one has grown so from the earlier one. -/
theorem Quiet.between {a b c : Disk} (first : Quiet base a b) (whole : Quiet base a c)
    (growth : Grows b c) : Quiet base b c :=
  ⟨growth, fun loc outside => (whole.off loc outside).trans (first.off loc outside).symm⟩

theorem Apart.outside (apart : Apart disk scratch root top base) {loc : Location}
    (inside : top <+: loc) : ¬ base <+: loc := by
  intro under
  rcases List.prefix_or_prefix_of_prefix inside under with below | above
  · exact apart.below below
  · exact apart.above above

theorem Apart.get?_eq (apart : Apart disk scratch root top base) (quiet : Quiet base disk later)
    {loc : Location} (inside : top <+: loc) : later.get? loc = disk.get? loc :=
  quiet.off loc (apart.outside inside)

/-- A link in the tree that is read leads to the same after the other tree was written. -/
theorem Apart.chase_link (apart : Apart disk scratch root top base)
    (quiet : Quiet base disk later) {name target : String} (inside : top <+: dir)
    (found : disk.get? (dir ++ [name]) = some (.link target)) (aim : Aim) {links : Nat}
    (few : links ≤ linkLimit) :
    later.chase aim links (startOf dir (Path.raw target)) (Path.raw target).names =
      disk.chase aim links (startOf dir (Path.raw target)) (Path.raw target).names := by
  -- In the tree that is written only directories are looked at, and these stay.
  apply chase_congr
  intro place looks
  by_cases under : base <+: place
  · have whole : Looks disk linkLimit (startOf dir (Path.raw target)) (Path.raw target).names
        place := by
      have more := looks.more (linkLimit - links)
      rwa [Nat.add_sub_cancel' few] at more
    have directory : disk.get? place = some .directory := by
      by_contra other
      exact apart.away dir name target inside found ⟨place, whole, under, other⟩
    rw [directory, quiet.grows.directory directory]
  · exact quiet.off place under

theorem Apart.chase_entry (apart : Apart disk scratch root top base)
    (quiet : Quiet base disk later) (inside : top <+: dir) (aim : Aim) {links : Nat}
    (few : links ≤ linkLimit) (name : String) :
    later.chase aim links dir [name] = disk.chase aim links dir [name] := by
  by_cases idle : name = "." ∨ name = ""
  · rw [chase_idle idle, chase_idle idle, chase_nil, chase_nil]
  · by_cases up : name = ".."
    · rw [up, chase_up, chase_up, chase_nil, chase_nil]
    · have ordinary := ordinary_of_not_idle idle up
      have place : later.get? (dir ++ [name]) = disk.get? (dir ++ [name]) :=
        apart.get?_eq quiet (inside.trans (List.prefix_append _ _))
      rw [chase_ordinary ordinary, chase_ordinary ordinary, place]
      cases found : disk.get? (dir ++ [name]) with
      | none => rfl
      | some entry =>
          cases entry with
          | directory => simp only [chase_nil]
          | file bytes executable => rfl
          | pipe => rfl
          | link target =>
              cases links with
              | zero => rfl
              | succ fewer =>
                  simp only [List.append_nil,
                    apart.chase_link quiet inside found aim (Nat.le_of_succ_le few)]

/-- The entries of a directory that is read are found as before. -/
theorem Apart.locate_entry_eq (apart : Apart disk scratch root top base)
    (quiet : Quiet base disk later) {path : Path} (inside : top <+: dir)
    (entered : disk.locate .target path = .ok (.present dir .directory)) {aim : Aim}
    (reading : aim ≠ .writing) (name : String) :
    later.locate aim (path.entry name) = disk.locate aim (path.entry name) := by
  obtain ⟨left, few, entries⟩ := locate_entry entered
  have asks : aim = .writing → name ≠ "" := fun writing => absurd writing reading
  rw [entries later quiet.grows aim name asks, entries disk (.refl disk) aim name asks,
    apart.chase_entry quiet inside aim few name]

theorem Apart.status_entry_eq (apart : Apart disk scratch root top base)
    (quiet : Quiet base disk later) {path : Path} (inside : top <+: dir)
    (entered : disk.locate .target path = .ok (.present dir .directory)) (name : String) :
    later.status (path.entry name) = disk.status (path.entry name) := by
  unfold status
  rw [apart.locate_entry_eq quiet inside entered (by simp) name]

/-- Names below directories of the tree that is read are only followed out of it by the last one. -/
theorem Apart.looks_below (apart : Apart disk scratch root top base) {links : Nat}
    (few : links ≤ linkLimit) {names : List String} (inside : top <+: dir)
    (ordinary : ∀ name ∈ names, Ordinary name)
    (real : ∀ front, front <+: names → front ≠ names → disk.get? (dir ++ front) = some .directory)
    {place : Location} (looks : Looks disk links dir names place) (under : base <+: place) :
    disk.get? place = some .directory := by
  induction names generalizing dir with
  | nil => cases looks
  | cons name rest ih =>
      have good := ordinary name List.mem_cons_self
      cases looks with
      | here => exact absurd under (apart.outside (inside.trans (List.prefix_append _ _)))
      | idle pass => exact absurd pass (by simp [good.1, good.2.1])
      | up => exact absurd rfl good.2.2
      | enter _ _ _ later =>
          apply ih (inside.trans (List.prefix_append _ _))
            (fun other member => ordinary other (List.mem_cons_of_mem _ member)) _ later
          intro front upTo proper
          have above := real (name :: front) (by simpa using upTo) (by simpa using proper)
          rwa [List.append_assoc]
      | @follow fewer _ _ _ target _ _ _ found later =>
          -- Everything above the last name is a directory, so the link is the last name.
          by_cases last : rest = []
          · subst last
            rw [List.append_nil] at later
            have whole := later.more (linkLimit - fewer)
            rw [Nat.add_sub_cancel' (by omega)] at whole
            by_contra other
            exact apart.away dir name target inside found ⟨place, whole, under, other⟩
          · have directory := real [name] (by simp) (by simpa using Ne.symm last)
            rw [found] at directory
            cases directory

/-- A place in the tree that is read is found as before, as long as no link lies above it. -/
theorem Apart.status_within_eq (apart : Apart disk scratch root top base)
    (quiet : Quiet base disk later) {names : List String}
    (inTree : (disk.get? (top ++ names)).isSome) :
    later.status (scratch.join ⟨.here, names⟩) = disk.status (scratch.join ⟨.here, names⟩) := by
  obtain ⟨entry, there⟩ := Option.isSome_iff_exists.mp inTree
  obtain ⟨left, few, found⟩ := locate_join apart.scratch
  have same : later.chase .target left top names = disk.chase .target left top names := by
    apply chase_congr
    intro place looks
    by_cases under : base <+: place
    · have directory := apart.looks_below few (List.prefix_refl top)
        (fun name member => (apart.sound.nameable there name (List.mem_append_right _ member)).1)
        (fun front upTo proper => by
          obtain ⟨more, rfl⟩ := upTo
          rw [← List.append_assoc] at there
          exact apart.sound.above more there (by simpa using proper))
        looks under
      rw [directory, quiet.grows.directory directory]
    · exact quiet.off place under
  unfold status
  rw [found later quiet.grows .target names (Or.inl rfl),
    found disk (.refl disk) .target names (Or.inl rfl), same]

/-! ### Places below the root that is written -/

/-- No link stands on the way from the root of all to a place below the one that is written. -/
theorem Apart.bare_target (apart : Apart disk scratch root top base) (growth : Grows disk later)
    (names : List String) : Bare later [] (base ++ names) := by
  intro front upTo target link
  rw [List.nil_append, growth.link_iff] at link
  rcases List.prefix_or_prefix_of_prefix upTo (List.prefix_append base names) with above | below
  · have there := directory_of_locate apart.sound apart.root
    rw [apart.sound.above_of_prefix there above] at link
    cases link
  · exact apart.bare front below target link

theorem Apart.bare_below (apart : Apart disk scratch root top base) (growth : Grows disk later)
    (names : List String) : Bare later base names :=
  fun front _ target link =>
    apart.bare (base ++ front) (List.prefix_append _ _) target ((growth.link_iff _ _).mp link)

/-- What the system finds below the root is at the very names of its path. -/
theorem Apart.place_below (apart : Apart disk scratch root top base) (growth : Grows disk later)
    {names : List String} (ordinary : ∀ name ∈ names, Ordinary name) (some : names ≠ [])
    {aim : Aim} {spot : Spot} (found : later.locate aim (root.join ⟨.here, names⟩) = .ok spot) :
    spot.place = base ++ names := by
  obtain ⟨left, _, below⟩ := locate_join apart.root
  have onward : GoesOn aim names := by
    refine Or.inr ⟨some, fun _ asks => ?_⟩
    subst asks
    exact absurd rfl (ordinary "" (by simp)).1
  rw [below later growth aim names onward] at found
  split at found
  · cases found
  · exact (finds_of_chase left base names found).place_of_bare (apart.bare_below growth names)
      ordinary

/-- A path below the root is taken for the very names that it has. -/
theorem Apart.canonical_eq (apart : Apart disk scratch root top base) (growth : Grows disk later)
    {names : List String} (ordinary : ∀ name ∈ names, Ordinary name) {target : Location}
    (settled : later.canonical (root.join ⟨.here, names⟩) = .ok target) : target = base ++ names :=
  canonical_below apart.sound growth apart.root ordinary (apart.bare_below growth names) settled

end Emplace.Disk

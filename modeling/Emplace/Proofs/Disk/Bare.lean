import Emplace.Proofs.Disk.Following
import Mathlib.Data.List.Infix

/-!
What stands at the end of a way, and ways on which no link stands. The system takes the path of a
bare location to that very location, or refuses it without having followed anything.
-/
namespace Emplace.Disk

/-- The location that a path leads to, whether something is there or not. -/
def Spot.place : Spot → Location
  | .present loc _ => loc
  | .absent dir name => dir ++ [name]

variable {disk : Disk} {aim : Aim} {links : Nat} {dir : Location}

/-- What is found at the end of names, other than a directory, is the entry of the location. -/
theorem Finds.get?_present {names : List String} {loc : Location} {entry : Entry}
    (finds : Finds disk aim links dir names (.present loc entry)) (other : entry ≠ .directory) :
    loc ≠ [] ∧ disk.get? loc = some entry := by
  generalize whole : Spot.present loc entry = spot at finds
  induction finds with
  | here =>
      cases whole
      exact absurd rfl other
  | idle _ _ ih => exact ih whole
  | up _ ih => exact ih whole
  | enter _ _ _ _ _ ih => exact ih whole
  | follow _ _ _ _ _ _ ih => exact ih whole
  | free => cases whole
  | last _ _ found =>
      cases whole
      exact ⟨by simp, found⟩

theorem Finds.get?_absent {names : List String} {base : Location} {name : String}
    (finds : Finds disk aim links dir names (.absent base name)) :
    Ordinary name ∧ disk.get? (base ++ [name]) = none := by
  generalize whole : Spot.absent base name = spot at finds
  induction finds with
  | here => cases whole
  | idle _ _ ih => exact ih whole
  | up _ ih => exact ih whole
  | enter _ _ _ _ _ ih => exact ih whole
  | follow _ _ _ _ _ _ ih => exact ih whole
  | free ordinary _ _ found =>
      cases whole
      exact ⟨ordinary, found⟩
  | last => cases whole

theorem locate_of_status {path : Path} {entry : Entry} (found : disk.status path = .ok entry) :
    ∃ loc, disk.locate .target path = .ok (.present loc entry) := by
  unfold status at found
  split at found
  · cases found
  · rename_i loc other spot
    cases found
    exact ⟨loc, spot⟩
  · cases found

/-- A path leads to a directory where it is short enough and all its names are entered. -/
theorem locate_directory_iff (path : Path) (loc : Location) :
    disk.locate .target path = .ok (.present loc .directory) ↔
      path.text.utf8ByteSize ≤ pathLimit ∧
        ∃ left, Enters disk linkLimit (startOf disk.cwd path) path.names left loc := by
  rw [locate_eq_ok_iff]
  refine and_congr_right fun _ => ⟨Finds.enters, ?_⟩
  rintro ⟨left, enters⟩
  have onward : GoesOn .target [] := Or.inl rfl
  have same := enters.chase onward
  rw [List.append_nil, chase_nil] at same
  exact finds_of_chase linkLimit _ _ same

theorem get?_startOf (sound : Sound disk) (path : Path) :
    disk.get? (startOf disk.cwd path) = some .directory := by
  unfold startOf
  split
  · exact sound.cwd
  · rfl

theorem directory_of_locate (sound : Sound disk) {path : Path} {loc : Location}
    (found : disk.locate .target path = .ok (.present loc .directory)) :
    disk.get? loc = some .directory := by
  obtain ⟨_, left, enters⟩ := (locate_directory_iff path loc).mp found
  exact enters.directory sound (get?_startOf sound path)

theorem locate_directory_grows {later : Disk} (growth : Grows disk later) {path : Path}
    {loc : Location} (found : disk.locate .target path = .ok (.present loc .directory)) :
    later.locate .target path = .ok (.present loc .directory) := by
  rw [locate_directory_iff] at found ⊢
  obtain ⟨short, left, enters⟩ := found
  refine ⟨short, left, ?_⟩
  rw [growth.cwd]
  exact enters.grows growth

/-! ### Ways without links -/

/-- No link stands on the way from a directory along names, nor at its end. -/
def Bare (disk : Disk) (dir : Location) (names : List String) : Prop :=
  ∀ front, front <+: names → ∀ target, disk.get? (dir ++ front) ≠ some (.link target)

theorem bare_iff (disk : Disk) (dir : Location) (names : List String) :
    Bare disk dir names ↔ ∀ front ∈ names.inits,
      (disk.get? (dir ++ front)).all fun entry => !(entry matches .link _) := by
  simp only [Bare, List.mem_inits]
  refine forall_congr' fun front => imp_congr_right fun _ => ?_
  cases disk.get? (dir ++ front) with
  | none => simp
  | some entry => cases entry <;> simp

instance (disk : Disk) (dir : Location) (names : List String) : Decidable (Bare disk dir names) :=
  decidable_of_iff _ (bare_iff disk dir names).symm

theorem Bare.tail {name : String} {rest : List String} (bare : Bare disk dir (name :: rest)) :
    Bare disk (dir ++ [name]) rest := by
  intro front upTo target
  have longer : name :: front <+: name :: rest := by simpa using upTo
  simpa using bare _ longer target

theorem Bare.of_prefix {names more : List String} (bare : Bare disk dir more)
    (upTo : names <+: more) : Bare disk dir names :=
  fun front shorter => bare front (shorter.trans upTo)

theorem Bare.grows {later : Disk} {names : List String} (bare : Bare disk dir names)
    (growth : Grows disk later) : Bare later dir names :=
  fun front upTo target link => bare front upTo target ((growth.link_iff _ _).mp link)

theorem bare_of_directory (sound : Sound disk) {loc : Location}
    (found : disk.get? loc = some .directory) : Bare disk [] loc := by
  intro front upTo target link
  have here := sound.above_of_prefix found upTo
  rw [List.nil_append, here] at link
  cases link

/-- Ordinary names on whose way no link stands lead to the place that they name. -/
theorem Finds.place_of_bare {names : List String} {spot : Spot}
    (finds : Finds disk aim links dir names spot) (bare : Bare disk dir names)
    (ordinary : ∀ name ∈ names, Ordinary name) : spot.place = dir ++ names := by
  induction finds with
  | here => simp [Spot.place]
  | idle pass =>
      have first := ordinary _ List.mem_cons_self
      exact absurd pass (by simp [first.1, first.2.1])
  | up => exact absurd rfl (ordinary ".." List.mem_cons_self).2.2
  | enter _ _ _ _ _ ih =>
      have later := ih bare.tail fun other member => ordinary other (List.mem_cons_of_mem _ member)
      rw [later, List.append_assoc]
      rfl
  | @follow _ _ name target _ _ _ _ _ found => exact absurd found (bare [name] (by simp) target)
  | @free _ _ _ rest _ _ _ _ empty =>
      have none : rest = [] := by
        apply List.eq_nil_iff_forall_not_mem.mpr
        intro other member
        apply (ordinary other (List.mem_cons_of_mem _ member)).1
        simpa using List.all_eq_true.mp empty other member
      rw [none]
      rfl
  | last => rfl

/-- What the system finds at the path of a bare location is at that location. -/
theorem place_of_locate_bare {loc : Location} (bare : Bare disk [] loc)
    (ordinary : ∀ name ∈ loc, Ordinary name) {spot : Spot}
    (found : disk.locate aim ⟨.root, loc⟩ = .ok spot) : spot.place = loc :=
  (locate_eq_ok_iff.mp found).2.place_of_bare bare ordinary

theorem chase_bare_ne_tooManyLinks (aim : Aim) (links : Nat) {names : List String}
    (bare : Bare disk dir names) (ordinary : ∀ name ∈ names, Ordinary name) :
    disk.chase aim links dir names ≠ .error .tooManyLinks := by
  induction names generalizing dir with
  | nil => simp [chase_nil]
  | cons name rest ih =>
      rw [chase_ordinary (ordinary name List.mem_cons_self)]
      split
      · simp
      · split
        · simp
        · split
          · split <;> simp
          · exact ih bare.tail fun other member => ordinary other (List.mem_cons_of_mem _ member)
          · rename_i target link
            exact absurd link (bare [name] (by simp) target)
          · split <;> simp

/-- The path of a bare location does not stay in a circle of links. -/
theorem status_bare_ne_tooManyLinks {loc : Location} (bare : Bare disk [] loc)
    (ordinary : ∀ name ∈ loc, Ordinary name) :
    disk.status ⟨.root, loc⟩ ≠ .error .tooManyLinks := by
  have free := chase_bare_ne_tooManyLinks .target linkLimit bare ordinary
  unfold status locate
  split
  · rename_i cause refused
    split at refused
    · cases refused
      simp
    · rintro ⟨⟩
      exact free refused
  · simp
  · simp

end Emplace.Disk

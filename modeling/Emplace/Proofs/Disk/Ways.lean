import Emplace.Proofs.Disk.Bare

/-!
Ways that stay. A path that led to a free name or to a file leads to that place as long as the
directories and links of the disk stay, and what stands there is found by it. Nothing lies below a
free place of a disk that is founded.
-/
namespace Emplace.Disk

variable {a b c disk : Disk} {links : Nat} {dir base loc : Location} {names : List String}
  {name : String}

/-- A disk on which the directories and links of another one still are. -/
structure KeepsWays (a b : Disk) : Prop where
  cwd : b.cwd = a.cwd
  directory : ∀ loc, a.get? loc = some .directory → b.get? loc = some .directory
  link : ∀ loc target, a.get? loc = some (.link target) → b.get? loc = some (.link target)

theorem KeepsWays.trans (first : KeepsWays a b) (second : KeepsWays b c) : KeepsWays a c :=
  ⟨second.cwd.trans first.cwd, fun loc found => second.directory loc (first.directory loc found),
    fun loc target found => second.link loc target (first.link loc target found)⟩

theorem Grows.keepsWays (growth : Grows a b) : KeepsWays a b :=
  ⟨growth.cwd, fun _ => growth.directory, fun loc target => (growth.link_iff loc target).mpr⟩

/-- What comes to a free place leaves the ways as they are. -/
theorem keepsWays_put (disk : Disk) {entry : Entry} (free : disk.get? loc = none) :
    KeepsWays disk (disk.put loc entry) := by
  have elsewhere : ∀ other, disk.get? other ≠ none →
      (disk.put loc entry).get? other = disk.get? other := by
    intro other some
    apply get?_put_other
    rintro rfl
    exact some free
  refine ⟨rfl, fun other found => ?_, fun other target found => ?_⟩
  · rw [elsewhere other (by simp [found]), found]
  · rw [elsewhere other (by simp [found]), found]

theorem finds_empty_names (aim : Aim) (links : Nat) (dir : Location) {names : List String}
    (empty : names.all (· = "")) : Finds disk aim links dir names (.present dir .directory) := by
  induction names with
  | nil => exact .here links dir
  | cons name rest ih =>
      simp only [List.all_cons, Bool.and_eq_true, decide_eq_true_eq] at empty
      exact .idle (Or.inr empty.1) (ih empty.2)

/-- Names that led to a free name lead to what has come to it, or to the free name itself. -/
theorem Finds.again (finds : Finds a .self links dir names (.absent base name))
    (keeps : KeepsWays a b) {aim : Aim} (looking : aim ≠ .writing) :
    (b.get? (base ++ [name]) = some .directory →
      Finds b aim links dir names (.present (base ++ [name]) .directory)) ∧
    (b.get? (base ++ [name]) = none → Finds b aim links dir names (.absent base name)) := by
  generalize whole : Spot.absent base name = spot at finds
  -- The way is the same up to the free name.
  induction finds with
  | here => cases whole
  | idle pass _ ih => exact ⟨fun there => .idle pass ((ih whole).1 there),
      fun gone => .idle pass ((ih whole).2 gone)⟩
  | up _ ih => exact ⟨fun there => .up ((ih whole).1 there), fun gone => .up ((ih whole).2 gone)⟩
  | enter ordinary short _ found _ ih =>
      have still := keeps.directory _ found
      exact ⟨fun there => .enter ordinary short (by simp [looking]) still ((ih whole).1 there),
        fun gone => .enter ordinary short (by simp [looking]) still ((ih whole).2 gone)⟩
  | @follow _ _ _ _ rest _ ordinary short _ found onward _ ih =>
      have still := keeps.link _ _ found
      have onwards : ¬ (rest = [] ∧ aim = .self) := fun last => onward ⟨last.1, rfl⟩
      exact ⟨fun there =>
          .follow ordinary short (by simp [looking]) still onwards ((ih whole).1 there),
        fun gone => .follow ordinary short (by simp [looking]) still onwards ((ih whole).2 gone)⟩
  | free ordinary short _ _ empty =>
      cases whole
      exact ⟨fun there => .enter ordinary short (by simp [looking]) there
          (finds_empty_names aim _ _ empty),
        fun gone => .free ordinary short (by simp [looking]) gone empty⟩
  | last => cases whole

variable {path : Path}

theorem locate_again (found : a.locate .self path = .ok (.absent base name))
    (keeps : KeepsWays a b) {aim : Aim} (looking : aim ≠ .writing) :
    (b.get? (base ++ [name]) = some .directory →
      b.locate aim path = .ok (.present (base ++ [name]) .directory)) ∧
    (b.get? (base ++ [name]) = none → b.locate aim path = .ok (.absent base name)) := by
  obtain ⟨short, finds⟩ := locate_eq_ok_iff.mp found
  have same : startOf b.cwd path = startOf a.cwd path := by rw [keeps.cwd]
  obtain ⟨there, gone⟩ := finds.again keeps looking
  constructor
  · exact fun directory => locate_eq_ok_iff.mpr ⟨short, same ▸ there directory⟩
  · exact fun free => locate_eq_ok_iff.mpr ⟨short, same ▸ gone free⟩

/-! ### Files -/

/-- A path leads to a file with some bytes, at a location. -/
def Reads (disk : Disk) (path : Path) (loc : Location) (bytes : ByteArray) : Prop :=
  ∃ executable, disk.locate .target path = .ok (.present loc (.file bytes executable))

variable {bytes : ByteArray}

theorem Reads.stands (reads : Reads a path loc bytes) : Stands a loc bytes := by
  obtain ⟨executable, found⟩ := reads
  exact ⟨executable, ((locate_eq_ok_iff.mp found).2.get?_present (by simp)).2⟩

theorem Reads.unique {other : Location} {more : ByteArray} (first : Reads a path loc bytes)
    (second : Reads a path other more) : loc = other ∧ bytes = more := by
  obtain ⟨_, found⟩ := first
  obtain ⟨_, again⟩ := second
  rw [found] at again
  cases again
  exact ⟨rfl, rfl⟩

theorem Finds.file {aim : Aim} {executable mode : Bool} {new : ByteArray}
    (finds : Finds a aim links dir names (.present loc (.file bytes executable)))
    (keeps : KeepsWays a b) (there : b.get? loc = some (.file new mode)) :
    Finds b aim links dir names (.present loc (.file new mode)) := by
  generalize whole : Spot.present loc (.file bytes executable) = spot at finds
  induction finds with
  | here => cases whole
  | idle pass _ ih => exact .idle pass (ih whole)
  | up _ ih => exact .up (ih whole)
  | enter ordinary short asks found _ ih =>
      exact .enter ordinary short asks (keeps.directory _ found) (ih whole)
  | follow ordinary short asks found onward _ ih =>
      exact .follow ordinary short asks (keeps.link _ _ found) onward (ih whole)
  | free => cases whole
  | last ordinary short =>
      cases whole
      exact .last ordinary short there (by simp) (by simp)

/-- A path that led to a file leads to the file that is there now. -/
theorem Reads.again (reads : Reads a path loc bytes) (keeps : KeepsWays a b) {new : ByteArray}
    (there : Stands b loc new) : Reads b path loc new := by
  obtain ⟨_, found⟩ := reads
  obtain ⟨mode, present⟩ := there
  obtain ⟨short, finds⟩ := locate_eq_ok_iff.mp found
  have same : startOf b.cwd path = startOf a.cwd path := by rw [keeps.cwd]
  exact ⟨mode, locate_eq_ok_iff.mpr ⟨short, same ▸ finds.file keeps present⟩⟩

theorem Reads.grows (reads : Reads a path loc bytes) (growth : Grows a b) :
    ∃ new, Reads b path loc new := by
  obtain ⟨new, there⟩ := growth.stands reads.stands
  exact ⟨new, reads.again growth.keepsWays there⟩

/-- A file outside the tree that is filled is read as before. -/
theorem Reads.fills (reads : Reads a path loc bytes) (fills : Fills base a b)
    (outside : ¬ base <+: loc) : Reads b path loc bytes :=
  reads.again fills.grows.keepsWays ((fills.beside loc outside).stands reads.stands)

/-- A file outside the tree that is filled holds in the end what is read in the meantime, and held it
at the start if it was there. -/
theorem Reads.around (reads : Reads b path loc bytes) (ahead : Fills base a b)
    (behind : Fills base b c) : ∃ final, Reads c path loc final ∧
      (¬ base <+: loc → final = bytes ∧ ∀ place old, Reads a path place old → old = final) := by
  obtain ⟨final, last⟩ := reads.grows behind.grows
  refine ⟨final, last, fun outside => ?_⟩
  have kept : final = bytes := (last.unique (reads.fills behind outside)).2
  refine ⟨kept, fun place old begun => ?_⟩
  -- What the path led to before is at the same place.
  obtain ⟨_, still⟩ := begun.grows ahead.grows
  obtain ⟨rfl, -⟩ := still.unique reads
  rw [kept]
  exact ((begun.fills ahead outside).unique reads).2

/-! ### Trees -/

/-- The directory of a free name that is found is there. -/
theorem Finds.parent (founded : Founded disk) {aim : Aim}
    (finds : Finds disk aim links dir names (.absent base name))
    (start : disk.get? dir = some .directory) : disk.get? base = some .directory := by
  generalize whole : Spot.absent base name = spot at finds
  induction finds with
  | here => cases whole
  | idle _ _ ih => exact ih start whole
  | up _ ih => exact ih (founded.above_of_prefix start (List.dropLast_prefix _)) whole
  | enter _ _ _ found _ ih => exact ih found whole
  | follow _ _ _ _ _ _ ih =>
      apply ih _ whole
      unfold startOf
      split
      · exact start
      · rfl
  | free =>
      cases whole
      exact start
  | last => cases whole

theorem Founded.put_directory (founded : Founded disk)
    (parent : disk.get? base = some .directory) :
    Founded (disk.put (base ++ [name]) .directory) := by
  have kept : ∀ loc, disk.get? loc = some .directory →
      (disk.put (base ++ [name]) .directory).get? loc = some .directory := by
    intro loc found
    by_cases here : loc = base ++ [name]
    · rw [here]
      exact get?_put_same disk _ (by simp)
    · rwa [get?_put_other disk _ here]
  refine ⟨kept _ founded.cwd, fun loc last entry found => ?_⟩
  by_cases here : loc ++ [last] = base ++ [name]
  · obtain ⟨rfl, -⟩ := List.append_inj' here rfl
    exact kept _ parent
  · rw [get?_put_other disk _ here] at found
    exact kept _ (founded.parent loc last entry found)

/-- A tree that is taken away leaves all else. -/
theorem get?_erase (disk : Disk) {top : Location} (below : top ≠ []) (loc : Location) :
    (disk.erase top).get? loc = if top <+: loc then none else disk.get? loc := by
  have rows : ∀ table : List (Location × Entry),
      lookup loc (table.filter fun row => !top.isPrefixOf row.1) =
        if top <+: loc then none else lookup loc table := by
    intro table
    induction table with
    | nil => simp [lookup]
    | cons row rest ih =>
        obtain ⟨key, entry⟩ := row
        have test : top.isPrefixOf key = decide (top <+: key) := by
          rw [Bool.eq_iff_iff, List.isPrefixOf_iff_prefix, decide_eq_true_iff]
        rw [List.filter_cons, lookup, test]
        by_cases same : key = loc
        · subst same
          by_cases inside : top <+: key
          · simp [inside, ih]
          · simp [inside, lookup]
        · by_cases inside : top <+: key
          · simp [inside, same, ih]
          · simp [inside, same, lookup, ih]
  cases loc with
  | nil => simp [get?, below]
  | cons first rest => exact rows disk.entries

end Emplace.Disk

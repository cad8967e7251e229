import Emplace.Proofs.Disk.Sound

/-!
How a disk changes while outputs are put in place. Directories and links stay what they are, a file
stays a file, and what is new is a directory or a plain file. `SameOff` says where nothing changes.
-/
namespace Emplace

/-- What can become of the entry at a location. -/
inductive Entry.Becomes : Option Entry → Option Entry → Prop where
  | same (place : Option Entry) : Becomes place place
  | made : Becomes none (some .directory)
  | written (bytes : ByteArray) : Becomes none (some (.file bytes false))
  | rewritten (old new : ByteArray) (executable : Bool) :
      Becomes (some (.file old executable)) (some (.file new executable))

theorem Entry.Becomes.trans {a b c : Option Entry} (first : Becomes a b) (second : Becomes b c) :
    Becomes a c := by
  cases first with
  | same => exact second
  | made =>
      cases second with
      | same => exact .made
  | written bytes =>
      cases second with
      | same => exact .written bytes
      | rewritten _ new => exact .written new
  | rewritten old _ executable =>
      cases second with
      | same => exact .rewritten old _ executable
      | rewritten _ new => exact .rewritten old new executable

theorem Entry.Becomes.directory {place : Option Entry}
    (becomes : Becomes (some .directory) place) : place = some .directory := by
  cases becomes
  rfl

theorem Entry.Becomes.link_iff {before after : Option Entry} (becomes : Becomes before after)
    (target : String) : after = some (.link target) ↔ before = some (.link target) := by
  cases becomes <;> simp

theorem Entry.Becomes.isSome {before after : Option Entry} (becomes : Becomes before after)
    (some : before.isSome) : after.isSome := by
  cases becomes with
  | same => exact some
  | made => cases some
  | written => cases some
  | rewritten => rfl

namespace Disk

structure Grows (before after : Disk) : Prop where
  cwd : after.cwd = before.cwd
  places : ∀ loc, Entry.Becomes (before.get? loc) (after.get? loc)
  once : (before.entries.map (·.1)).Nodup → (after.entries.map (·.1)).Nodup

variable {a b c : Disk}

theorem Grows.refl (disk : Disk) : Grows disk disk := ⟨rfl, fun _ => .same _, fun once => once⟩

theorem Grows.trans (first : Grows a b) (second : Grows b c) : Grows a c :=
  ⟨second.cwd.trans first.cwd, fun loc => (first.places loc).trans (second.places loc),
    fun once => second.once (first.once once)⟩

theorem Grows.directory (grows : Grows a b) {loc : Location}
    (found : a.get? loc = some .directory) : b.get? loc = some .directory :=
  (found ▸ grows.places loc).directory

theorem Grows.link_iff (grows : Grows a b) (loc : Location) (target : String) :
    b.get? loc = some (.link target) ↔ a.get? loc = some (.link target) :=
  (grows.places loc).link_iff target

theorem grows_put_directory (disk : Disk) {loc : Location} (free : disk.get? loc = none) :
    Grows disk (disk.put loc .directory) := by
  have below : loc ≠ [] := by
    rintro rfl
    cases free
  refine ⟨rfl, fun other => ?_, keys_put_nodup loc _⟩
  by_cases here : other = loc
  · subst here
    rw [get?_put_same disk _ below, free]
    exact .made
  · rw [get?_put_other disk _ here]
    exact .same _

theorem grows_put_file (disk : Disk) {loc : Location} {bytes : ByteArray} {executable : Bool}
    (below : loc ≠ [])
    (place : disk.get? loc = none ∧ executable = false ∨
      ∃ old, disk.get? loc = some (.file old executable)) :
    Grows disk (disk.put loc (.file bytes executable)) := by
  refine ⟨rfl, fun other => ?_, keys_put_nodup loc _⟩
  by_cases here : other = loc
  · subst here
    rw [get?_put_same disk _ below]
    rcases place with ⟨free, rfl⟩ | ⟨old, found⟩
    · rw [free]
      exact .written bytes
    · rw [found]
      exact .rewritten old bytes executable
  · rw [get?_put_other disk _ here]
    exact .same _

/-! ### Single places -/

/-- A place that is as before, or a free one that a directory has come to. -/
def Spared (before after : Disk) (loc : Location) : Prop :=
  after.get? loc = before.get? loc ∨
    before.get? loc = none ∧ after.get? loc = some .directory

/-- A file with some bytes stands at a location. -/
def Stands (disk : Disk) (loc : Location) (bytes : ByteArray) : Prop :=
  ∃ executable, disk.get? loc = some (.file bytes executable)

instance (disk : Disk) (loc : Location) (bytes : ByteArray) : Decidable (Stands disk loc bytes) :=
  decidable_of_iff (disk.get? loc = some (.file bytes false) ∨ disk.get? loc = some (.file bytes true))
    (by simp [Stands])

variable {loc : Location} {bytes : ByteArray}

theorem Spared.trans (early : Spared a b loc) (late : Spared b c loc) : Spared a c loc := by
  rcases late with kept | ⟨free, made⟩
  · rcases early with same | ⟨free, made⟩
    · exact Or.inl (kept.trans same)
    · exact Or.inr ⟨free, kept.trans made⟩
  · rcases early with same | ⟨_, directory⟩
    · exact Or.inr ⟨same ▸ free, made⟩
    · rw [free] at directory
      cases directory

theorem spared_put_directory (disk : Disk) (free : disk.get? loc = none) (other : Location) :
    Spared disk (disk.put loc .directory) other := by
  have below : loc ≠ [] := by
    rintro rfl
    cases free
  by_cases here : other = loc
  · subst here
    exact Or.inr ⟨free, get?_put_same disk _ below⟩
  · exact Or.inl (get?_put_other disk _ here)

theorem Stands.unique {other : ByteArray} (first : Stands a loc bytes)
    (second : Stands a loc other) : bytes = other := by
  obtain ⟨_, found⟩ := first
  obtain ⟨_, again⟩ := second
  rw [found] at again
  cases again
  rfl

theorem Spared.stands (spared : Spared a b loc) (there : Stands a loc bytes) :
    Stands b loc bytes := by
  obtain ⟨executable, found⟩ := there
  rcases spared with same | ⟨free, _⟩
  · exact ⟨executable, same.trans found⟩
  · rw [found] at free
    cases free

theorem Grows.stands (growth : Grows a b) (there : Stands a loc bytes) :
    ∃ new, Stands b loc new := by
  obtain ⟨executable, found⟩ := there
  have becomes := growth.places loc
  rw [found] at becomes
  generalize after : b.get? loc = place at becomes
  cases becomes with
  | same => exact ⟨bytes, executable, after⟩
  | rewritten _ new => exact ⟨new, executable, after⟩

/-! ### Regions -/

/-- A disk that has grown, where files are new or rewritten in the tree at `base` alone. -/
structure Fills (base : Location) (before after : Disk) : Prop where
  grows : Grows before after
  beside : ∀ loc, ¬ base <+: loc → Spared before after loc

variable {base : Location}

theorem Fills.refl (base : Location) (disk : Disk) : Fills base disk disk :=
  ⟨.refl disk, fun _ _ => Or.inl rfl⟩

theorem Fills.trans (first : Fills base a b) (second : Fills base b c) : Fills base a c :=
  ⟨first.grows.trans second.grows,
    fun loc outside => (first.beside loc outside).trans (second.beside loc outside)⟩

/-- Two disks that hold the same at every location outside a region. -/
def SameOff (region : Location → Prop) (a b : Disk) : Prop :=
  ∀ loc, ¬ region loc → b.get? loc = a.get? loc

variable {region : Location → Prop}

theorem SameOff.refl (region : Location → Prop) (disk : Disk) : SameOff region disk disk :=
  fun _ _ => rfl

theorem SameOff.trans (first : SameOff region a b) (second : SameOff region b c) :
    SameOff region a c :=
  fun loc outside => (second loc outside).trans (first loc outside)

theorem sameOff_put (disk : Disk) {loc : Location} (entry : Entry) (inside : region loc) :
    SameOff region disk (disk.put loc entry) := by
  intro other outside
  apply get?_put_other
  rintro rfl
  exact outside inside

end Disk
end Emplace

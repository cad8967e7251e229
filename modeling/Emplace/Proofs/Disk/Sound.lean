import Emplace.Disk
import Mathlib.Data.List.Induction
import Mathlib.Data.List.Nodup

/-!
Disks as a file system keeps them: every entry stands in a directory under a name of its own, and no
location has two entries. A name that a path can ask for by itself is neither empty nor one of the
two dot names.
-/
namespace Emplace

/-- A name that stands for an entry and not for a way through the tree. -/
def Ordinary (name : String) : Prop := name ≠ "" ∧ name ≠ "." ∧ name ≠ ".."

instance (name : String) : Decidable (Ordinary name) := by
  unfold Ordinary
  infer_instance

/-- A name that an entry can have. -/
def Nameable (name : String) : Prop :=
  Ordinary name ∧ '/' ∉ name.toList ∧ '\x00' ∉ name.toList

instance (name : String) : Decidable (Nameable name) := by
  unfold Nameable
  infer_instance

namespace Disk

structure Sound (disk : Disk) : Prop where
  cwd : disk.get? disk.cwd = some .directory
  rows : ∀ row ∈ disk.entries,
    Nameable (row.1.getLastD "") ∧ disk.get? row.1.dropLast = some .directory
  once : (disk.entries.map (·.1)).Nodup

theorem sound_iff (disk : Disk) : Sound disk ↔
    disk.get? disk.cwd = some .directory ∧
      (∀ row ∈ disk.entries,
        Nameable (row.1.getLastD "") ∧ disk.get? row.1.dropLast = some .directory) ∧
      (disk.entries.map (·.1)).Nodup :=
  ⟨fun sound => ⟨sound.cwd, sound.rows, sound.once⟩,
    fun parts => ⟨parts.1, parts.2.1, parts.2.2⟩⟩

instance (disk : Disk) : Decidable (Sound disk) := decidable_of_iff _ (sound_iff disk).symm

theorem mem_of_lookup {loc : Location} {entry : Entry} {table : List (Location × Entry)}
    (found : lookup loc table = some entry) : (loc, entry) ∈ table := by
  induction table with
  | nil => cases found
  | cons row rest ih =>
      obtain ⟨key, value⟩ := row
      by_cases same : key = loc
      · subst same
        simp only [lookup, if_true, Option.some.injEq] at found
        simp [found]
      · rw [lookup, if_neg same] at found
        exact List.mem_cons_of_mem _ (ih found)

theorem lookup_isSome_of_mem {loc : Location} {table : List (Location × Entry)}
    (member : loc ∈ table.map (·.1)) : (lookup loc table).isSome := by
  induction table with
  | nil => cases member
  | cons row rest ih =>
      by_cases same : row.1 = loc
      · simp [lookup, same]
      · rw [lookup, if_neg same]
        apply ih
        simpa [Ne.symm same] using member

theorem get?_isSome_of_mem {disk : Disk} {loc : Location}
    (member : loc ∈ disk.entries.map (·.1)) : (disk.get? loc).isSome := by
  cases loc with
  | nil => rfl
  | cons name rest => exact lookup_isSome_of_mem member

theorem mem_of_get? {disk : Disk} {loc : Location} {name : String} {entry : Entry}
    (found : disk.get? (loc ++ [name]) = some entry) : (loc ++ [name], entry) ∈ disk.entries := by
  cases whole : loc ++ [name] with
  | nil => simp at whole
  | cons head rest =>
      rw [whole] at found
      exact mem_of_lookup found

theorem mem_of_get?_link {disk : Disk} {loc : Location} {target : String}
    (found : disk.get? loc = some (.link target)) : (loc, .link target) ∈ disk.entries := by
  cases loc with
  | nil => cases found
  | cons name rest => exact mem_of_lookup found

variable {disk : Disk}

theorem Sound.parent (sound : Sound disk) {loc : Location} {name : String} {entry : Entry}
    (found : disk.get? (loc ++ [name]) = some entry) :
    Nameable name ∧ disk.get? loc = some .directory := by
  have row := sound.rows _ (mem_of_get? found)
  simpa using row

/-- A disk on which every entry stands in a directory, and so does a run. -/
structure Founded (disk : Disk) : Prop where
  cwd : disk.get? disk.cwd = some .directory
  parent : ∀ loc name entry, disk.get? (loc ++ [name]) = some entry →
    disk.get? loc = some .directory

theorem Sound.founded (sound : Sound disk) : Founded disk :=
  ⟨sound.cwd, fun _ _ _ found => (sound.parent found).2⟩

/-- Everything above an entry is a directory. -/
theorem Founded.above (founded : Founded disk) {loc : Location} (more : Location) {entry : Entry}
    (found : disk.get? (loc ++ more) = some entry) (below : more ≠ []) :
    disk.get? loc = some .directory := by
  induction more using List.reverseRecOn generalizing entry with
  | nil => exact absurd rfl below
  | append_singleton front name ih =>
      rw [← List.append_assoc] at found
      have here := founded.parent _ _ _ found
      by_cases empty : front = []
      · simpa [empty] using here
      · exact ih here empty

theorem Founded.above_of_prefix (founded : Founded disk) {top loc : Location}
    (found : disk.get? loc = some .directory) (upTo : top <+: loc) :
    disk.get? top = some .directory := by
  obtain ⟨more, rfl⟩ := upTo
  by_cases empty : more = []
  · simpa [empty] using found
  · exact founded.above more found empty

theorem Sound.above (sound : Sound disk) {loc : Location} (more : Location) {entry : Entry}
    (found : disk.get? (loc ++ more) = some entry) (below : more ≠ []) :
    disk.get? loc = some .directory :=
  sound.founded.above more found below

theorem Sound.above_of_prefix (sound : Sound disk) {top loc : Location}
    (found : disk.get? loc = some .directory) (upTo : top <+: loc) :
    disk.get? top = some .directory :=
  sound.founded.above_of_prefix found upTo

/-- Nothing lies at or below a free place. -/
theorem Founded.free_below (founded : Founded disk) {loc : Location}
    (free : disk.get? loc = none) (more : Location) : disk.get? (loc ++ more) = none := by
  by_cases here : more = []
  · simpa [here] using free
  · by_contra some
    obtain ⟨entry, found⟩ := Option.ne_none_iff_exists'.mp some
    rw [founded.above more found here] at free
    cases free

theorem Sound.nameable (sound : Sound disk) {loc : Location} {entry : Entry}
    (found : disk.get? loc = some entry) : ∀ name ∈ loc, Nameable name := by
  induction loc using List.reverseRecOn generalizing entry with
  | nil => simp
  | append_singleton front last ih =>
      obtain ⟨good, here⟩ := sound.parent found
      intro name member
      rcases List.mem_append.mp member with early | late
      · exact ih here name early
      · rw [List.mem_singleton.mp late]
        exact good

/-! ### The names in a directory -/

theorem nameIn?_eq_some_iff (dir loc : Location) (name : String) :
    nameIn? dir loc = some name ↔ loc = dir ++ [name] := by
  induction dir generalizing loc with
  | nil =>
      cases loc with
      | nil => simp [nameIn?]
      | cons head rest => cases rest <;> simp [nameIn?]
  | cons top below ih =>
      cases loc with
      | nil => simp [nameIn?]
      | cons head rest =>
          by_cases same : top = head
          · subst same
            simp [nameIn?, ih]
          · simp [nameIn?, same, Ne.symm same]

theorem mem_names_iff (disk : Disk) (dir : Location) (name : String) :
    name ∈ disk.names dir ↔ (disk.get? (dir ++ [name])).isSome := by
  simp only [names, List.mem_filterMap, nameIn?_eq_some_iff]
  constructor
  · rintro ⟨row, member, same⟩
    have key : dir ++ [name] ∈ disk.entries.map (·.1) := same ▸ List.mem_map_of_mem member
    exact get?_isSome_of_mem key
  · intro some
    obtain ⟨entry, found⟩ := Option.isSome_iff_exists.mp some
    exact ⟨_, mem_of_get? found, rfl⟩

theorem names_nodup (disk : Disk) (once : (disk.entries.map (·.1)).Nodup) (dir : Location) :
    (disk.names dir).Nodup := by
  have same : disk.names dir = (disk.entries.map (·.1)).filterMap (nameIn? dir) := by
    simp [names, List.filterMap_map]
  rw [same]
  apply once.filterMap
  intro a b name inA inB
  rw [Option.mem_def, nameIn?_eq_some_iff] at inA inB
  rw [inA, inB]

/-! ### Tables after an assignment -/

theorem keys_assign (loc : Location) (entry : Entry) (table : List (Location × Entry)) :
    (assign loc entry table).map (·.1) =
      if loc ∈ table.map (·.1) then table.map (·.1) else table.map (·.1) ++ [loc] := by
  induction table with
  | nil => simp [assign]
  | cons row rest ih =>
      obtain ⟨key, old⟩ := row
      by_cases same : key = loc
      · simp [assign, same]
      · simp only [assign, same, if_false, List.map_cons, ih, List.mem_cons, Ne.symm same, false_or]
        split <;> simp

theorem keys_put_nodup (loc : Location) (entry : Entry)
    (once : (disk.entries.map (·.1)).Nodup) :
    ((disk.put loc entry).entries.map (·.1)).Nodup := by
  simp only [put, keys_assign]
  split
  · exact once
  · rename_i fresh
    simpa using List.Nodup.concat fresh once

end Disk
end Emplace

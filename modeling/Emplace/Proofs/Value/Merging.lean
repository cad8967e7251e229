import Emplace.Proofs.Value.Keys
import Emplace.Value.Merge

/-!
Looking keys up in merged mappings. A key of the base is still there, with its own value or with
what the update makes of it; a new key has the value of the update and comes behind.
-/
namespace Emplace.Value

variable {Item : Type} {key : Value} {base update : Entries}

theorem find?_append (key : Value) (entries more : List (Value × Item)) :
    find? key (entries ++ more) = (find? key entries).or (find? key more) := by
  induction entries with
  | nil => rfl
  | cons entry rest ih =>
      obtain ⟨k, v⟩ := entry
      by_cases same : sameKey k key = true
      · simp [find?, same]
      · simpa [find?, same] using ih

/-- What an update leaves in the place of a value under a key. -/
def updated (update : Entries) (key value : Value) : Value :=
  match find? key update with
  | none => value
  | some new => mergeOver value new

theorem overlaid_eq_map (update base : Entries) :
    overlaid update base = base.map fun entry => (entry.1, updated update entry.1 entry.2) := by
  induction base with
  | nil => rfl
  | cons entry rest ih =>
      rw [overlaid, ih]
      rfl

/-- The value that a key of the base has once an update is put over it. -/
theorem find?_overlaid (update base : Entries) (key : Value) :
    find? key (overlaid update base) = (find? key base).map (updated update key) := by
  rw [overlaid_eq_map]
  induction base with
  | nil => rfl
  | cons entry rest ih =>
      obtain ⟨k, v⟩ := entry
      by_cases same : sameKey k key = true
      · simp [find?, same, updated, find?_congr same update]
      · simpa [find?, same] using ih

/-- A key that the base does not have is looked up in the update. -/
theorem find?_added (absent : find? key base = none) (update : Entries) :
    find? key (added base update) = find? key update := by
  induction update with
  | nil => rfl
  | cons entry rest ih =>
      obtain ⟨k, v⟩ := entry
      rw [added] at ih ⊢
      by_cases same : sameKey k key = true
      · simp [find?_congr same, absent, find?, same]
      · cases known : find? k base with
        | none => simpa [known, find?, same] using ih
        | some old => simpa [known, find?, same] using ih

/-- A key of the base is kept by every merge. -/
theorem find?_mergeEntries_of_some {value : Value} (found : find? key base = some value)
    (update : Entries) : find? key (mergeEntries base update) = some (updated update key value) := by
  rw [mergeEntries, find?_append, find?_overlaid, found]
  rfl

theorem find?_mergeEntries_of_none (absent : find? key base = none) (update : Entries) :
    find? key (mergeEntries base update) = find? key update := by
  rw [mergeEntries, find?_append, find?_overlaid, absent, find?_added absent]
  rfl

/-- The keys of a merge are those of the base, and then the new ones of the update. -/
theorem keys_mergeEntries (base update : Entries) :
    (mergeEntries base update).map (·.1) =
      base.map (·.1) ++ (update.map (·.1)).filter fun key => (find? key base).isNone := by
  rw [mergeEntries, List.map_append, overlaid_eq_map, List.map_map, added, List.filter_map]
  rfl

end Emplace.Value

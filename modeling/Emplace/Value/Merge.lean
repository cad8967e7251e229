import Emplace.Value

/-!
Settings over settings. Mappings under the same key are merged entry by entry; everything else in
the update takes the place of what was there. Keys keep the order of the base, new ones follow.
-/
namespace Emplace.Value

def added (base update : Entries) : Entries :=
  update.filter fun entry => (find? entry.1 base).isNone

mutual

/-- The base entries, each with what the update has under its key put over it. -/
def overlaid (update : Entries) : Entries → Entries
  | [] => []
  | (key, value) :: rest =>
    let value := match find? key update with
      | none => value
      | some new => mergeOver value new
    (key, value) :: overlaid update rest

/-- The value that an updating value leaves in the place of the present one. -/
def mergeOver : Value → Value → Value
  | map base, update =>
    match update.entries? with
    | some entries => map (overlaid entries base ++ added base entries)
    | none => update
  | _, update => update

end

def mergeEntries (base update : Entries) : Entries :=
  overlaid update base ++ added base update

theorem overlaid_nil (base : Entries) : overlaid [] base = base := by
  induction base with
  | nil => rfl
  | cons entry rest ih => simp [overlaid, find?, ih]

theorem mergeEntries_nil (base : Entries) : mergeEntries base [] = base := by
  simp [mergeEntries, overlaid_nil, added]

theorem mergeOver_map (base update : Entries) :
    mergeOver (map base) (map update) = map (mergeEntries base update) := by
  simp [mergeOver, entries?_map, mergeEntries]

end Emplace.Value

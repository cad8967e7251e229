import Emplace.Sorting
import Mathlib.Data.List.Perm.Basic

/-!
Sorting gives the same items in another order, in which the keys ascend.
-/
namespace Emplace.Sorting

variable {Item : Type}

theorem insert_perm (key : Item → String) (item : Item) (items : List Item) :
    (insert key item items).Perm (item :: items) := by
  induction items with
  | nil => exact .refl _
  | cons head rest ih =>
      rw [insert]
      split
      · exact .refl _
      · exact (ih.cons head).trans (.swap item head rest)

theorem sortBy_perm (key : Item → String) (items : List Item) :
    (sortBy key items).Perm items := by
  have onto : ∀ sorted : List Item,
      (items.foldl (fun sorted item => insert key item sorted) sorted).Perm (items ++ sorted) := by
    induction items with
    | nil => exact fun sorted => .refl _
    | cons item rest ih =>
        intro sorted
        apply (ih _).trans
        apply ((insert_perm key item sorted).append_left rest).trans
        exact List.perm_middle
  simpa [sortBy] using onto []

theorem sorted_perm (texts : List String) : (sorted texts).Perm texts :=
  sortBy_perm _ texts

theorem insert_ascending (key : Item → String) (item : Item) {items : List Item}
    (ascending : items.Pairwise fun a b => key a ≤ key b) :
    (insert key item items).Pairwise fun a b => key a ≤ key b := by
  induction items with
  | nil => simp [insert]
  | cons head rest ih =>
      obtain ⟨first, later⟩ := List.pairwise_cons.mp ascending
      rw [insert]
      split
      · rename_i before
        have low : key item ≤ key head := String.not_lt.mp (String.lt_asymm before)
        refine List.pairwise_cons.mpr ⟨?_, ascending⟩
        intro other member
        rcases List.mem_cons.mp member with rfl | inRest
        · exact low
        · exact String.le_trans low (first other inRest)
      · rename_i notBefore
        refine List.pairwise_cons.mpr ⟨?_, ih later⟩
        intro other member
        rcases (mem_insert key item other rest).mp member with rfl | inRest
        · exact String.not_lt.mp notBefore
        · exact first other inRest

theorem sortBy_ascending (key : Item → String) (items : List Item) :
    (sortBy key items).Pairwise fun a b => key a ≤ key b := by
  have onto : ∀ sorted : List Item, (sorted.Pairwise fun a b => key a ≤ key b) →
      (items.foldl (fun sorted item => insert key item sorted) sorted).Pairwise
        fun a b => key a ≤ key b := by
    induction items with
    | nil => exact fun sorted ascending => ascending
    | cons item rest ih => exact fun sorted ascending => ih _ (insert_ascending key item ascending)
  exact onto [] .nil

/-- Items with different keys have only one order in which the keys ascend. -/
theorem eq_of_ascending (key : Item → String) {items other : List Item} (perm : items.Perm other)
    (first : items.Pairwise fun a b => key a < key b)
    (second : other.Pairwise fun a b => key a < key b) : items = other :=
  perm.eq_of_pairwise (fun _ _ _ _ below above => absurd above (String.lt_asymm below)) first second

/-- Texts have only one order in which they ascend. -/
theorem sorted_eq_of_perm {texts other : List String} (perm : texts.Perm other) :
    sorted texts = sorted other :=
  ((sorted_perm texts).trans (perm.trans (sorted_perm other).symm)).eq_of_pairwise
    (fun _ _ _ _ below above => String.le_antisymm below above)
    (sortBy_ascending _ texts) (sortBy_ascending _ other)

end Emplace.Sorting

/-!
Sorting by a text key, in the order of code points. Equal keys keep their order.
-/
namespace Emplace.Sorting

variable {Item : Type}

/-- Puts an item before the first one whose key is greater. -/
def insert (key : Item → String) (item : Item) : List Item → List Item
  | [] => [item]
  | head :: rest =>
    if key item < key head then item :: head :: rest else head :: insert key item rest

def sortBy (key : Item → String) : List Item → List Item
  | items => items.foldl (fun sorted item => insert key item sorted) []

def sorted (texts : List String) : List String := sortBy (fun text => text) texts

theorem mem_insert (key : Item → String) (item other : Item) (items : List Item) :
    other ∈ insert key item items ↔ other = item ∨ other ∈ items := by
  induction items with
  | nil => simp [insert]
  | cons head rest ih =>
    unfold insert
    split
    · simp
    · simp only [List.mem_cons, ih]
      constructor
      · rintro (h | h | h) <;> simp [h]
      · rintro (h | h | h) <;> simp [h]

end Emplace.Sorting

import Emplace.Disk.Calls
import Emplace.Proofs.Disk.Sound
import Emplace.Proofs.Text.Pieces

/-!
Path texts without redundant parts. Such a text and the names in it say the same: cutting it at the
slashes gives the names, and joining names that have no slash gives a text that is cut into them.
-/
namespace Emplace

theorem Path.eq_here {path : Path} (anchor : path.anchor = .here) :
    path = ⟨.here, path.names⟩ := by
  obtain ⟨kind, names⟩ := path
  cases anchor
  rfl

/-- A relative path text whose pieces are all names. -/
def Normal (text : String) : Prop := ∀ piece ∈ Text.split '/' text, Ordinary piece

instance (text : String) : Decidable (Normal text) := by
  unfold Normal
  infer_instance

theorem Normal.ofString {text : String} (normal : Normal text) :
    Path.ofString text = ⟨.here, Text.split '/' text⟩ := by
  have anchor : Anchor.ofChars text.toList = .here := by
    unfold Anchor.ofChars
    split
    all_goals first | rfl | skip
    all_goals
      rename_i same
      have first : "" ∈ Text.split '/' text := by simp [Text.split, same, Text.pieces]
      exact absurd rfl (normal "" first).1
  have kept : (Text.split '/' text).filter Path.keeps = Text.split '/' text := by
    rw [List.filter_eq_self]
    intro piece member
    have ordinary := normal piece member
    simp [Path.keeps, ordinary.1, ordinary.2.1]
  rw [Path.ofString, anchor, kept]

/-- The text of a relative path with names that entries can have. -/
theorem split_text {names : List String} (some : names ≠ [])
    (nameable : ∀ name ∈ names, Nameable name) :
    Text.split '/' (Path.mk .here names).text = names := by
  have text : (Path.mk .here names).text = Text.join "/" names := by
    simp [Path.text, some, Anchor.text]
  rw [text, Text.split_join some fun name member => (nameable name member).2.1]

theorem normal_text {names : List String} (some : names ≠ [])
    (nameable : ∀ name ∈ names, Nameable name) : Normal (Path.mk .here names).text := by
  intro piece member
  rw [split_text some nameable] at member
  exact (nameable piece member).1

/-! ### The character that no name may hold -/

namespace Disk

/-- Names without the character that ends a name for the system. -/
def Clear (names : List String) : Prop := ∀ name ∈ names, '\x00' ∉ name.toList

instance (names : List String) : Decidable (Clear names) := by
  unfold Clear
  infer_instance

theorem hasNull_eq_false_iff (path : Path) : hasNull path = false ↔ Clear path.names := by
  simp [hasNull, Clear, List.any_eq_false]

theorem hasNull_eq_false {path : Path} (clear : ∀ name ∈ path.names, '\x00' ∉ name.toList) :
    hasNull path = false :=
  (hasNull_eq_false_iff path).mpr clear

theorem hasNull_join_of_here {base rel : Path} (anchor : rel.anchor = .here) :
    hasNull (base.join rel) = (hasNull base || hasNull rel) := by
  simp [hasNull, Path.join, anchor]

theorem hasNull_of_join {base rel : Path} (anchor : rel.anchor = .here)
    (clear : hasNull (base.join rel) = false) : hasNull rel = false := by
  rw [hasNull_join_of_here anchor, Bool.or_eq_false_iff] at clear
  exact clear.2

theorem hasNull_join {base child : Path} (first : hasNull base = false)
    (second : hasNull child = false) : hasNull (base.join child) = false := by
  cases anchor : child.anchor with
  | here => simp [hasNull_join_of_here anchor, first, second]
  | root => simpa [Path.join, anchor] using second
  | doubleRoot => simpa [Path.join, anchor] using second

theorem clear_split {text : String} (clear : '\x00' ∉ text.toList) : Clear (Text.split '/' text) :=
  fun _ member inside => clear (Text.mem_of_mem_split member inside)

theorem clear_raw {target : String} (clear : '\x00' ∉ target.toList) :
    Clear (Path.raw target).names := by
  have kept : Clear ((Text.split '/' target).filter (· != "")) := fun name member =>
    clear_split clear name (List.mem_of_mem_filter member)
  unfold Path.raw
  dsimp only
  split
  · intro name member
    rcases List.mem_append.mp member with early | late
    · exact kept name early
    · rw [List.mem_singleton.mp late]
      decide
  · exact kept

theorem hasNull_ofString {text : String} (clear : '\x00' ∉ text.toList) :
    hasNull (Path.ofString text) = false :=
  hasNull_eq_false fun name member => clear_split clear name (List.mem_of_mem_filter member)

end Disk
end Emplace

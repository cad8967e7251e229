import Emplace.Text.Pieces
import Mathlib.Data.List.Basic

/-!
Cutting a text and joining its pieces undo each other, where the pieces do not hold the separator.
-/
namespace Emplace.Text

variable {Sign : Type} [DecidableEq Sign]

theorem pieces_of_not_mem {sep : Sign} {text : List Sign} (absent : sep ∉ text) :
    pieces sep text = [text] := by
  induction text with
  | nil => rfl
  | cons c rest ih =>
      simp only [List.mem_cons, not_or] at absent
      rw [pieces, if_neg (Ne.symm absent.1), ih absent.2]

theorem pieces_around (sep : Sign) (front rest : List Sign) :
    pieces sep (front ++ sep :: rest) = pieces sep front ++ pieces sep rest := by
  induction front with
  | nil => simp [pieces]
  | cons c more ih =>
      rw [List.cons_append, pieces, pieces, ih]
      by_cases here : c = sep
      · simp [here]
      · rw [if_neg here, if_neg here]
        cases cut : pieces sep more with
        | nil => exact absurd cut (pieces_ne_nil sep more)
        | cons piece others => simp

theorem pieces_append {sep : Sign} {piece : List Sign} (absent : sep ∉ piece)
    (rest : List Sign) : pieces sep (piece ++ sep :: rest) = piece :: pieces sep rest := by
  rw [pieces_around, pieces_of_not_mem absent, List.singleton_append]

theorem separator_not_mem_split {sep : Char} {text piece : String}
    (member : piece ∈ split sep text) : sep ∉ piece.toList := by
  obtain ⟨signs, cut, rfl⟩ := List.mem_map.mp member
  simpa using separator_not_mem_pieces sep text.toList signs cut

theorem split_empty (sep : Char) : split sep "" = [""] := rfl

theorem split_slash (front rest : String) :
    split '/' (front ++ "/" ++ rest) = split '/' front ++ split '/' rest := by
  simp [split, pieces_around]

theorem split_slash_front (rest : String) : split '/' ("/" ++ rest) = "" :: split '/' rest := by
  simpa [split_empty] using split_slash "" rest

theorem split_slash_back (front : String) : split '/' (front ++ "/") = split '/' front ++ [""] := by
  simpa [split_empty] using split_slash front ""

theorem split_join {names : List String} (some : names ≠ [])
    (plain : ∀ name ∈ names, '/' ∉ name.toList) : split '/' (join "/" names) = names := by
  induction names with
  | nil => exact absurd rfl some
  | cons name rest ih =>
      have here := plain name List.mem_cons_self
      cases rest with
      | nil => simp [join, split, pieces_of_not_mem here]
      | cons next more =>
          have later := ih (by simp) fun other member => plain other (List.mem_cons_of_mem _ member)
          have whole : (join "/" (name :: next :: more)).toList =
              name.toList ++ '/' :: (join "/" (next :: more)).toList := by
            simp [join, String.toList_append]
          rw [split] at later ⊢
          rw [whole, pieces_append here, List.map_cons, later]
          simp

theorem join_eq_intercalate (sep : String) (parts : List String) :
    join sep parts = sep.intercalate parts := by
  induction parts with
  | nil => rfl
  | cons part rest ih =>
      cases rest with
      | nil => simp [join]
      | cons next more => simp [join, ih, String.intercalate_cons_cons]

theorem toList_join (names : List String) :
    (join "/" names).toList = joined ['/'] (names.map String.toList) := by
  induction names with
  | nil => rfl
  | cons name rest ih =>
      cases rest with
      | nil => rfl
      | cons next more => simp [join, joined, String.toList_append, ih]

theorem join_split (text : String) : join "/" (split '/' text) = text := by
  apply String.toList_inj.mp
  rw [toList_join, split, List.map_map]
  have same : (String.toList ∘ String.ofList) = id := by
    funext piece
    simp
  rw [same, List.map_id, joined_pieces]

theorem split_injective {a b : String} (same : split '/' a = split '/' b) : a = b := by
  rw [← join_split a, same, join_split]

theorem mem_of_mem_pieces {sep sign : Sign} {text piece : List Sign}
    (member : piece ∈ pieces sep text) (inside : sign ∈ piece) : sign ∈ text := by
  induction text generalizing piece with
  | nil => simp_all [pieces]
  | cons c rest ih =>
      unfold pieces at member
      split at member
      · rcases List.mem_cons.mp member with rfl | later
        · cases inside
        · exact List.mem_cons_of_mem _ (ih later inside)
      · cases cut : pieces sep rest with
        | nil => exact absurd cut (pieces_ne_nil sep rest)
        | cons head more =>
            rw [cut] at member ih
            rcases List.mem_cons.mp member with rfl | later
            · rcases List.mem_cons.mp inside with rfl | below
              · exact List.mem_cons_self
              · exact List.mem_cons_of_mem _ (ih List.mem_cons_self below)
            · exact List.mem_cons_of_mem _ (ih (List.mem_cons_of_mem _ later) inside)

theorem mem_of_mem_split {sep sign : Char} {text piece : String} (member : piece ∈ split sep text)
    (inside : sign ∈ piece.toList) : sign ∈ text.toList := by
  obtain ⟨signs, cut, rfl⟩ := List.mem_map.mp member
  exact mem_of_mem_pieces cut (by simpa using inside)

end Emplace.Text

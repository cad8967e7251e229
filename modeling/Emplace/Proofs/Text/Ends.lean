import Emplace.Proofs.Text.Pieces
import Mathlib.Data.List.Infix

/-!
How texts begin and end, and what is left of them without a beginning or an end. What follows the
last occurrence of a sign is the only end of a text that holds none and stands behind one.
-/
namespace Emplace.Text

/-! ### Beginnings and ends -/

theorem startsWith_iff (text start : String) :
    startsWith text start = true ↔ ∃ rest, text = start ++ rest := by
  rw [startsWith, List.isPrefixOf_iff_prefix]
  constructor
  · rintro ⟨rest, same⟩
    refine ⟨String.ofList rest, String.toList_inj.mp ?_⟩
    simp [← same]
  · rintro ⟨rest, rfl⟩
    exact ⟨rest.toList, by simp⟩

theorem endsWith_iff (text tail : String) :
    endsWith text tail = true ↔ ∃ front, text = front ++ tail := by
  rw [endsWith, List.isSuffixOf_iff_suffix]
  constructor
  · rintro ⟨front, same⟩
    refine ⟨String.ofList front, String.toList_inj.mp ?_⟩
    simp [← same]
  · rintro ⟨front, rfl⟩
    exact ⟨front.toList, by simp⟩

theorem dropStart_append (start rest : String) : dropStart (start ++ rest) start = rest := by
  have starts : startsWith (start ++ rest) start = true := (startsWith_iff _ _).mpr ⟨rest, rfl⟩
  rw [dropStart, if_pos starts]
  simp

theorem dropTail_append (front tail : String) : dropTail (front ++ tail) tail = front := by
  have ends : endsWith (front ++ tail) tail = true := (endsWith_iff _ _).mpr ⟨front, rfl⟩
  rw [dropTail, if_pos ends]
  simp

/-- A tail does not reach over a sign that it does not hold. -/
theorem endsWith_behind {sign : Char} {tail : String} (absent : sign ∉ tail.toList)
    (above text : String) :
    endsWith (above ++ String.singleton sign ++ text) tail = endsWith text tail := by
  rw [Bool.eq_iff_iff]
  simp only [endsWith, List.isSuffixOf_iff_suffix, String.toList_append, String.toList_singleton,
    List.append_assoc, List.singleton_append]
  constructor
  · intro ends
    have behind : sign :: text.toList <:+ above.toList ++ sign :: text.toList :=
      List.suffix_append _ _
    rcases List.suffix_or_suffix_of_suffix ends behind with inside | beyond
    · rcases List.suffix_cons_iff.mp inside with whole | below
      · rw [whole] at absent
        exact absurd List.mem_cons_self absent
      · exact below
    · exact absurd (beyond.subset List.mem_cons_self) absent
  · intro ends
    exact ends.trans ((List.suffix_cons sign _).trans (List.suffix_append _ _))

theorem dropTail_behind {sign : Char} {tail : String} (absent : sign ∉ tail.toList)
    (above text : String) :
    dropTail (above ++ String.singleton sign ++ text) tail =
      above ++ String.singleton sign ++ dropTail text tail := by
  have same := endsWith_behind absent above text
  by_cases ends : endsWith text tail = true
  · obtain ⟨front, rfl⟩ := (endsWith_iff text tail).mp ends
    rw [dropTail_append, ← String.append_assoc, dropTail_append]
  · rw [dropTail, if_neg (same ▸ ends), dropTail, if_neg ends]

/-! ### The end behind a sign -/

/-- The end of a text that holds no `sep`, with one in front of it or nothing. -/
def LastPart (sep : Char) (text part : String) : Prop :=
  sep ∉ part.toList ∧ (text = part ∨ ∃ front, text = front ++ String.singleton sep ++ part)

variable {Sign : Type} [DecidableEq Sign]

theorem exists_last_part (sep : Sign) (text : List Sign) :
    ∃ part, sep ∉ part ∧ (text = part ∨ ∃ front, text = front ++ sep :: part) := by
  induction text with
  | nil => exact ⟨[], by simp⟩
  | cons c rest ih =>
      obtain ⟨part, clean, same | ⟨front, same⟩⟩ := ih
      · by_cases here : c = sep
        · exact ⟨part, clean, Or.inr ⟨[], by simp [here, same]⟩⟩
        · refine ⟨c :: part, ?_, Or.inl (by rw [same])⟩
          simp [clean, Ne.symm here]
      · exact ⟨part, clean, Or.inr ⟨c :: front, by simp [same]⟩⟩

theorem exists_lastPart (sep : Char) (text : String) : ∃ part, LastPart sep text part := by
  obtain ⟨part, clean, cut⟩ := exists_last_part sep text.toList
  refine ⟨String.ofList part, by simpa using clean, ?_⟩
  rcases cut with same | ⟨front, same⟩
  · exact Or.inl (String.toList_inj.mp (by simp [same]))
  · exact Or.inr ⟨String.ofList front, String.toList_inj.mp (by simp [same])⟩

theorem afterLast_of_lastPart {sep : Char} {text part : String} (last : LastPart sep text part) :
    afterLast sep text = part := by
  obtain ⟨clean, rfl | ⟨front, rfl⟩⟩ := last
  · simp [afterLast, split, pieces_of_not_mem clean]
  · simp [afterLast, split, pieces_around, pieces_of_not_mem clean]

theorem afterLast_eq_iff (sep : Char) (text part : String) :
    afterLast sep text = part ↔ LastPart sep text part := by
  constructor
  · rintro rfl
    obtain ⟨part, last⟩ := exists_lastPart sep text
    rw [afterLast_of_lastPart last]
    exact last
  · exact afterLast_of_lastPart

end Emplace.Text

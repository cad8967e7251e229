/-!
Text cut at a separating character and put together again. Cutting always gives at least one
piece, no piece holds the separator, and joining the pieces gives the text back.
-/
namespace Emplace.Text

variable {Sign : Type} [DecidableEq Sign]

def pieces (sep : Sign) : List Sign → List (List Sign)
  | [] => [[]]
  | c :: rest =>
    if c = sep then [] :: pieces sep rest
    else match pieces sep rest with
      | [] => [[c]]
      | piece :: more => (c :: piece) :: more

def joined {Sign : Type} (sep : List Sign) : List (List Sign) → List Sign
  | [] => []
  | [piece] => piece
  | piece :: more => piece ++ sep ++ joined sep more

def split (sep : Char) (text : String) : List String :=
  (pieces sep text.toList).map String.ofList

def join (sep : String) : List String → String
  | [] => ""
  | [piece] => piece
  | piece :: more => piece ++ sep ++ join sep more

def startsWith (text start : String) : Bool :=
  start.toList.isPrefixOf text.toList

def endsWith (text tail : String) : Bool :=
  tail.toList.isSuffixOf text.toList

/-- The text without `start` in front, or the text itself where it begins otherwise. -/
def dropStart (text start : String) : String :=
  if startsWith text start then String.ofList (text.toList.drop start.toList.length) else text

/-- The text without `tail` at its end, or the text itself where it ends otherwise. -/
def dropTail (text tail : String) : String :=
  if endsWith text tail then
    String.ofList (text.toList.take (text.toList.length - tail.toList.length))
  else text

/-- The text after the last occurrence of `sep`, the whole text where there is none. -/
def afterLast (sep : Char) (text : String) : String :=
  (split sep text).getLastD ""

theorem pieces_ne_nil (sep : Sign) (text : List Sign) : pieces sep text ≠ [] := by
  cases text with
  | nil => simp [pieces]
  | cons c rest =>
    unfold pieces
    split
    · simp
    · split <;> simp

theorem joined_pieces (sep : Sign) (text : List Sign) :
    joined [sep] (pieces sep text) = text := by
  induction text with
  | nil => rfl
  | cons c rest ih =>
    unfold pieces
    split
    · rename_i same
      have nonempty := pieces_ne_nil sep rest
      cases cut : pieces sep rest with
      | nil => exact absurd cut nonempty
      | cons piece more => simp [joined, cut ▸ ih, same]
    · cases cut : pieces sep rest with
      | nil => exact absurd cut (pieces_ne_nil sep rest)
      | cons piece more =>
        rw [cut] at ih
        cases more with
        | nil => simpa [joined] using ih
        | cons next others => simpa [joined] using ih

theorem separator_not_mem_pieces (sep : Sign) (text : List Sign) :
    ∀ piece ∈ pieces sep text, sep ∉ piece := by
  induction text with
  | nil => simp [pieces]
  | cons c rest ih =>
    unfold pieces
    split
    · intro piece member
      rcases List.mem_cons.mp member with rfl | later
      · simp
      · exact ih piece later
    · rename_i other
      cases cut : pieces sep rest with
      | nil => exact absurd cut (pieces_ne_nil sep rest)
      | cons head more =>
        rw [cut] at ih
        intro piece member
        rcases List.mem_cons.mp member with rfl | later
        · have absent := ih head (by simp)
          simp only [List.mem_cons, not_or]
          exact ⟨fun same => other same.symm, absent⟩
        · exact ih piece (List.mem_cons_of_mem _ later)

end Emplace.Text

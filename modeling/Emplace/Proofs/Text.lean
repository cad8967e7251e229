import Emplace.Proofs.Path
import Emplace.Text.Lines
import Emplace.Text.Words

/-!
Lines and words of a text. Lines that each have an end are cut where they end, whichever way it is
written, and the words of a line can be read exactly where all its quotes and escapes are closed.
-/
namespace Emplace.Text

/-! ### Lines -/

instance (text : List Char) : Decidable (IsOneLine text) := by
  unfold IsOneLine
  infer_instance

/-- The ways in which the lines of a file can end. -/
inductive LineEnd where
  | feed
  | returnFeed
  deriving DecidableEq, Repr

def LineEnd.signs : LineEnd → List Char
  | .feed => ['\n']
  | .returnFeed => ['\r', '\n']

/-- The text of lines that each have an end. -/
def ended (ending : LineEnd) (lines : List (List Char)) : List Char :=
  lines.flatMap (· ++ ending.signs)

theorem unified_append {line : List Char} (clean : '\r' ∉ line) (rest : List Char) :
    unified (line ++ rest) = line ++ unified rest := by
  induction line with
  | nil => rfl
  | cons c more ih =>
      simp only [List.mem_cons, not_or] at clean
      have other : c ≠ '\r' := Ne.symm clean.1
      rw [List.cons_append, List.cons_append, ← ih clean.2, unified]
      · rintro _ rfl
        exact absurd rfl other
      · exact other

/-- However lines end, they are read with a line feed at their ends. -/
theorem unified_ended (ending : LineEnd) {lines : List (List Char)}
    (clean : ∀ line ∈ lines, '\r' ∉ line) : unified (ended ending lines) = ended .feed lines := by
  induction lines with
  | nil => rfl
  | cons line rest ih =>
      have later := ih fun other member => clean other (List.mem_cons_of_mem _ member)
      simp only [ended, List.flatMap_cons, List.append_assoc] at later ⊢
      rw [unified_append (clean line List.mem_cons_self)]
      cases ending <;> simpa [LineEnd.signs, unified] using later

theorem pieces_ended {lines : List (List Char)} (clean : ∀ line ∈ lines, '\n' ∉ line) :
    pieces '\n' (ended .feed lines) = lines ++ [[]] := by
  induction lines with
  | nil => rfl
  | cons line rest ih =>
      have later := ih fun other member => clean other (List.mem_cons_of_mem _ member)
      simp only [ended, LineEnd.signs, List.flatMap_cons, List.append_assoc,
        List.singleton_append] at later ⊢
      rw [pieces_append (clean line List.mem_cons_self), later, List.cons_append]

/-- Lines that each have an end are the lines of their text; empty ones count, also at the end. -/
theorem lines_ended {lines : List (List Char)} (clean : ∀ line ∈ lines, '\n' ∉ line) :
    Text.lines (ended .feed lines) = lines := by
  simp [Text.lines, pieces_ended clean]

theorem return_not_mem_unified (text : List Char) : '\r' ∉ unified text := by
  fun_induction unified text with
  | case1 => simp
  | case2 rest ih => simp [ih]
  | case3 rest _ ih => simp [ih]
  | case4 c rest _ other ih => simp [ih, Ne.symm other]

theorem return_not_mem_lines {text line : List Char}
    (member : line ∈ Text.lines (unified text)) : '\r' ∉ line := by
  intro inside
  have piece : line ∈ pieces '\n' (unified text) := by
    unfold Text.lines at member
    dsimp only at member
    split at member
    · exact List.dropLast_subset _ member
    · exact member
  exact return_not_mem_unified text (mem_of_mem_pieces piece inside)

theorem fromUTF8?_eq_some_iff (bytes : ByteArray) (text : String) :
    String.fromUTF8? bytes = some text ↔ text.toUTF8 = bytes := by
  unfold String.fromUTF8?
  constructor
  · intro decoded
    split at decoded
    · cases decoded
      rfl
    · cases decoded
  · rintro rfl
    simp only [String.toUTF8_eq_toByteArray]
    rw [dif_pos text.isValidUTF8]
    rfl

/-! ### Words -/

theorem mem_insideQuotes {word : List Char} {c : Char} (member : c ∈ insideQuotes word) :
    c ∈ word ∨ c = '\'' ∨ c = '\\' := by
  induction word with
  | nil => cases member
  | cons first rest ih =>
      rw [insideQuotes] at member
      split at member <;> simp only [List.mem_cons] at member ⊢ <;> grind

theorem mem_quoteWord {word : List Char} {c : Char} (member : c ∈ quoteWord word) :
    c ∈ word ∨ c = '\'' ∨ c = '\\' := by
  simp only [quoteWord, List.cons_append, List.mem_cons, List.mem_append, List.not_mem_nil,
    or_false] at member
  rcases member with quote | inner | quote
  · exact Or.inr (Or.inl quote)
  · exact mem_insideQuotes inner
  · exact Or.inr (Or.inl quote)

theorem isOneLine_quoteWord {word : List Char} (oneLine : IsOneLine word) :
    IsOneLine (quoteWord word) := by
  constructor
  · intro member
    have := mem_quoteWord member
    simp [oneLine.1] at this
  · intro member
    have := mem_quoteWord member
    simp [oneLine.2] at this

/-- The inside of double quotes: no double quote but behind a backslash. -/
inductive Inner : List Char → Prop where
  | nil : Inner []
  | plain {c : Char} {rest : List Char} : c ≠ '"' → c ≠ '\\' → Inner rest → Inner (c :: rest)
  | escaped {c : Char} {rest : List Char} : Inner rest → Inner ('\\' :: c :: rest)

/-- A line in which every quote is closed and every backslash has a character behind it. -/
inductive Balanced : List Char → Prop where
  | nil : Balanced []
  | plain {c : Char} {rest : List Char} : c ≠ '\\' → c ≠ '\'' → c ≠ '"' → Balanced rest →
      Balanced (c :: rest)
  | escaped {c : Char} {rest : List Char} : Balanced rest → Balanced ('\\' :: c :: rest)
  | single {inner rest : List Char} : '\'' ∉ inner → Balanced rest →
      Balanced ('\'' :: (inner ++ '\'' :: rest))
  | double {inner rest : List Char} : Inner inner → Balanced rest →
      Balanced ('"' :: (inner ++ '"' :: rest))

/-- What has to follow on a line for the reader to come to its end. -/
def Closes : WordMode → List Char → Prop
  | .between, line => Balanced line
  | .bare, line => Balanced line
  | .single, line => ∃ inner rest, line = inner ++ '\'' :: rest ∧ '\'' ∉ inner ∧ Balanced rest
  | .double, line => ∃ inner rest, line = inner ++ '"' :: rest ∧ Inner inner ∧ Balanced rest
  | .escape, line => ∃ c rest, line = c :: rest ∧ Balanced rest
  | .doubleEscape, line =>
    ∃ c inner rest, line = c :: (inner ++ '"' :: rest) ∧ Inner inner ∧ Balanced rest

theorem balanced_cons_iff (c : Char) (rest : List Char) :
    Balanced (c :: rest) ↔
      if c = '\\' then Closes .escape rest
      else if c = '\'' then Closes .single rest
      else if c = '"' then Closes .double rest
      else Balanced rest := by
  constructor
  · intro balanced
    cases balanced with
    | plain noEscape noSingle noDouble later => simp [noEscape, noSingle, noDouble, later]
    | escaped later => exact ⟨_, _, rfl, later⟩
    | single clean later => exact ⟨_, _, rfl, clean, later⟩
    | double inner later => exact ⟨_, _, rfl, inner, later⟩
  · intro closes
    split at closes
    · rename_i same
      obtain ⟨next, more, rfl, later⟩ := closes
      exact same ▸ .escaped later
    · split at closes
      · rename_i same
        obtain ⟨inner, more, rfl, clean, later⟩ := closes
        exact same ▸ .single clean later
      · split at closes
        · rename_i same
          obtain ⟨inner, more, rfl, quoted, later⟩ := closes
          exact same ▸ .double quoted later
        · rename_i noEscape noSingle noDouble
          exact .plain noEscape noSingle noDouble closes

theorem closes_single_cons_iff (c : Char) (rest : List Char) :
    Closes .single (c :: rest) ↔ if c = '\'' then Balanced rest else Closes .single rest := by
  constructor
  · rintro ⟨inner, more, whole, clean, later⟩
    cases inner with
    | nil =>
        cases whole
        simpa using later
    | cons first others =>
        cases whole
        simp only [List.mem_cons, not_or] at clean
        rw [if_neg (Ne.symm clean.1)]
        exact ⟨others, more, rfl, clean.2, later⟩
  · intro closes
    split at closes
    · rename_i same
      exact ⟨[], rest, by simp [same], by simp, closes⟩
    · rename_i other
      obtain ⟨inner, more, rfl, clean, later⟩ := closes
      exact ⟨c :: inner, more, rfl, by simp [clean, Ne.symm other], later⟩

theorem closes_double_cons_iff (c : Char) (rest : List Char) :
    Closes .double (c :: rest) ↔
      if c = '"' then Balanced rest
      else if c = '\\' then Closes .doubleEscape rest else Closes .double rest := by
  constructor
  · rintro ⟨inner, more, whole, quoted, later⟩
    cases quoted with
    | nil =>
        cases whole
        simpa using later
    | plain noDouble noEscape further =>
        cases whole
        rw [if_neg noDouble, if_neg noEscape]
        exact ⟨_, more, rfl, further, later⟩
    | escaped further =>
        cases whole
        exact ⟨_, _, more, rfl, further, later⟩
  · intro closes
    split at closes
    · rename_i same
      exact ⟨[], rest, by simp [same], .nil, closes⟩
    · rename_i noDouble
      split at closes
      · rename_i same
        obtain ⟨next, inner, more, rfl, quoted, later⟩ := closes
        exact ⟨'\\' :: next :: inner, more, by simp [same], .escaped quoted, later⟩
      · rename_i noEscape
        obtain ⟨inner, more, rfl, quoted, later⟩ := closes
        exact ⟨c :: inner, more, rfl, .plain noDouble noEscape quoted, later⟩

theorem balanced_of_gap {c : Char} (gap : isGap c) (rest : List Char) :
    Balanced (c :: rest) ↔ Balanced rest := by
  rw [balanced_cons_iff]
  simp only [isGap, Bool.or_eq_true, decide_eq_true_eq] at gap
  rcases gap with ((rfl | rfl) | rfl) | rfl <;> simp

theorem isOk_map_iff {α β : Type} (f : α → β) (result : Except WordsError α) :
    (∃ value, result.map f = .ok value) ↔ ∃ value, result = .ok value := by
  cases result <;> simp [Except.map]

theorem closes_doubleEscape_cons_iff (c : Char) (rest : List Char) :
    Closes .doubleEscape (c :: rest) ↔ Closes .double rest := by
  simp only [Closes, List.cons.injEq]
  constructor
  · rintro ⟨_, inner, more, ⟨rfl, rfl⟩, both⟩
    exact ⟨inner, more, rfl, both⟩
  · rintro ⟨inner, more, rfl, both⟩
    exact ⟨c, inner, more, ⟨rfl, rfl⟩, both⟩

/-- Wherever the reader is, it comes to the end of a line exactly where the line closes what is
open. -/
theorem wordsFrom_isOk_iff (mode : WordMode) (word line : List Char) :
    (∃ words, wordsFrom mode word line = .ok words) ↔ Closes mode line := by
  induction line generalizing mode word with
  | nil => cases mode <;> simp [wordsFrom, Closes, Balanced.nil]
  | cons c rest ih =>
      -- Outside quotes all characters but gaps are treated alike in both modes.
      have outside : ∀ word,
          ((∃ words, (if c = '\\' then wordsFrom .escape word rest
            else if c = '\'' then wordsFrom .single word rest
            else if c = '"' then wordsFrom .double word rest
            else wordsFrom .bare (c :: word) rest) = .ok words) ↔ Balanced (c :: rest)) := by
        intro word
        rw [balanced_cons_iff]
        split
        · exact ih _ _
        · split
          · exact ih _ _
          · split <;> exact ih _ _
      cases mode with
      | between =>
          rw [wordsFrom, Closes]
          split
          · rename_i gap
            exact (ih _ _).trans (balanced_of_gap gap rest).symm
          · exact outside []
      | bare =>
          rw [wordsFrom, Closes]
          split
          · rename_i gap
            rw [isOk_map_iff]
            exact (ih _ _).trans (balanced_of_gap gap rest).symm
          · exact outside word
      | single =>
          rw [closes_single_cons_iff, wordsFrom]
          split <;> exact ih _ _
      | double =>
          rw [closes_double_cons_iff, wordsFrom]
          split
          · exact ih _ _
          · split <;> exact ih _ _
      | escape =>
          rw [wordsFrom, ih]
          simp [Closes]
      | doubleEscape =>
          rw [closes_doubleEscape_cons_iff, wordsFrom]
          split <;> exact ih _ _

theorem words_isOk_iff (line : List Char) :
    (∃ read, words line = .ok read) ↔ Balanced line :=
  wordsFrom_isOk_iff .between [] line

end Emplace.Text

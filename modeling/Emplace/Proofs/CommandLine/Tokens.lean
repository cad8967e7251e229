import Emplace.CommandLine
import Mathlib.Data.List.TakeWhile

/-!
What single arguments are taken for. A spelling is a flag, also with an equals sign and a value
behind it; letters behind one hyphen are flags of one letter; what does not begin with a hyphen is
plain. None of this depends on the arguments that follow.
-/
namespace Emplace.CommandLine

/-- A text that begins with a hyphen, as every flag does. -/
def Hyphened (text : String) : Prop := text.toList.head? = some '-'

instance (text : String) : Decidable (Hyphened text) := by
  unfold Hyphened
  infer_instance

/-- Arguments that are taken for the same tokens whatever follows them. -/
def Lexes (arguments : List String) (read : List Token) : Prop :=
  ∀ rest, tokens (arguments ++ rest) = (tokens rest).map (read ++ ·)

theorem lexes_nil : Lexes [] [] := by
  intro rest
  rw [List.nil_append]
  cases tokens rest <;> rfl

theorem Lexes.append {first second : List String} {read more : List Token}
    (one : Lexes first read) (two : Lexes second more) :
    Lexes (first ++ second) (read ++ more) := by
  intro rest
  rw [List.append_assoc, one, two]
  cases tokens rest with
  | error e => rfl
  | ok others => simp [Except.map]

theorem lexes_singleton {text : String} {token : Token} (other : text ≠ "--")
    (taken : classify text = .ok token) : Lexes [text] [token] := by
  intro rest
  rw [List.singleton_append, tokens, if_neg other, taken]
  rfl

/-! ### Plain arguments -/

theorem classify_plain {text : String} (plain : ¬ Hyphened text) :
    classify text = .ok (.plain text) := by
  unfold classify
  split
  · rename_i whole
    exact absurd (by rw [Hyphened, whole]; rfl) plain
  · rfl

theorem lexes_plain {text : String} (plain : ¬ Hyphened text) : Lexes [text] [.plain text] := by
  refine lexes_singleton ?_ (classify_plain plain)
  rintro rfl
  exact plain rfl

theorem lexes_plains {texts : List String} (plain : ∀ text ∈ texts, ¬ Hyphened text) :
    Lexes texts (texts.map .plain) := by
  induction texts with
  | nil => exact lexes_nil
  | cons text rest ih =>
      have later := ih fun other member => plain other (List.mem_cons_of_mem _ member)
      exact (lexes_plain (plain text List.mem_cons_self)).append later

theorem tokens_divider (texts : List String) :
    tokens ("--" :: texts) = .ok (.divider :: texts.map .plain) := by
  rw [tokens, if_pos rfl]

/-! ### Spellings -/

variable {spelling : Spelling}

theorem spelled?_text (known : spelling ∈ spellings) : spelled? spelling.text = some spelling := by
  revert spelling
  decide

theorem equals_not_mem_text (known : spelling ∈ spellings) : '=' ∉ spelling.text.toList := by
  revert spelling
  decide

theorem text_ne_divider (known : spelling ∈ spellings) : spelling.text ≠ "--" := by
  revert spelling
  decide

/-- Every spelling is a hyphen with something behind it. -/
theorem toList_text (known : spelling ∈ spellings) :
    ∃ second rest, spelling.text.toList = '-' :: second :: rest := by
  have shape : ∀ spelling ∈ spellings,
      spelling.text.toList.head? = some '-' ∧ 2 ≤ spelling.text.toList.length := by decide
  obtain ⟨hyphen, long⟩ := shape spelling known
  rcases whole : spelling.text.toList with _ | ⟨first, _ | ⟨second, rest⟩⟩
  · simp [whole] at long
  · simp [whole] at long
  · rw [whole] at hyphen
    exact ⟨second, rest, by simpa using hyphen⟩

theorem classify_text (known : spelling ∈ spellings) :
    classify spelling.text = .ok (.flag spelling none) := by
  obtain ⟨second, rest, whole⟩ := toList_text known
  simp [classify, whole, spelled?_text known]

theorem lexes_text (known : spelling ∈ spellings) :
    Lexes [spelling.text] [.flag spelling none] :=
  lexes_singleton (text_ne_divider known) (classify_text known)

/-! ### Values behind an equals sign -/

theorem spelled?_of_equals {text : String} (equals : '=' ∈ text.toList) : spelled? text = none := by
  refine List.find?_eq_none.mpr fun other known same => ?_
  have text_eq : other.text = text := by simpa using same
  exact equals_not_mem_text known (text_eq ▸ equals)

theorem cutAtEquals_append {start : List Char} (absent : '=' ∉ start) (value : List Char) :
    cutAtEquals (start ++ '=' :: value) = (start, some value) := by
  have passes : ∀ c ∈ start, (fun c => decide (c ≠ '=')) c = true := by
    intro c member
    have different : c ≠ '=' := fun same => absent (same ▸ member)
    simpa using different
  unfold cutAtEquals
  rw [List.dropWhile_append_of_pos passes, List.takeWhile_append_of_pos passes]
  simp

theorem toList_attached (spelling : Spelling) (value : String) :
    (spelling.text ++ "=" ++ value).toList = spelling.text.toList ++ '=' :: value.toList := by
  simp

theorem classify_attached (known : spelling ∈ spellings) (value : String) :
    classify (spelling.text ++ "=" ++ value) = .ok (.flag spelling (some value)) := by
  have listed := toList_attached spelling value
  have none : spelled? (spelling.text ++ "=" ++ value) = none :=
    spelled?_of_equals (by rw [listed]; simp)
  have cut := cutAtEquals_append (equals_not_mem_text known) value.toList
  obtain ⟨second, rest, whole⟩ := toList_text known
  rw [whole] at listed cut
  unfold classify
  simp only [listed, List.cons_append, none]
  simp only [List.cons_append] at cut
  simp only [cut, ← whole, String.ofList_toList, spelled?_text known]

theorem lexes_attached (known : spelling ∈ spellings) (value : String) :
    Lexes [spelling.text ++ "=" ++ value] [.flag spelling (some value)] := by
  refine lexes_singleton ?_ (classify_attached known value)
  intro same
  have listed := toList_attached spelling value
  rw [same] at listed
  have equals : '=' ∈ "--".toList := by rw [listed]; simp
  exact absurd equals (by decide)

/-! ### Letters behind one hyphen -/

/-- The argument with a number of letters `v` behind a hyphen. -/
def letters (count : Nat) : String := String.ofList ('-' :: List.replicate count 'v')

theorem toList_letters (count : Nat) : (letters count).toList = '-' :: List.replicate count 'v' :=
  String.toList_ofList

/-- Two letters and more are read as the first of them with the others as its value. -/
theorem classify_letters (more : Nat) :
    classify (letters (more + 2)) =
      .ok (.flag ⟨"-v", .verbose⟩ (some (String.ofList (List.replicate (more + 1) 'v')))) := by
  have listed : (letters (more + 2)).toList = '-' :: 'v' :: 'v' :: List.replicate more 'v' :=
    toList_letters _
  have none : spelled? (letters (more + 2)) = none := by
    refine List.find?_eq_none.mpr fun other known same => ?_
    have text_eq : other.text = letters (more + 2) := by simpa using same
    have shape : ∀ spelling ∈ spellings, spelling.text.toList.take 3 ≠ ['-', 'v', 'v'] := by decide
    exact shape other known (by rw [text_eq, listed]; rfl)
  have uncut : cutAtEquals (letters (more + 2)).toList =
      ((letters (more + 2)).toList, Option.none) := by
    have passes : ∀ c ∈ (letters (more + 2)).toList, (fun c => decide (c ≠ '=')) c = true := by
      intro c member
      rw [toList_letters] at member
      rcases List.mem_cons.mp member with rfl | letter
      · decide
      · rw [List.eq_of_mem_replicate letter]
        decide
    rw [cutAtEquals, List.dropWhile_eq_nil_iff.mpr passes]
  have one : candidates (letters (more + 2)).toList =
      [(⟨"-v", .verbose⟩, some (String.ofList (List.replicate (more + 1) 'v')))] := by
    rw [listed]
    have only : (spellings.filter fun s => s.text.toList == ['-', 'v']) = [⟨"-v", .verbose⟩] := by
      decide
    simp [candidates, only, List.replicate_succ]
  unfold classify
  rw [uncut]
  simp only [listed, none, guess]
  rw [← listed, one]

theorem bundled_letters (count : Nat) :
    bundled .verbose (List.replicate count 'v') = .ok (List.replicate (count + 1) .verbose) := by
  induction count with
  | zero => rfl
  | succ count ih =>
      have known : spelled? (String.ofList ['-', 'v']) = some ⟨"-v", .verbose⟩ := by decide
      rw [List.replicate_succ, bundled, known]
      simp only [ih]
      rfl

theorem unbundle_letters (more : Nat) :
    unbundle ⟨"-v", .verbose⟩ (String.ofList (List.replicate (more + 1) 'v')) =
      .ok (List.replicate (more + 2) .verbose) := by
  have text : ("-v" : String).toList = ['-', 'v'] := by decide
  unfold unbundle
  simp only [text, String.toList_ofList, List.replicate_succ (n := more)]
  exact bundled_letters (more + 1)

end Emplace.CommandLine

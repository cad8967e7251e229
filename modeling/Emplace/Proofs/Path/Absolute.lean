import Emplace.Path.Absolute
import Emplace.Proofs.Disk.Sound
import Emplace.Proofs.Text.Ends

/-!
Absolute paths in their shortest spelling. The pieces of a text, followed from the root, leave
ordinary names behind, and ordinary names are followed to themselves, so that the text of a clean
path is read back as that path. What a relative text leads to from a directory depends on where the
text of the directory leads, and not on how it is spelled.
-/
namespace Emplace.Path

/-! ### Slashes in front -/

/-- The number of slashes that a text begins with. -/
def leadingSlashes (text : String) : Nat :=
  (text.toList.takeWhile (· == '/')).length

theorem takeWhile_slash_eq_nil {signs : List Char} (other : ∀ rest, signs ≠ '/' :: rest) :
    signs.takeWhile (· == '/') = [] := by
  cases signs with
  | nil => rfl
  | cons sign rest =>
      have plain : sign ≠ '/' := by
        rintro rfl
        exact other rest rfl
      simp [plain]

theorem startsWith_slash_iff (text : String) :
    Text.startsWith text "/" = true ↔ 0 < leadingSlashes text := by
  unfold Text.startsWith leadingSlashes
  cases text.toList with
  | nil => simp
  | cons sign rest =>
      by_cases slash : sign = '/'
      · simp [slash]
      · simp [slash, Ne.symm slash]

theorem anchor_eq (text : String) : Anchor.ofChars text.toList =
    if leadingSlashes text = 0 then .here
    else if leadingSlashes text = 2 then .doubleRoot else .root := by
  unfold leadingSlashes
  fun_cases Anchor.ofChars text.toList with
  | case1 rest => simp
  | case2 rest other => simp [takeWhile_slash_eq_nil other]
  | case3 rest _ other => simp [takeWhile_slash_eq_nil other]
  | case4 signs _ _ other => simp [takeWhile_slash_eq_nil other]

theorem leadingSlashes_append {rest : String} (relative : Text.startsWith rest "/" = false)
    (front : String) : leadingSlashes (front ++ rest) = leadingSlashes front := by
  have none : ¬ 0 < leadingSlashes rest := by
    rw [← startsWith_slash_iff, relative]
    exact Bool.false_ne_true
  have stops : rest.toList.takeWhile (· == '/') = [] :=
    List.length_eq_zero_iff.mp (Nat.eq_zero_of_not_pos none)
  simp only [leadingSlashes, String.toList_append, List.takeWhile_append, stops, List.append_nil]
  split
  · rename_i all
    exact all.symm
  · rfl

theorem startsWith_slash_append {front : String} (some : front ≠ "") (rest : String) :
    Text.startsWith (front ++ rest) "/" = Text.startsWith front "/" := by
  unfold Text.startsWith
  cases signs : front.toList with
  | nil => exact absurd (String.toList_eq_nil_iff.mp signs) some
  | cons sign more => simp [signs, List.isPrefixOf]

theorem endsWith_slash_append {rest : String} (some : rest ≠ "") (front : String) :
    Text.endsWith (front ++ rest) "/" = Text.endsWith rest "/" := by
  rw [Bool.eq_iff_iff]
  simp only [Text.endsWith, List.isSuffixOf_iff_suffix, String.toList_append]
  constructor
  · intro ends
    rcases List.suffix_or_suffix_of_suffix ends (List.suffix_append _ _) with inside | beyond
    · exact inside
    · rcases List.suffix_cons_iff.mp beyond with whole | below
      · exact whole ▸ List.suffix_refl _
      · exact absurd (String.toList_eq_nil_iff.mp (List.suffix_nil.mp below)) some
  · intro ends
    exact ends.trans (List.suffix_append _ _)

/-- A slash behind another sign is not one of those in front. -/
theorem leadingSlashes_append_slash {front : String} (some : front ≠ "")
    (ends : Text.endsWith front "/" = false) (rest : String) :
    leadingSlashes (front ++ "/" ++ rest) = leadingSlashes front := by
  rcases List.eq_nil_or_concat' front.toList with none | ⟨start, sign, cut⟩
  · exact absurd (String.toList_eq_nil_iff.mp none) some
  · -- the last sign is no slash, so the slashes in front end before it
    have behind : front = String.ofList start ++ String.singleton sign :=
      String.toList_inj.mp (by simp [cut])
    have other : sign ≠ '/' := by
      rintro rfl
      rw [(Text.endsWith_iff front "/").mpr ⟨_, behind⟩] at ends
      exact Bool.false_ne_true ends.symm
    have plain : Text.startsWith (String.singleton sign) "/" = false := by
      simpa [Text.startsWith, List.isPrefixOf] using other.symm
    have more : Text.startsWith (String.singleton sign ++ ("/" ++ rest)) "/" = false := by
      rw [startsWith_slash_append (by simp), plain]
    rw [behind, leadingSlashes_append plain, String.append_assoc, String.append_assoc,
      leadingSlashes_append more]

/-! ### Pieces put on the stack of names -/

theorem pushPiece_anchored (stack : List String) (piece : String)
    (ordinary : ∀ name ∈ stack, Ordinary name) :
    pushPiece true stack piece =
      if piece = "" ∨ piece = "." then stack
      else if piece = ".." then stack.tail else piece :: stack := by
  unfold pushPiece
  split
  · rfl
  · split
    · cases stack with
      | nil => rfl
      | cons top below =>
          have notUp : top ≠ ".." := (ordinary top List.mem_cons_self).2.2
          simp [notUp]
    · rfl

theorem pushPiece_anchored_ordinary (stack : List String) (piece : String)
    (ordinary : ∀ name ∈ stack, Ordinary name) :
    ∀ name ∈ pushPiece true stack piece, Ordinary name := by
  rw [pushPiece_anchored stack piece ordinary]
  split
  · exact ordinary
  · rename_i busy
    split
    · exact fun name member => ordinary name (List.mem_of_mem_tail member)
    · rename_i notUp
      intro name member
      rcases List.mem_cons.mp member with rfl | old
      · exact ⟨fun empty => busy (Or.inl empty), fun dot => busy (Or.inr dot), notUp⟩
      · exact ordinary name old

theorem mem_of_mem_pushPiece {anchored : Bool} {stack : List String} {piece name : String}
    (member : name ∈ pushPiece anchored stack piece) : name ∈ stack ∨ name = piece := by
  unfold pushPiece at member
  split at member
  · exact Or.inl member
  · split at member
    · rename_i up
      cases stack with
      | nil =>
          cases anchored with
          | true => simp at member
          | false =>
              have last : name = ".." := by simpa using member
              exact Or.inr (last.trans up.symm)
      | cons top below =>
          dsimp only at member
          split at member
          · rcases List.mem_cons.mp member with same | old
            · exact Or.inr (same.trans up.symm)
            · exact Or.inl old
          · exact Or.inl (List.mem_cons_of_mem _ member)
    · rcases List.mem_cons.mp member with same | old
      · exact Or.inr same
      · exact Or.inl old

/-! ### Pieces followed from a directory -/

/-- The names of the location that `pieces` lead to from the location `names`. -/
def follow (names pieces : List String) : List String :=
  (pieces.foldl (pushPiece true) names.reverse).reverse

theorem follow_nil (names : List String) : follow names [] = names := by
  simp [follow]

theorem follow_cons (names : List String) (piece : String) (rest : List String) :
    follow names (piece :: rest) = follow (pushPiece true names.reverse piece).reverse rest := by
  simp [follow]

theorem follow_append (names front rest : List String) :
    follow names (front ++ rest) = follow (follow names front) rest := by
  simp [follow]

theorem follow_empty (names rest : List String) :
    follow names ("" :: rest) = follow names rest := by
  simp [follow, pushPiece]

/-- Slashes lead nowhere. -/
theorem follow_slash (text : String) :
    follow [] (Text.split '/' ("/" ++ text)) = follow [] (Text.split '/' text) := by
  rw [Text.split_slash_front, follow_empty]

theorem follow_ordinary (names : List String) {more : List String}
    (ordinary : ∀ name ∈ more, Ordinary name) : follow names more = names ++ more := by
  induction more generalizing names with
  | nil => simp [follow]
  | cons name rest ih =>
      have here := ordinary name List.mem_cons_self
      have pushed : pushPiece true names.reverse name = name :: names.reverse := by
        simp [pushPiece, here.1, here.2.1, here.2.2]
      have later := ih (names ++ [name]) fun other member =>
        ordinary other (List.mem_cons_of_mem _ member)
      rw [follow_cons, pushed, List.reverse_cons, List.reverse_reverse, later]
      simp

theorem ordinary_of_mem_follow {names : List String} (ordinary : ∀ name ∈ names, Ordinary name)
    (pieces : List String) : ∀ name ∈ follow names pieces, Ordinary name := by
  induction pieces generalizing names with
  | nil => simpa [follow] using ordinary
  | cons piece rest ih =>
      rw [follow_cons]
      apply ih
      intro name member
      apply pushPiece_anchored_ordinary names.reverse piece
      · exact fun other inside => ordinary other (List.mem_reverse.mp inside)
      · exact List.mem_reverse.mp member

theorem mem_of_mem_follow {names pieces : List String} {name : String}
    (member : name ∈ follow names pieces) : name ∈ names ∨ name ∈ pieces := by
  induction pieces generalizing names with
  | nil => exact Or.inl (by simpa [follow] using member)
  | cons piece rest ih =>
      rw [follow_cons] at member
      rcases ih member with early | late
      · rcases mem_of_mem_pushPiece (List.mem_reverse.mp early) with old | rfl
        · exact Or.inl (List.mem_reverse.mp old)
        · exact Or.inr List.mem_cons_self
      · exact Or.inr (List.mem_cons_of_mem _ late)

/-! ### Clean paths -/

/-- An absolute path of ordinary names, none of which holds a slash. -/
structure Clean (path : Path) : Prop where
  anchored : path.anchor ≠ .here
  ordinary : ∀ name ∈ path.names, Ordinary name
  whole : ∀ name ∈ path.names, '/' ∉ name.toList

variable {text base below cwd : String} {path : Path}

theorem anchor_of_rooted (rooted : Text.startsWith text "/" = true) :
    Anchor.ofChars text.toList = if leadingSlashes text = 2 then .doubleRoot else .root := by
  have slash := (startsWith_slash_iff text).mp rooted
  rw [anchor_eq, if_neg (Nat.ne_of_gt slash)]

theorem anchor_ne_here (rooted : Text.startsWith text "/" = true) :
    Anchor.ofChars text.toList ≠ .here := by
  rw [anchor_of_rooted rooted]
  split <;> decide

theorem normalised_eq (rooted : Text.startsWith text "/" = true) :
    normalised text = ⟨Anchor.ofChars text.toList, follow [] (Text.split '/' text)⟩ := by
  have anchored : (Anchor.ofChars text.toList != .here) = true :=
    bne_iff_ne.mpr (anchor_ne_here rooted)
  simp [normalised, anchored, collapse, follow]

theorem anchor_normalised (rooted : Text.startsWith text "/" = true) :
    (normalised text).anchor = .doubleRoot ↔ leadingSlashes text = 2 := by
  rw [normalised_eq rooted, anchor_of_rooted rooted]
  split <;> simp [*]

theorem clean_normalised (rooted : Text.startsWith text "/" = true) : Clean (normalised text) := by
  rw [normalised_eq rooted]
  refine ⟨anchor_ne_here rooted, ordinary_of_mem_follow (by simp) _, ?_⟩
  intro name member
  rcases mem_of_mem_follow member with old | piece
  · cases old
  · exact Text.separator_not_mem_split piece

namespace Clean

theorem empty_not_mem (clean : Clean path) : "" ∉ path.names :=
  fun member => (clean.ordinary "" member).1 rfl

theorem text_eq (clean : Clean path) : path.text =
    (if path.anchor = .doubleRoot then "//" else "/") ++ Text.join "/" path.names := by
  unfold Path.text
  cases anchor : path.anchor with
  | here => exact absurd anchor clean.anchored
  | root => simp [Anchor.text]
  | doubleRoot => simp [Anchor.text]

theorem startsWith_join (clean : Clean path) :
    Text.startsWith (Text.join "/" path.names) "/" = false := by
  by_cases some : path.names = []
  · rw [some]
    rfl
  · rw [← Bool.not_eq_true]
    intro starts
    obtain ⟨rest, same⟩ := (Text.startsWith_iff _ _).mp starts
    have cut := Text.split_join some clean.whole
    rw [same, Text.split_slash_front] at cut
    exact clean.empty_not_mem (cut ▸ List.mem_cons_self)

theorem endsWith_join (clean : Clean path) (some : path.names ≠ []) :
    Text.endsWith (Text.join "/" path.names) "/" = false := by
  rw [← Bool.not_eq_true]
  intro ends
  obtain ⟨front, same⟩ := (Text.endsWith_iff _ _).mp ends
  have cut := Text.split_join some clean.whole
  rw [same, Text.split_slash_back] at cut
  exact clean.empty_not_mem (cut ▸ List.mem_append_right _ List.mem_cons_self)

theorem leadingSlashes_text (clean : Clean path) :
    leadingSlashes path.text = if path.anchor = .doubleRoot then 2 else 1 := by
  rw [clean.text_eq, leadingSlashes_append clean.startsWith_join]
  split <;> decide

theorem startsWith_text (clean : Clean path) : Text.startsWith path.text "/" = true := by
  rw [startsWith_slash_iff, clean.leadingSlashes_text]
  split <;> decide

theorem follow_join (clean : Clean path) :
    follow [] (Text.split '/' (Text.join "/" path.names)) = path.names := by
  by_cases some : path.names = []
  · rw [some]
    rfl
  · rw [Text.split_join some clean.whole, follow_ordinary [] clean.ordinary, List.nil_append]

theorem follow_text (clean : Clean path) : follow [] (Text.split '/' path.text) = path.names := by
  rw [clean.text_eq]
  split
  · have both : "//" ++ Text.join "/" path.names = "/" ++ ("/" ++ Text.join "/" path.names) := by
      rw [← String.append_assoc]
      rfl
    rw [both, follow_slash, follow_slash, clean.follow_join]
  · rw [follow_slash, clean.follow_join]

/-- Only a root is written with a slash at the end. -/
theorem text_of_endsWith (clean : Clean path) (ends : Text.endsWith path.text "/" = true) :
    path.text = "/" ∨ path.text = "//" := by
  by_cases bare : path.names = []
  · rw [clean.text_eq, bare]
    split
    · exact Or.inr rfl
    · exact Or.inl rfl
  · have written : Text.join "/" path.names ≠ "" := by
      intro none
      have cut := Text.split_join bare clean.whole
      rw [none, Text.split_empty] at cut
      exact clean.empty_not_mem (cut ▸ List.mem_cons_self)
    rw [clean.text_eq, endsWith_slash_append written, clean.endsWith_join bare] at ends
    exact absurd ends Bool.false_ne_true

/-- The text of a clean path is read back as that path. -/
theorem normalised_text (clean : Clean path) : normalised path.text = path := by
  have anchor : Anchor.ofChars path.text.toList = path.anchor := by
    rw [anchor_eq, clean.leadingSlashes_text]
    cases anchor : path.anchor with
    | here => exact absurd anchor clean.anchored
    | root => rfl
    | doubleRoot => rfl
  rw [normalised_eq clean.startsWith_text, anchor, clean.follow_text]

end Clean

/-! ### Texts seen from a directory -/

theorem under_eq_self (rooted : Text.startsWith text "/" = true) (base : String) :
    under base text = text := by
  simp [under, rooted]

theorem under_relative (relative : Text.startsWith text "/" = false) (base : String) :
    under base text =
      (if base = "" ∨ Text.endsWith base "/" then base else base ++ "/") ++ text := by
  unfold under
  rw [if_neg (by simp [relative])]
  split <;> rfl

theorem leadingSlashes_under (some : base ≠ "") (relative : Text.startsWith below "/" = false) :
    leadingSlashes (under base below) = leadingSlashes base := by
  rw [under_relative relative]
  split
  · exact leadingSlashes_append relative base
  · rename_i apart
    exact leadingSlashes_append_slash some (by simpa using (not_or.mp apart).2) below

theorem follow_under (relative : Text.startsWith below "/" = false) (base : String) :
    follow [] (Text.split '/' (under base below)) =
      follow (follow [] (Text.split '/' base)) (Text.split '/' below) := by
  rw [under_relative relative]
  split
  · rename_i full
    rcases full with rfl | ends
    · rw [String.empty_append]
      rfl
    · obtain ⟨front, rfl⟩ := (Text.endsWith_iff base "/").mp ends
      rw [Text.split_slash, Text.split_slash_back, follow_append, follow_append _ _ [""],
        follow_empty, follow_nil]
  · rw [Text.split_slash, follow_append]

theorem startsWith_under (rooted : Text.startsWith base "/" = true) (text : String) :
    Text.startsWith (under base text) "/" = true := by
  cases absolute : Text.startsWith text "/" with
  | true => rwa [under_eq_self absolute]
  | false =>
      have some : base ≠ "" := by
        rintro rfl
        exact Bool.false_ne_true rooted
      rw [startsWith_slash_iff] at rooted ⊢
      rwa [leadingSlashes_under some absolute]

/-- Of the directory it is seen from, a relative text depends on the clean path alone. -/
theorem normalised_under (rooted : Text.startsWith base "/" = true)
    (relative : Text.startsWith below "/" = false) : normalised (under base below) =
      ⟨(normalised base).anchor, follow (normalised base).names (Text.split '/' below)⟩ := by
  have some : base ≠ "" := by
    rintro rfl
    exact Bool.false_ne_true rooted
  rw [normalised_eq rooted, normalised_eq (startsWith_under rooted below), anchor_eq,
    leadingSlashes_under some relative, ← anchor_eq, follow_under relative]

theorem under_beside {front : String} (some : front ≠ "")
    (ends : Text.endsWith front "/" = false) (relative : Text.startsWith below "/" = false) :
    under front below = front ++ "/" ++ below := by
  rw [under_relative relative, if_neg (by simp [some, ends])]

/-- A joined text is the second part of it seen from the first. -/
theorem under_joined {front : String} (some : front ≠ "")
    (ends : Text.endsWith front "/" = false) (relative : Text.startsWith below "/" = false)
    (base : String) : under base (front ++ "/" ++ below) = under (under base front) below := by
  have start : Text.startsWith (front ++ "/" ++ below) "/" = Text.startsWith front "/" := by
    rw [String.append_assoc, startsWith_slash_append some]
  cases absolute : Text.startsWith front "/" with
  | true =>
      rw [under_eq_self (start.trans absolute), under_eq_self absolute,
        under_beside some ends relative]
  | false =>
      -- the same text comes in front of the joined text and of its first part
      rw [under_relative (start.trans absolute), under_relative absolute]
      generalize (if base = "" ∨ Text.endsWith base "/" then base else base ++ "/") = lead
      have nonempty : lead ++ front ≠ "" :=
        fun empty => some (String.append_eq_empty_iff.mp empty).2
      have apart : Text.endsWith (lead ++ front) "/" = false := by
        rw [endsWith_slash_append some, ends]
      rw [under_beside nonempty apart relative]
      simp only [String.append_assoc]

/-! ### Absolute texts -/

theorem absolute_again (rooted : Text.startsWith cwd "/" = true) (other text : String) :
    absolute other (absolute cwd text) = absolute cwd text := by
  have clean := clean_normalised (startsWith_under rooted text)
  unfold absolute
  rw [under_eq_self clean.startsWith_text, clean.normalised_text]

theorem absolute_joined {front : String} (rooted : Text.startsWith cwd "/" = true)
    (some : front ≠ "") (ends : Text.endsWith front "/" = false)
    (relative : Text.startsWith below "/" = false) :
    absolute cwd (front ++ "/" ++ below) = absolute (absolute cwd front) below := by
  have there := startsWith_under rooted front
  have clean := clean_normalised there
  unfold absolute
  rw [under_joined some ends relative, normalised_under there relative,
    normalised_under clean.startsWith_text relative, clean.normalised_text]

/-! ### The form that a platform can use -/

theorem startsWith_usable (cwd text : String) :
    Text.startsWith (usable .win32 cwd text) rawMark = true := by
  unfold usable
  dsimp only
  split
  · assumption
  · exact (Text.startsWith_iff _ _).mpr ⟨_, rfl⟩

theorem usable_again (rooted : Text.startsWith cwd "/" = true) (platform : Platform)
    (other text : String) :
    usable platform other (usable platform cwd text) = usable platform cwd text := by
  cases platform with
  | other => exact absolute_again rooted other text
  | win32 =>
      have marked := startsWith_usable cwd text
      exact if_pos marked

/-- Seen from an absolute directory, a path is written with one slash in front, or with two where
the joined text begins with exactly two, and behind them ordinary names with a slash between
neighbours; the long form has its mark in front. Either form, seen from any directory, is left as it
is, and a joined path has the form that its second part has when it is seen from the first. -/
theorem usable_normalises {cwd : String} (rooted : Text.startsWith cwd "/" = true) :
    (∀ text,
      let result := usable .other cwd text
      let lead := if leadingSlashes (under cwd text) = 2 then "//" else "/"
      Text.startsWith result "/" = true ∧
      (∃ names, (∀ name ∈ names, Ordinary name ∧ '/' ∉ name.toList) ∧
        result = lead ++ "/".intercalate names) ∧
      (Text.endsWith result "/" = true → result = "/" ∨ result = "//") ∧
      leadingSlashes result = (if leadingSlashes (under cwd text) = 2 then 2 else 1) ∧
      Text.startsWith (usable .win32 cwd text) rawMark = true ∧
      ∀ platform other,
        usable platform other (usable platform cwd text) = usable platform cwd text) ∧
    ∀ front below, front ≠ "" → Text.endsWith front "/" = false →
      Text.startsWith below "/" = false →
      usable .other cwd (front ++ "/" ++ below) =
        usable .other (usable .other cwd front) below := by
  refine ⟨?each, fun front below some ends relative => absolute_joined rooted some ends relative⟩
  intro text result lead
  have there := startsWith_under rooted text
  have two := anchor_normalised there
  have clean : Clean (normalised (under cwd text)) := clean_normalised there
  refine ⟨clean.startsWith_text, ⟨(normalised (under cwd text)).names, ?names, ?spelled⟩,
    clean.text_of_endsWith, ?slashes, startsWith_usable cwd text,
    fun platform other => usable_again rooted platform other text⟩
  case names => exact fun name member => ⟨clean.ordinary name member, clean.whole name member⟩
  case spelled =>
    have written := clean.text_eq
    simp only [two, Text.join_eq_intercalate] at written
    exact written
  case slashes =>
    have counted := clean.leadingSlashes_text
    simp only [two] at counted
    exact counted

/-- A directory below the root with two slashes, and paths that climb back to it and beyond. -/
theorem usable_normalises_double_root :
    let cwd := "//srv/./a"
    let root := usable .other cwd "..//../.."
    Text.startsWith cwd "/" = true ∧
      Text.endsWith root "/" = true ∧ (root = "/" ∨ root = "//") ∧ leadingSlashes root = 2 ∧
      usable .other "elsewhere" root = root ∧
      "../b" ≠ "" ∧ Text.endsWith "../b" "/" = false ∧
      Text.startsWith "./..//c/" "/" = false ∧
      usable .other cwd "../b/./..//c/" = "//srv/c" ∧
      usable .other (usable .other cwd "../b") "./..//c/" = "//srv/c" := by
  intro cwd root
  have rooted : Text.startsWith cwd "/" = true := by decide +kernel
  have apart : Text.endsWith "../b" "/" = false := by decide +kernel
  have relative : Text.startsWith "./..//c/" "/" = false := by decide +kernel
  have ends : Text.endsWith root "/" = true := by decide +kernel
  obtain ⟨each, joined⟩ := usable_normalises rooted
  obtain ⟨-, -, bare, slashes, -, again⟩ := each "..//../.."
  have whole : usable .other cwd "../b/./..//c/" = "//srv/c" := by decide +kernel
  refine ⟨rooted, ends, bare ends, slashes.trans (by decide +kernel), again .other "elsewhere",
    by decide, apart, relative, whole, ?_⟩
  exact (joined "../b" "./..//c/" (by decide) apart relative).symm.trans whole

end Emplace.Path

import Emplace.Params
import Emplace.Proofs.Text
import Mathlib.Data.List.Forall2

/-!
Arguments that are handed on in another form. An argument stands for itself, behind a further `@`
where it begins with one, or on a line of a file; expanding gives the arguments back in order,
whatever signs they hold but for line ends.
-/
namespace Emplace

open Disk

namespace Params

/-- A line of a file for an argument: the argument as it is, where it does not look like a quoted
one, or the argument in single quotes. -/
inductive LineFor : String → List Char → Prop where
  | plain {argument : String} : Text.startsWith argument "'" = false →
      LineFor argument argument.toList
  | quoted (argument : String) : LineFor argument (Text.quoteWord argument.toList)

/-- A file holds arguments, one on each line, with the same end on all lines. -/
def FileLists (disk : Disk) (file : String) (arguments : List String) : Prop :=
  ∃ ending lines, List.Forall₂ LineFor arguments lines ∧
    disk.readBytes (Path.ofString file) =
      .ok (String.ofList (Text.ended ending lines)).toUTF8

/-- Items of a command line, and the arguments that they stand for. -/
inductive Spells (disk : Disk) : List String → List String → Prop where
  | nil : Spells disk [] []
  | plain {argument : String} {items arguments : List String} :
      Text.startsWith argument "@" = false → Spells disk items arguments →
      Spells disk (argument :: items) (argument :: arguments)
  | escaped {argument : String} {items arguments : List String} :
      Text.startsWith argument "@" = true → Spells disk items arguments →
      Spells disk (("@" ++ argument) :: items) (argument :: arguments)
  | file {file : String} {listed items arguments : List String} :
      Text.startsWith file "@" = false → FileLists disk file listed →
      Spells disk items arguments → Spells disk (("@" ++ file) :: items) (listed ++ arguments)

theorem startsWith_singleton_iff (text : String) (c : Char) :
    Text.startsWith text (String.ofList [c]) = true ↔ ∃ rest, text.toList = c :: rest := by
  simp only [Text.startsWith, String.toList_ofList, List.isPrefixOf_iff_prefix]
  constructor
  · rintro ⟨rest, whole⟩
    exact ⟨rest, whole.symm⟩
  · rintro ⟨rest, whole⟩
    exact ⟨rest, whole.symm⟩

variable {disk : Disk} {argument : String} {arguments : List String}

/-! ### Lines -/

theorem withoutReturn_of_not_mem {line : List Char} (clean : '\r' ∉ line) :
    withoutReturn line = line := by
  unfold withoutReturn
  split
  · rename_i rest backwards
    exact absurd (List.mem_reverse.mp (backwards ▸ List.mem_cons_self)) clean
  · rfl

theorem LineFor.isOneLine {line : List Char} (for_ : LineFor argument line)
    (oneLine : Text.IsOneLine argument.toList) : Text.IsOneLine line := by
  cases for_ with
  | plain => exact oneLine
  | quoted => exact Text.isOneLine_quoteWord oneLine

theorem isOneLine_of_lines {lines : List (List Char)}
    (each : List.Forall₂ LineFor arguments lines)
    (oneLine : ∀ argument ∈ arguments, Text.IsOneLine argument.toList) :
    ∀ line ∈ lines, Text.IsOneLine line := by
  induction each with
  | nil => simp
  | cons for_ _ ih =>
      obtain ⟨here, later⟩ := List.forall_mem_cons.mp oneLine
      exact List.forall_mem_cons.mpr ⟨for_.isOneLine here, ih later⟩

theorem lineArguments_of_lineFor {line : List Char} (for_ : LineFor argument line)
    (oneLine : Text.IsOneLine argument.toList) : lineArguments line = .ok [argument] := by
  unfold lineArguments
  rw [withoutReturn_of_not_mem (for_.isOneLine oneLine).2]
  cases for_ with
  | plain noQuote =>
      split
      · rename_i rest whole
        have quote := (startsWith_singleton_iff argument '\'').mpr ⟨rest, whole⟩
        exact absurd (noQuote.symm.trans quote) (by decide)
      · simp
  | quoted =>
      have whole : Text.quoteWord argument.toList =
          '\'' :: (Text.insideQuotes argument.toList ++ ['\'']) := rfl
      have words := Text.words_quoteWord argument.toList
      rw [whole] at words ⊢
      simp [words]

theorem allArguments_of_lines {lines : List (List Char)}
    (each : List.Forall₂ LineFor arguments lines)
    (oneLine : ∀ argument ∈ arguments, Text.IsOneLine argument.toList) :
    allArguments lines = .ok arguments := by
  induction each with
  | nil => rfl
  | cons for_ _ ih =>
      have later := ih fun other member => oneLine other (List.mem_cons_of_mem _ member)
      rw [allArguments, lineArguments_of_lineFor for_ (oneLine _ List.mem_cons_self), later]
      rfl

/-! ### Files -/

theorem readText_of_readBytes {path : Path} {text : String}
    (read : disk.readBytes path = .ok text.toUTF8) :
    disk.readText path = .ok (String.ofList (Text.unified text.toList)) := by
  simp only [readText, read, (Text.fromUTF8?_eq_some_iff _ text).mpr rfl]

theorem ofFile_of_lists {file : String} (lists : FileLists disk file arguments)
    (oneLine : ∀ argument ∈ arguments, Text.IsOneLine argument.toList) :
    ofFile disk (Path.ofString file) = .ok arguments := by
  obtain ⟨ending, lines, each, read⟩ := lists
  have clean := isOneLine_of_lines each oneLine
  have text : Text.unified (Text.ended ending lines) = Text.ended .feed lines :=
    Text.unified_ended ending fun line member => (clean line member).2
  have cut : Text.lines (Text.ended .feed lines) = lines :=
    Text.lines_ended fun line member => (clean line member).1
  simp only [ofFile, readText_of_readBytes read, ofText, String.toList_ofList, text, cut]
  exact allArguments_of_lines each oneLine

/-! ### The command line -/

theorem expandOne_plain (noMark : Text.startsWith argument "@" = false) :
    expandOne disk argument = .ok [argument] := by
  unfold expandOne
  split
  · rename_i rest whole
    have mark := (startsWith_singleton_iff argument '@').mpr ⟨_, whole⟩
    exact absurd (noMark.symm.trans mark) (by decide)
  · rename_i rest _ whole
    have mark := (startsWith_singleton_iff argument '@').mpr ⟨_, whole⟩
    exact absurd (noMark.symm.trans mark) (by decide)
  · rfl

theorem expandOne_escaped (marked : Text.startsWith argument "@" = true) :
    expandOne disk ("@" ++ argument) = .ok [argument] := by
  obtain ⟨rest, whole⟩ := (startsWith_singleton_iff argument '@').mp marked
  have signs : ("@" ++ argument).toList = '@' :: '@' :: rest := by
    simp [String.toList_append, whole]
  have same : String.ofList ('@' :: rest) = argument := by rw [← whole, String.ofList_toList]
  simp only [expandOne, signs, same]

theorem expandOne_file {file : String} (noMark : Text.startsWith file "@" = false) :
    expandOne disk ("@" ++ file) = ofFile disk (Path.ofString file) := by
  have signs : ("@" ++ file).toList = '@' :: file.toList := by simp [String.toList_append]
  unfold expandOne
  split
  · rename_i rest whole
    rw [signs, List.cons.injEq] at whole
    have mark := (startsWith_singleton_iff file '@').mpr ⟨rest, whole.2⟩
    exact absurd (noMark.symm.trans mark) (by decide)
  · rename_i rest _ whole
    rw [signs, List.cons.injEq] at whole
    rw [← whole.2, String.ofList_toList]
  · rename_i _ other
    exact absurd signs (other file.toList)

/-- Expanding the items of a command line gives back the arguments that they stand for. -/
theorem expand_of_spells {items : List String} (spells : Spells disk items arguments)
    (oneLine : ∀ argument ∈ arguments, Text.IsOneLine argument.toList) :
    expand disk items = .ok arguments := by
  induction spells with
  | nil => rfl
  | plain noMark _ ih =>
      have later := ih fun other member => oneLine other (List.mem_cons_of_mem _ member)
      rw [expand, expandOne_plain noMark, later]
      rfl
  | escaped marked _ ih =>
      have later := ih fun other member => oneLine other (List.mem_cons_of_mem _ member)
      rw [expand, expandOne_escaped marked, later]
      rfl
  | file noMark lists _ ih =>
      have here := ofFile_of_lists lists fun other member =>
        oneLine other (List.mem_append_left _ member)
      have later := ih fun other member => oneLine other (List.mem_append_right _ member)
      rw [expand, expandOne_file noMark, here, later]
      rfl

/-- A file with line ends of two signs that lists an empty argument, one with a quote inside, one
that looks like a file and one that looks quoted. -/
def listedDisk : Disk :=
  ⟨[], [(["a.params"], .file (String.ofList (Text.ended .returnFeed
    ["".toList, "it's".toList, "@x".toList, "a \\b\"#".toList,
      Text.quoteWord "'q' r".toList])).toUTF8 false)]⟩

theorem expand_of_spells_listed :
    let arguments := ["--x", "@scope/pkg", "", "it's", "@x", "a \\b\"#", "'q' r"]
    Spells listedDisk ["--x", "@@scope/pkg", "@a.params"] arguments ∧
      (∀ argument ∈ arguments, Text.IsOneLine argument.toList) ∧
      expand listedDisk ["--x", "@@scope/pkg", "@a.params"] = .ok arguments := by
  intro arguments
  have lists : FileLists listedDisk "a.params" ["", "it's", "@x", "a \\b\"#", "'q' r"] := by
    refine ⟨.returnFeed, _, ?_, rfl⟩
    exact .cons (.plain (by decide)) <| .cons (.plain (by decide)) <|
      .cons (.plain (by decide)) <| .cons (.plain (by decide)) <| .cons (.quoted _) .nil
  have spells : Spells listedDisk ["--x", "@" ++ "@scope/pkg", "@" ++ "a.params"] arguments :=
    .plain (by decide) <| .escaped (by decide) <| .file (by decide) lists .nil
  have oneLine : ∀ argument ∈ arguments, Text.IsOneLine argument.toList := by decide
  exact ⟨spells, oneLine, expand_of_spells spells oneLine⟩

end Params
end Emplace

import Emplace.Command
import Emplace.Proofs.Disk.Faults
import Emplace.Proofs.Params.Listing

/-!
Which failures an expansion does not raise as errors of the configuration. A file that cannot be read
is guarded; what the file holds is not, so bytes that are no text and a quoted line that is not closed
come out as they are.
-/
namespace Emplace

open Disk

namespace Params

/-- The file that an item of a command line stands for. -/
def fileOf? (item : String) : Option String :=
  match item.toList with
  | '@' :: '@' :: _ => none
  | '@' :: rest => some (String.ofList rest)
  | _ => none

/-- A list of arguments, or an error of the configuration. -/
def Explained (result : Except Failure (List String)) : Prop :=
  (∃ arguments, result = .ok arguments) ∨ ∃ e, result = .error (.config e)

/-- What a file can hold that no arguments can be read from: bytes that are those of no text, or a
line that begins with a single quote and does not close all that it opens. -/
inductive Spoiled (bytes : ByteArray) : Prop where
  | noText : (∀ text : String, text.toUTF8 ≠ bytes) → Spoiled bytes
  | unbalanced {text : String} {line : List Char} : text.toUTF8 = bytes →
      line ∈ Text.lines (Text.unified text.toList) → line.head? = some '\'' →
      ¬ Text.Balanced line → Spoiled bytes

/-- An expansion comes to a file with these bytes: all items before it are expanded. -/
def Meets (disk : Disk) (items : List String) (bytes : ByteArray) : Prop :=
  ∃ before item after file, items = before ++ item :: after ∧
    (∃ arguments, expand disk before = .ok arguments) ∧ fileOf? item = some file ∧
    disk.readBytes (Path.ofString file) = .ok bytes

@[simp] theorem explained_ok (arguments : List String) : Explained (.ok arguments) :=
  Or.inl ⟨arguments, rfl⟩

@[simp] theorem explained_config (e : ConfigError) : Explained (.error (.config e)) :=
  Or.inr ⟨e, rfl⟩

@[simp] theorem not_explained_fault (fault : Fault) : ¬ Explained (.error (.fault fault)) := by
  simp [Explained]

theorem explained_map_iff (first : List String) (result : Except Failure (List String)) :
    Explained (result.map (first ++ ·)) ↔ Explained result := by
  cases result <;> simp [Explained, Except.map]

variable {disk : Disk} {item : String} {items : List String}

/-! ### The lines of a file -/

theorem lineArguments_isOk_iff {line : List Char} (clean : '\r' ∉ line) :
    (∃ arguments, lineArguments line = .ok arguments) ↔
      (line.head? = some '\'' → Text.Balanced line) := by
  unfold lineArguments
  rw [withoutReturn_of_not_mem clean]
  split
  · rename_i rest
    rw [← Text.words_isOk_iff]
    cases Text.words ('\'' :: rest) <;> simp
  · rename_i other
    have plain : line.head? ≠ some '\'' := by
      intro quoted
      obtain ⟨rest, rfl⟩ := List.head?_eq_some_iff.mp quoted
      exact other rest rfl
    simp [plain]

theorem allArguments_isOk_iff (lines : List (List Char)) :
    (∃ arguments, allArguments lines = .ok arguments) ↔
      ∀ line ∈ lines, ∃ arguments, lineArguments line = .ok arguments := by
  induction lines with
  | nil => simp [allArguments]
  | cons line rest ih =>
      rw [allArguments, List.forall_mem_cons, ← ih]
      cases lineArguments line with
      | error failure => simp
      | ok first => cases allArguments rest <;> simp [Except.map]

/-- No line of a file is refused in words of the configuration. -/
theorem allArguments_explained_iff (lines : List (List Char)) :
    Explained (allArguments lines) ↔ ∃ arguments, allArguments lines = .ok arguments := by
  have refused : ∀ e, allArguments lines ≠ .error (.config e) := by
    intro e failed
    induction lines with
    | nil => cases failed
    | cons line rest ih =>
        rw [allArguments] at failed
        split at failed
        · rename_i here
          unfold lineArguments at here
          grind
        · cases later : allArguments rest with
          | ok arguments => simp [later, Except.map] at failed
          | error failure =>
              simp only [later, Except.map, Except.error.injEq] at failed
              exact ih (failed ▸ later)
  simp [Explained, refused]

theorem ofText_explained_iff (text : List Char) :
    Explained (ofText (String.ofList (Text.unified text))) ↔
      ∀ line ∈ Text.lines (Text.unified text), line.head? = some '\'' → Text.Balanced line := by
  rw [ofText, String.toList_ofList, allArguments_explained_iff, allArguments_isOk_iff]
  exact forall₂_congr fun line member =>
    lineArguments_isOk_iff (Text.return_not_mem_lines member)

/-! ### Files -/

/-- A file that can be read brings arguments unless it is spoiled. -/
theorem ofFile_explained_iff {path : Path} {bytes : ByteArray}
    (read : disk.readBytes path = .ok bytes) :
    Explained (ofFile disk path) ↔ ¬ Spoiled bytes := by
  unfold ofFile readText
  rw [read]
  dsimp only
  cases decoded : String.fromUTF8? bytes with
  | none =>
      have spoiled : Spoiled bytes := by
        refine .noText fun text same => ?_
        rw [(Text.fromUTF8?_eq_some_iff bytes text).mpr same] at decoded
        cases decoded
      simp [spoiled, Fault.blame]
  | some text =>
      have same := (Text.fromUTF8?_eq_some_iff bytes text).mp decoded
      dsimp only
      rw [ofText_explained_iff]
      constructor
      · intro balanced spoiled
        cases spoiled with
        | noText none => exact none text same
        | unbalanced other member quoted open_ =>
            have read := (Text.fromUTF8?_eq_some_iff bytes _).mpr other
            rw [decoded] at read
            cases read
            exact open_ (balanced _ member quoted)
      · intro whole line member quoted
        by_contra open_
        exact whole (.unbalanced same member quoted open_)

theorem ofFile_unreadable {path : Path} {fault : Fault} (clear : hasNull path = false)
    (refused : disk.readBytes path = .error fault) : Explained (ofFile disk path) := by
  obtain ⟨e, rfl⟩ := answer_fault clear refused
  simp [ofFile, readText, refused, Fault.blame]

/-! ### The command line -/

theorem expandOne_of_none (none : fileOf? item = none) :
    ∃ arguments, expandOne disk item = .ok arguments := by
  unfold fileOf? at none
  unfold expandOne
  split <;> simp_all

theorem expandOne_of_file {file : String} (stands : fileOf? item = some file) :
    expandOne disk item = ofFile disk (Path.ofString file) := by
  unfold fileOf? at stands
  unfold expandOne
  split <;> simp_all

theorem expandOne_explained_iff
    (clear : ∀ file, fileOf? item = some file → '\x00' ∉ file.toList) :
    Explained (expandOne disk item) ↔
      ∀ file, fileOf? item = some file →
        ∀ bytes, disk.readBytes (Path.ofString file) = .ok bytes → ¬ Spoiled bytes := by
  cases stands : fileOf? item with
  | none =>
      obtain ⟨arguments, plain⟩ := @expandOne_of_none disk item stands
      simp [plain]
  | some file =>
      rw [expandOne_of_file stands]
      cases read : disk.readBytes (Path.ofString file) with
      | error fault =>
          have explained := ofFile_unreadable (hasNull_ofString (clear file stands)) read
          simp [explained, read]
      | ok bytes => simp [ofFile_explained_iff read, read]

theorem meets_cons_iff (bytes : ByteArray) :
    Meets disk (item :: items) bytes ↔
      (∃ file, fileOf? item = some file ∧ disk.readBytes (Path.ofString file) = .ok bytes) ∨
      (∃ arguments, expandOne disk item = .ok arguments) ∧ Meets disk items bytes := by
  constructor
  · rintro ⟨before, stop, after, file, whole, ⟨arguments, expanded⟩, stands, read⟩
    cases before with
    | nil =>
        cases whole
        exact Or.inl ⟨file, stands, read⟩
    | cons first rest =>
        rw [List.cons_append, List.cons.injEq] at whole
        obtain ⟨rfl, same⟩ := whole
        rw [expand] at expanded
        cases here : expandOne disk item with
        | error failure => simp [here] at expanded
        | ok listed =>
            cases later : expand disk rest with
            | error failure => simp [here, later, Except.map] at expanded
            | ok more => exact Or.inr ⟨⟨listed, rfl⟩, rest, stop, after, file, same, ⟨more, later⟩,
                stands, read⟩
  · rintro (⟨file, stands, read⟩ | ⟨⟨first, here⟩, before, stop, after, file, rfl, ⟨arguments,
      expanded⟩, stands, read⟩)
    · exact ⟨[], item, items, file, rfl, ⟨[], rfl⟩, stands, read⟩
    · refine ⟨item :: before, stop, after, file, rfl, ⟨first ++ arguments, ?_⟩, stands, read⟩
      rw [expand, here, expanded]
      rfl

theorem explained_iff_of_meets
    (clear : ∀ item ∈ items, ∀ file, fileOf? item = some file → '\x00' ∉ file.toList) :
    Explained (expand disk items) ↔ ∀ bytes, Meets disk items bytes → ¬ Spoiled bytes := by
  induction items with
  | nil =>
      have nothing : ∀ bytes, ¬ Meets disk [] bytes := by
        rintro bytes ⟨before, stop, after, -, whole, -⟩
        simp at whole
      simp [expand, nothing]
  | cons item rest ih =>
      obtain ⟨here, later⟩ := List.forall_mem_cons.mp clear
      have first := @expandOne_explained_iff disk item here
      rw [expand]
      simp only [meets_cons_iff]
      cases expanded : expandOne disk item with
      | ok arguments =>
          rw [expanded] at first
          have fine := first.mp (explained_ok arguments)
          rw [explained_map_iff, ih later]
          constructor
          · rintro rest bytes (⟨file, stands, read⟩ | ⟨-, meets⟩)
            · exact fine file stands bytes read
            · exact rest bytes meets
          · exact fun all bytes meets => all bytes (Or.inr ⟨⟨arguments, rfl⟩, meets⟩)
      | error failure =>
          -- What comes behind the item is not looked at any more.
          rw [expanded] at first
          refine first.trans ⟨?_, ?_⟩
          · rintro fine bytes (⟨file, stands, read⟩ | ⟨⟨arguments, none⟩, -⟩)
            · exact fine file stands bytes read
            · cases none
          · exact fun all file stands bytes read => all bytes (Or.inl ⟨file, stands, read⟩)

/-- An expansion gives a list of arguments or an error of the configuration exactly where no file
that it comes to is spoiled, and the command ends with status 1 and the message of the error. -/
theorem expand_explained_iff (disk : Disk) {items : List String}
    (clear : ∀ item ∈ items, ∀ file, fileOf? item = some file → '\x00' ∉ file.toList) :
    (Explained (expand disk items) ↔ ∀ bytes, Meets disk items bytes → ¬ Spoiled bytes) ∧
      ∀ around e, expand disk items = .error (.config e) →
        Command.run around disk items =
          ⟨disk, "", Command.name ++ ": " ++ e.message ++ "\n", .status 1⟩ := by
  refine ⟨explained_iff_of_meets clear, fun around e refused => ?_⟩
  simp only [Command.run, refused, Failure.message]

/-- A file that lists a quoted argument, or what has been left of one. -/
def quotedDisk (line : String) : Disk :=
  ⟨[], [(["p"], .file line.toUTF8 false)]⟩

/-- A file that is there is read, and one that is missing is an error of the configuration. -/
theorem expand_explained_missing :
    let disk := quotedDisk "'a b'\n"
    expand disk ["@p"] = .ok ["a b"] ∧
      expand disk ["@p", "@q"] = .error (.config (.unreadableParams "q" ⟨.noEntry, "q"⟩)) ∧
      (∀ bytes, Meets disk ["@p", "@q"] bytes → ¬ Spoiled bytes) ∧
      ∀ around, (Command.run around disk ["@p", "@q"]).exit = .status 1 := by
  intro disk
  have refused : expand disk ["@p", "@q"] =
      .error (.config (.unreadableParams "q" ⟨.noEntry, "q"⟩)) := by decide +kernel
  obtain ⟨explained, ends⟩ := @expand_explained_iff disk ["@p", "@q"] (by decide)
  refine ⟨by decide +kernel, refused, explained.mp (refused ▸ explained_config _), fun around => ?_⟩
  rw [ends around _ refused]

/-- A quote that is not closed leaves the command as it is. -/
theorem expand_unexplained_quote :
    let disk := quotedDisk "'a"
    (∀ item ∈ ["@p"], ∀ file, fileOf? item = some file → '\x00' ∉ file.toList) ∧
      ¬ Explained (expand disk ["@p"]) ∧
      ∀ around, (Command.run around disk ["@p"]).exit =
        .fault (.badValue "No closing quotation") := by
  intro disk
  have failed : expand disk ["@p"] = .error (.fault (.badValue "No closing quotation")) := by
    decide +kernel
  refine ⟨by decide, by rw [failed]; exact not_explained_fault _, fun around => ?_⟩
  simp only [Command.run, failed]

end Params
end Emplace

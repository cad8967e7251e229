import Emplace.Config
import Emplace.Proofs.Disk.Faults
import Emplace.Proofs.Value.Merging
import Emplace.Settings

/-!
Settings that a run can use. Merging them over the usual ones keeps every key, so that none of them
is ever missing; what a value under a key is, nothing has checked.
-/
namespace Emplace

namespace Value

/-- A value that lists something: a container, or a text with its characters. -/
inductive Lists : Value → Prop where
  | list (items : List Value) : Lists (.list items)
  | set (items : List Value) : Lists (.set items)
  | pair (first second : Value) : Lists (.pair first second)
  | map (entries : Entries) : Lists (.map entries)
  | text (s : String) : Lists (.text s)
  | broken (letters : List Text.Letter) : Lists (.broken letters)
  | bytes (content : List UInt8) : Lists (.bytes content)
  | knot (label : Nat) {content : Value} : Lists content → Lists (.knot label content)

end Value

namespace Config

/-- Settings as they come out of a load: any entries over the usual ones. -/
def Loaded (settings : Entries) : Prop :=
  ∃ entries, settings = Value.mergeEntries usual entries

theorem loaded_usual : Loaded usual := ⟨[], (Value.mergeEntries_nil usual).symm⟩

theorem loaded_of_ofText {file text : String} {settings : Entries}
    (read : ofText file text = .ok settings) : Loaded settings := by
  unfold ofText at read
  split at read
  · cases read
  · cases read
  · rename_i value _
    unfold ofValue at read
    split at read
    · cases read
      exact loaded_usual
    · split at read
      · rename_i entries _
        cases read
        exact ⟨entries, rfl⟩
      · cases read

theorem loaded_of_load {disk : Disk} {file : Option String} {settings : Entries}
    {notes : List Note} (load : Config.load disk file = .ok (settings, notes)) :
    Loaded settings := by
  cases file with
  | none =>
      cases load
      exact loaded_usual
  | some file =>
    rw [Config.load] at load
    split at load
    · cases load
      exact loaded_usual
    · unfold ofFile at load
      dsimp only at load
      split at load
      · cases load
      · cases load
        exact loaded_usual
      · split at load
        · cases load
        · rename_i text _
          cases read : ofText file text with
          | error failure =>
              rw [read] at load
              cases load
          | ok entries =>
              rw [read] at load
              cases load
              exact loaded_of_ofText read

end Config

namespace Settings

variable {settings : Entries}

theorem setting_eq_ok_iff (name : String) (settings : Entries) (value : Value) :
    setting name settings = .ok value ↔ Value.find? (.text name) settings = some value := by
  unfold setting
  cases Value.find? (.text name) settings <;> simp

/-- A key of the usual settings is there in all, with its value or with that of an update over
it. -/
theorem setting_loaded (loaded : Config.Loaded settings) {name : String} {usual : Value}
    (known : Value.find? (.text name) Config.usual = some usual) :
    setting name settings = .ok usual ∨
      ∃ new, setting name settings = .ok (Value.mergeOver usual new) := by
  obtain ⟨entries, rfl⟩ := loaded
  have found := Value.find?_mergeEntries_of_some known entries
  simp only [setting_eq_ok_iff, found, Value.updated]
  cases Value.find? (.text name) entries with
  | none => exact Or.inl rfl
  | some new => exact Or.inr ⟨new, rfl⟩

theorem setting_present (loaded : Config.Loaded settings) (name : String)
    (known : (Value.find? (.text name) Config.usual).isSome) :
    ∃ value, setting name settings = .ok value := by
  obtain ⟨usual, found⟩ := Option.isSome_iff_exists.mp known
  rcases setting_loaded loaded found with same | ⟨new, merged⟩
  · exact ⟨usual, same⟩
  · exact ⟨_, merged⟩

/-! ### Endings -/

theorem endingsOf_of_lists {value : Value} (lists : value.Lists) :
    ∃ endings, endingsOf value = .ok endings := by
  induction lists with
  | knot label _ ih => exact ih
  | _ => exact ⟨_, rfl⟩

theorem endingsOf_eq_ok_iff (value : Value) :
    (∃ endings, endingsOf value = .ok endings) ↔ value.Lists := by
  refine ⟨?_, endingsOf_of_lists⟩
  fun_induction endingsOf value with
  | case1 items => exact fun _ => .list items
  | case2 items => exact fun _ => .set items
  | case3 first second => exact fun _ => .pair first second
  | case4 entries => exact fun _ => .map entries
  | case5 s => exact fun _ => .text s
  | case6 letters => exact fun _ => .broken letters
  | case7 content => exact fun _ => .bytes content
  | case8 label content ih => exact fun taken => .knot label (ih taken)
  | case9 value =>
      rintro ⟨endings, ⟨⟩⟩

theorem endingsOf_fault {value : Value} {fault : Fault} (failed : endingsOf value = .error fault) :
    fault = .wrongKind := by
  fun_induction endingsOf value with
  | case8 label content ih => exact ih failed
  | case9 value => cases failed; rfl
  | _ => cases failed

/-- The endings can be taken exactly from a value that lists something. -/
theorem endings_eq_ok_iff (settings : Entries) :
    (∃ tails, endings settings = .ok tails) ↔
      ∃ value, Value.find? (.text "source_suffixes") settings = some value ∧ value.Lists := by
  simp only [← setting_eq_ok_iff, endings]
  cases setting "source_suffixes" settings with
  | error fault => simp
  | ok value => simp [endingsOf_eq_ok_iff]

theorem endings_fault (loaded : Config.Loaded settings) {fault : Fault}
    (failed : endings settings = .error fault) : fault = .wrongKind := by
  obtain ⟨value, found⟩ := setting_present loaded "source_suffixes" rfl
  rw [endings, found] at failed
  exact endingsOf_fault failed

/-! ### Words of stand-in files -/

/-- The words that the usual settings have for stand-in files. -/
def usualWords : Entries :=
  [(.text "build_tag", .text "ignore"), (.text "package", .text "ignore")]

/-- A mapping under the key of the stand-in files is one that was put over the usual one. -/
theorem merged_of_placeholder (loaded : Config.Loaded settings) {value : Value} {inner : Entries}
    (found : setting "placeholder" settings = .ok value) (mapping : value.entries? = some inner) :
    ∃ entries, inner = Value.mergeEntries usualWords entries := by
  have known : Value.find? (.text "placeholder") Config.usual = some (.map usualWords) := rfl
  rcases setting_loaded loaded known with same | ⟨new, same⟩
  · rw [same] at found
    cases found
    cases mapping
    exact ⟨[], (Value.mergeEntries_nil usualWords).symm⟩
  · rw [same, Value.mergeOver] at found
    cases update : new.entries? with
    | none =>
        simp only [update, Except.ok.injEq] at found
        rw [← found, update] at mapping
        cases mapping
    | some entries =>
        simp only [update, Except.ok.injEq] at found
        subst found
        cases mapping
        exact ⟨entries, rfl⟩

theorem setting_merged (entries : Entries) (name : String)
    (known : (Value.find? (.text name) usualWords).isSome) :
    ∃ value, setting name (Value.mergeEntries usualWords entries) = .ok value := by
  obtain ⟨usual, found⟩ := Option.isSome_iff_exists.mp known
  have kept := Value.find?_mergeEntries_of_some found entries
  exact ⟨_, (setting_eq_ok_iff _ _ _).mpr kept⟩

theorem words_of_mapping (loaded : Config.Loaded settings) {value : Value} {inner : Entries}
    (found : setting "placeholder" settings = .ok value) (mapping : value.entries? = some inner) :
    ∃ buildTag package, Settings.words settings =
      .ok ⟨Value.display buildTag, Value.display package⟩ := by
  obtain ⟨entries, rfl⟩ := merged_of_placeholder loaded found mapping
  obtain ⟨buildTag, tagged⟩ := setting_merged entries "build_tag" rfl
  obtain ⟨package, packaged⟩ := setting_merged entries "package" rfl
  exact ⟨buildTag, package, by simp [words, found, mapping, tagged, packaged]⟩

theorem words_fault (loaded : Config.Loaded settings) {fault : Fault}
    (failed : Settings.words settings = .error fault) : fault = .wrongKind := by
  obtain ⟨value, found⟩ := setting_present loaded "placeholder" rfl
  cases mapping : value.entries? with
  | none =>
      simp only [words, found, mapping, Except.error.injEq] at failed
      exact failed.symm
  | some inner =>
      obtain ⟨buildTag, package, same⟩ := words_of_mapping loaded found mapping
      rw [same] at failed
      cases failed

/-- The words can be taken exactly from a mapping; that it has them is never in doubt. -/
theorem words_eq_ok_iff (loaded : Config.Loaded settings) :
    (∃ text, Settings.words settings = .ok text) ↔
      ∃ value inner, Value.find? (.text "placeholder") settings = some value ∧
        value.entries? = some inner := by
  constructor
  · rintro ⟨text, taken⟩
    obtain ⟨value, found⟩ := setting_present loaded "placeholder" rfl
    cases mapping : value.entries? with
    | none => simp [words, found, mapping] at taken
    | some inner => exact ⟨value, inner, (setting_eq_ok_iff _ _ _).mp found, mapping⟩
  · rintro ⟨value, inner, found, mapping⟩
    obtain ⟨buildTag, package, same⟩ :=
      words_of_mapping loaded ((setting_eq_ok_iff _ _ _).mpr found) mapping
    exact ⟨_, same⟩

theorem map_eq_error {Item Image : Type} {f : Item → Image} {result : Except Fault Item}
    {fault : Fault} (failed : result.map f = .error fault) : result = .error fault := by
  cases result with
  | ok item => cases failed
  | error other =>
      cases failed
      rfl

theorem integerText_fits {i : Int} {fault : Fault} (failed : Value.integerText i = .error fault) :
    fault.Fits := by
  unfold Value.integerText at failed
  split at failed
  · cases failed
    simp [Fault.Fits, Number.tooManyDigitsWritten]
  · cases failed

mutual

/-- A value of any kind can be written; only its size can be too much. -/
theorem shown_fits (depth : Nat) (around : List (Nat × String)) (value : Value) {fault : Fault}
    (failed : Value.shown depth around value = .error fault) : fault.Fits := by
  rw [Value.shown.eq_def] at failed
  split at failed
  case h_3 => exact integerText_fits failed
  case h_12 =>
    split at failed
    · cases failed
    · exact shown_fits _ _ _ failed
  case h_13 =>
    cases failed
    simp [Fault.Fits]
  case h_14 => exact shownItems_fits _ _ _ (map_eq_error failed)
  case h_15 =>
    split at failed
    · cases failed
    · rename_i first
      cases failed
      exact shown_fits _ _ _ first
    · rename_i second _
      cases failed
      exact shown_fits _ _ _ second
  case h_16 =>
    split at failed
    · cases failed
    · exact shownItems_fits _ _ _ (map_eq_error failed)
  case h_17 => exact shownEntries_fits _ _ _ (map_eq_error failed)
  all_goals cases failed

theorem shownItems_fits (depth : Nat) (around : List (Nat × String)) {fault : Fault} :
    (items : List Value) → Value.shownItems depth around items = .error fault → fault.Fits
  | [], failed => by cases failed
  | item :: rest, failed => by
      rw [Value.shownItems] at failed
      split at failed
      · rename_i first
        cases failed
        exact shown_fits _ _ item first
      · exact shownItems_fits _ _ rest (map_eq_error failed)

theorem shownEntries_fits (depth : Nat) (around : List (Nat × String)) {fault : Fault} :
    (entries : Entries) → Value.shownEntries depth around entries = .error fault → fault.Fits
  | [], failed => by cases failed
  | (key, value) :: rest, failed => by
      rw [Value.shownEntries] at failed
      split at failed
      · exact shownEntries_fits _ _ rest (map_eq_error failed)
      · rename_i first
        cases failed
        exact shown_fits _ _ key first
      · rename_i second _
        cases failed
        exact shown_fits _ _ value second

end

theorem display_fits {value : Value} {fault : Fault}
    (failed : value.display = .error fault) : fault.Fits := by
  cases value with
  | broken letters =>
      cases failed
      simp [Fault.Fits]
  | text s => cases failed
  | date d => cases failed
  | moment m => cases failed
  | _ => exact shown_fits _ _ _ failed

theorem content_fits {words : Placeholder} (taken : Settings.words settings = .ok words)
    {fault : Fault} (failed : words.content = .error fault) : fault.Fits := by
  unfold Settings.words at taken
  split at taken
  · cases taken
  · split at taken
    · cases taken
    · split at taken
      · rename_i buildTag package _ _
        cases taken
        unfold Placeholder.content at failed
        dsimp only at failed
        split at failed
        · cases failed
        · rename_i second
          cases failed
          exact display_fits second
        · rename_i first _
          cases failed
          exact display_fits first
        · rename_i second
          cases failed
          exact display_fits second
      · cases taken
      · cases taken

/-! ### The start of the scratch directory's name -/

/-- What settings let the name of the scratch directory begin with. -/
inductive Begins (settings : Entries) : Scratch.Start → Prop where
  | plain : Value.find? (.text "scratch_prefix") settings = some .null →
      Begins settings (.text plainStart)
  | text {s : String} : Value.find? (.text "scratch_prefix") settings = some (.text s) →
      Begins settings (.text s)
  | escaped {letters : List Text.Letter} {content : List UInt8} :
      Value.find? (.text "scratch_prefix") settings = some (.broken letters) →
      Text.nameBytes? letters = some content → Begins settings (.escaped content)
  | bytes {content : List UInt8} :
      Value.find? (.text "scratch_prefix") settings = some (.bytes content) →
      Begins settings (.bytes content)

theorem scratchStart_eq_ok_iff (settings : Entries) (start : Scratch.Start) :
    scratchStart settings = .ok start ↔ Begins settings start := by
  constructor
  · intro taken
    unfold scratchStart at taken
    cases found : setting "scratch_prefix" settings with
    | error fault => simp [found] at taken
    | ok value =>
        rw [found] at taken
        rw [setting_eq_ok_iff] at found
        cases value with
        | null =>
            cases taken
            exact .plain found
        | text s =>
            cases taken
            exact .text found
        | broken letters =>
            dsimp only at taken
            cases known : Text.nameBytes? letters with
            | none =>
                rw [known] at taken
                cases taken
            | some content =>
                rw [known] at taken
                cases taken
                exact .escaped found known
        | bytes content =>
            cases taken
            exact .bytes found
        | _ => cases taken
  · intro begins
    cases begins with
    | plain found => simp [scratchStart, (setting_eq_ok_iff _ _ _).mpr found]
    | text found => simp [scratchStart, (setting_eq_ok_iff _ _ _).mpr found]
    | escaped found known => simp [scratchStart, (setting_eq_ok_iff _ _ _).mpr found, known]
    | bytes found => simp [scratchStart, (setting_eq_ok_iff _ _ _).mpr found]

theorem Begins.unique {one other : Scratch.Start} (first : Begins settings one)
    (second : Begins settings other) : one = other := by
  rw [← scratchStart_eq_ok_iff] at first second
  rw [first, Except.ok.injEq] at second
  exact second

theorem scratchStart_fault (loaded : Config.Loaded settings) {fault : Fault}
    (failed : scratchStart settings = .error fault) : fault ≠ .missingEntry := by
  obtain ⟨value, found⟩ := setting_present loaded "scratch_prefix" rfl
  rw [scratchStart, found] at failed
  cases value with
  | broken letters =>
      dsimp only at failed
      cases known : Text.nameBytes? letters with
      | none =>
          rw [known] at failed
          cases failed
          simp
      | some start =>
          rw [known] at failed
          cases failed
  | _ => cases failed <;> simp

end Settings
end Emplace

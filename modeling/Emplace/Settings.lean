import Emplace.Placeholder
import Emplace.Scan
import Emplace.Scratch
import Emplace.Value.Text

/-!
What a run takes from its settings. The settings were merged over the usual ones, so that every key
is there; a value of a kind that cannot be used is a fault of its own.
-/
namespace Emplace.Settings

def endingOf : Value → Ending
  | .text tail => .text tail
  | .broken _ => .broken
  | _ => .other

def endingOfLetter : Text.Letter → Ending
  | .char c => .text (String.singleton c)
  | .half _ => .broken

/-- The endings that a value lists: the items of a container, the keys of a mapping, the characters
of a text. -/
def endingsOf : Value → Except Fault (List Ending)
  | .list items => .ok (items.map endingOf)
  | .set items => .ok (items.map endingOf)
  | .pair first second => .ok [endingOf first, endingOf second]
  | .map entries => .ok (entries.map fun entry => endingOf entry.1)
  | .text s => .ok (s.toList.map fun c => .text (String.singleton c))
  | .broken letters => .ok (letters.map endingOfLetter)
  | .bytes content => .ok (content.map fun _ => .other)
  | .knot _ content => endingsOf content
  | _ => .error .wrongKind

def setting (name : String) (entries : Entries) : Except Fault Value :=
  match Value.find? (.text name) entries with
  | some value => .ok value
  | none => .error .missingEntry

def endings (entries : Entries) : Except Fault (List Ending) :=
  match setting "source_suffixes" entries with
  | .error fault => .error fault
  | .ok value => endingsOf value

/-- The words of stand-in files; any value is written as it is shown by itself. -/
def words (entries : Entries) : Except Fault Placeholder :=
  match setting "placeholder" entries with
  | .error fault => .error fault
  | .ok value =>
    match value.entries? with
    | none => .error .wrongKind
    | some inner =>
      match setting "build_tag" inner, setting "package" inner with
      | .ok buildTag, .ok package => .ok ⟨buildTag.display, package.display⟩
      | .error fault, _ => .error fault
      | _, .error fault => .error fault

def plainStart : String := "tmp"

def scratchStart (entries : Entries) : Except Fault Scratch.Start :=
  match setting "scratch_prefix" entries with
  | .error fault => .error fault
  | .ok .null => .ok (.text plainStart)
  | .ok (.text start) => .ok (.text start)
  | .ok (.bytes start) => .ok (.bytes start)
  | .ok (.broken letters) =>
    match Text.nameBytes? letters with
    | some start => .ok (.escaped start)
    | none => .error .brokenText
  | .ok _ => .error .wrongKind

end Emplace.Settings

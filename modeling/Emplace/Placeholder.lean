import Emplace.Fault
import Emplace.Text.Pieces

/-!
The file that stands in for an output that was not produced: a source file without declarations
that every build leaves out.
-/
namespace Emplace

/-- A word of a stand-in file. A setting that cannot be written down fails where the file is
written. -/
abbrev Word := Except Fault String

structure Placeholder where
  buildTag : Word
  package : Word

namespace Placeholder

def ofTexts (buildTag package : String) : Placeholder := ⟨.ok buildTag, .ok package⟩

def standard : Placeholder := ofTexts "ignore" "ignore"

/-- The text of a stand-in file: the build constraint in its present and its older form, an empty
line, and the package clause. -/
def text (buildTag package : String) : String :=
  "//go:build " ++ buildTag ++ "\n"
    ++ "// +build " ++ buildTag ++ "\n"
    ++ "\n"
    ++ "package " ++ package ++ "\n"

def content (words : Placeholder) : Except Fault String :=
  match words.buildTag, words.package with
  | .ok buildTag, .ok package => .ok (text buildTag package)
  -- The text is put together before it is turned into bytes, so a word with halves of surrogate
  -- pairs fails only where no other word does.
  | .error .brokenText, .error fault => .error fault
  | .error fault, _ => .error fault
  | .ok _, .error fault => .error fault

end Placeholder
end Emplace

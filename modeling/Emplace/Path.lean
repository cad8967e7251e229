import Emplace.Text.Pieces

/-!
Slash-separated paths. A path is an anchor and a list of names; reading a path drops empty names
and `.`, keeps `..`, and never looks at a file.
-/
namespace Emplace

/-- Where a path starts. Exactly two leading slashes are an anchor of their own; three or more
mean the same as one. -/
inductive Anchor where
  | here
  | root
  | doubleRoot
  deriving DecidableEq, Repr

def Anchor.ofChars : List Char → Anchor
  | '/' :: '/' :: '/' :: _ => .root
  | '/' :: '/' :: _ => .doubleRoot
  | '/' :: _ => .root
  | _ => .here

def Anchor.text : Anchor → String
  | .here => ""
  | .root => "/"
  | .doubleRoot => "//"

structure Path where
  anchor : Anchor
  names : List String
  deriving DecidableEq, Repr

namespace Path

def keeps (piece : String) : Bool :=
  piece != "" && piece != "."

def ofString (text : String) : Path :=
  ⟨Anchor.ofChars text.toList, (Text.split '/' text).filter keeps⟩

/-- The path of a text as the operating system takes it: every name is kept, and a slash at the end,
which asks for a directory, is kept as an empty name. -/
def raw (text : String) : Path :=
  let kept := (Text.split '/' text).filter (· != "")
  ⟨Anchor.ofChars text.toList, if Text.endsWith text "/" then kept ++ [""] else kept⟩

/-- The path as text; a relative path without names is written as a dot. -/
def text (path : Path) : String :=
  if path.anchor = .here ∧ path.names = [] then "."
  else path.anchor.text ++ Text.join "/" path.names

/-- The path `child`, taken relative to `base` unless it has an anchor of its own. -/
def join (base child : Path) : Path :=
  match child.anchor with
  | .here => ⟨base.anchor, base.names ++ child.names⟩
  | _ => child

def entry (path : Path) (name : String) : Path :=
  ⟨path.anchor, path.names ++ [name]⟩

def basename (path : Path) : String :=
  path.names.getLastD ""

def parent (path : Path) : Path :=
  ⟨path.anchor, path.names.dropLast⟩

theorem join_entry (base child : Path) (name : String) (relative : child.anchor = .here) :
    base.join (child.entry name) = (base.join child).entry name := by
  simp [join, entry, relative]

theorem parent_entry (path : Path) (name : String) : (path.entry name).parent = path := by
  simp [parent, entry]

theorem basename_entry (path : Path) (name : String) : (path.entry name).basename = name := by
  simp [basename, entry]

end Path
end Emplace

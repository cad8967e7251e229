import Emplace.Path

/-!
Absolute paths by text alone. `..` takes away the name before it, and at the root it means nothing.
The result of `Path.absolute` has no empty name, no `.` and, when it is anchored, no `..`.
-/
namespace Emplace.Path

/-- One piece of a path text put on the stack of the names before it, last name first. -/
def pushPiece (anchored : Bool) (stack : List String) (piece : String) : List String :=
  if piece = "" ∨ piece = "." then stack
  else if piece = ".." then
    match stack with
    | [] => if anchored then [] else [".."]
    | top :: below => if top = ".." then ".." :: top :: below else below
  else piece :: stack

def collapse (anchored : Bool) (pieces : List String) : List String :=
  (pieces.foldl (pushPiece anchored) []).reverse

def normalised (text : String) : Path :=
  let anchor := Anchor.ofChars text.toList
  ⟨anchor, collapse (anchor != .here) (Text.split '/' text)⟩

def under (base path : String) : String :=
  if Text.startsWith path "/" then path
  else if base = "" ∨ Text.endsWith base "/" then base ++ path
  else base ++ "/" ++ path

def absolute (cwd path : String) : String :=
  (normalised (under cwd path)).text

/-- Marks a path that the system takes as it is, without a limit on its length. -/
def rawMark : String := "\\\\?\\"

inductive Platform where
  | win32
  | other
  deriving DecidableEq, Repr

/-- The absolute form of a path that a platform can use at any length. -/
def usable (platform : Platform) (cwd path : String) : String :=
  match platform with
  | .other => absolute cwd path
  | .win32 =>
    if Text.startsWith path rawMark then path else rawMark ++ absolute cwd path

end Emplace.Path

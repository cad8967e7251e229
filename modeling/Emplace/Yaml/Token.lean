import Emplace.Text.Letters
import Emplace.Yaml.Problem

/-!
The tokens of a text of settings. Where a block begins, where a key begins and where a block ends
follows from the indentation, and has tokens of its own.
-/
namespace Emplace.Yaml

/-- A tag as it is written: the rest of a name behind a handle, or a full name. -/
structure TagText where
  handle : Option String
  name : String
  deriving DecidableEq, Repr

inductive Token where
  | version (major : Nat)
  | tagHandle (handle start : String)
  | otherDirective
  | documentStart
  | documentEnd
  | textEnd
  | blockListStart
  | blockMapStart
  | blockEnd
  | listStart
  | listEnd
  | mapStart
  | mapEnd
  /-- The hyphen before an item of a block. -/
  | item
  | comma
  | key
  | value
  | alias (name : String)
  | anchor (name : String)
  | tag (written : TagText)
  /-- A scalar; a plain one is written without quotes on the line. -/
  | scalar (text : Text.Written) (plain : Bool)
  deriving DecidableEq, Repr

end Emplace.Yaml

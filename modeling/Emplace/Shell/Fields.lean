import Emplace.Shell.Pattern

/-!
Words of a command once their parameters have values: what was not quoted is cut at separating
characters. White space counts as one separator however much of it there is; any other separator
ends a word by itself.
-/
namespace Emplace.Shell

inductive Item where
  /-- A character; a loose one may separate words. -/
  | char (mark : Mark) (loose : Bool)
  | edge
  /-- Quotes, which make a word even where there is nothing between them. -/
  | quotes
  deriving DecidableEq, Repr

namespace Item

def ofChars (chars : List Char) (quoted loose : Bool) : List Item :=
  chars.map fun c => .char ⟨c, quoted⟩ loose

def ofValues (quoted : Bool) : List (List Char) → List Item
  | [] => []
  | [value] => (if quoted then [quotes] else []) ++ ofChars value quoted (!quoted)
  | value :: more =>
    (if quoted then [quotes] else []) ++ ofChars value quoted (!quoted)
      ++ edge :: ofValues quoted more

/-- The items as one text, with `between` at the borders. -/
def chars (between : List Char) (items : List Item) : List Char :=
  items.flatMap fun item => match item with
    | char mark _ => [mark.char]
    | edge => between
    | quotes => []

/-- The items as one word, with `between` at the borders. -/
def marks (between : List Char) (items : List Item) : List Mark :=
  items.flatMap fun item => match item with
    | char mark _ => [mark]
    | edge => between.map fun c => ⟨c, true⟩
    | quotes => []

end Item

/-- The words that are complete, last first, the one that has begun, last character first, and
whether the white space behind the last word may go with another separator. -/
structure Fields where
  complete : List (List Mark)
  begun : Option (List Mark)
  soft : Bool

namespace Fields

def empty : Fields := ⟨[], none, false⟩

def close (fields : Fields) (soft : Bool) : Fields :=
  match fields.begun with
  | none => { fields with soft }
  | some marks => ⟨marks.reverse :: fields.complete, none, soft⟩

def add (fields : Fields) (mark : Mark) : Fields :=
  ⟨fields.complete, some (mark :: fields.begun.getD []), false⟩

def isGap (c : Char) : Bool := c = ' ' || c = '\t' || c = '\n'

/-- A separator that is no white space: it ends a word, which may be empty. -/
def separate (fields : Fields) : Fields :=
  match fields.begun, fields.soft with
  | some marks, _ => ⟨marks.reverse :: fields.complete, none, false⟩
  | none, true => { fields with soft := false }
  | none, false => { fields with complete := [] :: fields.complete }

def addItem (separators : List Char) (fields : Fields) : Item → Fields
  | .edge => fields.close false
  | .quotes => { fields with begun := some (fields.begun.getD []) }
  | .char mark loose =>
    if !loose ∨ !separators.contains mark.char then fields.add mark
    else if !isGap mark.char then fields.separate
    else if fields.begun.isNone then fields
    else fields.close true

def ofItems (separators : List Char) (items : List Item) : List (List Mark) :=
  ((items.foldl (addItem separators) empty).close false).complete.reverse

end Fields
end Emplace.Shell

import Emplace.Yaml.Cursor

/-!
Plain scalars: words without quotes. A plain scalar goes on over spaces and line ends as long as the
indentation does; a line end inside it is read as a space, and empty lines as line ends. Between
brackets it ends at a comma, a question mark or a bracket too.
-/
namespace Emplace.Yaml.Plain

def bracketEnds : List Char := [',', '?', '[', ']', '\x7b', '\x7d']

def colonEnds : List Char := [',', '[', ']', '\x7b', '\x7d']

def colonEndsBefore (bracketed : Bool) (next : Option Char) : Bool :=
  match next with
  | none => true
  | some c => isSeparator c || (bracketed && colonEnds.contains c)

def word (bracketed : Bool) : List Char → List Char
  | [] => []
  | c :: rest =>
    if isSeparator c || (c = ':' && colonEndsBefore bracketed rest.head?)
        || (bracketed && bracketEnds.contains c) then []
    else c :: word bracketed rest

/-- What is between two words: the text that it is read as, and whether it holds a line end. A
marker between documents leaves nothing. -/
structure Gap where
  text : List Char
  broken : Bool
  cursor : Cursor

def emptyLines : Nat → List Char → Cursor → Option (List Char) × Cursor
  | 0, breaks, cursor => (some breaks, cursor)
  | fuel + 1, breaks, cursor =>
    if cursor.atSpace then emptyLines fuel breaks cursor.next
    else if cursor.atBreak then
      let (text, cursor) := cursor.takeBreak
      if cursor.atMarker then (none, cursor) else emptyLines fuel (breaks ++ text) cursor
    else (some breaks, cursor)

def folded (lineEnd breaks : List Char) : List Char :=
  if lineEnd ≠ ['\n'] then lineEnd ++ breaks
  else if breaks = [] then [' '] else breaks

def gap (cursor : Cursor) : Gap :=
  let (spaces, cursor) := cursor.takeWhile fun c => c = ' '
  if cursor.atBreak then
    let (lineEnd, cursor) := cursor.takeBreak
    if cursor.atMarker then ⟨[], true, cursor⟩
    else match emptyLines cursor.steps [] cursor with
      | (none, cursor) => ⟨[], true, cursor⟩
      | (some breaks, cursor) => ⟨folded lineEnd breaks, true, cursor⟩
  else ⟨spaces, false, cursor⟩

/-- The rest of a plain scalar after a gap; `indent` is the least column at which it goes on. -/
def words (bracketed : Bool) (indent : Int) : Nat → List Char → Gap → List Char × Gap
  | 0, text, before => (text, before)
  | fuel + 1, text, before =>
    if before.cursor.peek = some '#' then (text, before)
    else match word bracketed before.cursor.rest with
      | [] => (text, before)
      | c :: more =>
        let after := gap (before.cursor.skip (more.length + 1))
        let text := text ++ before.text ++ c :: more
        if after.text = [] || after.cursor.peek = some '#'
            || (!bracketed && (after.cursor.column : Int) < indent) then (text, after)
        else words bracketed indent fuel text after

def read (bracketed : Bool) (indent : Int) (cursor : Cursor) : String × Cursor × Bool :=
  let (text, after) :=
    words bracketed indent cursor.steps [] ⟨[], false, cursor⟩
  (String.ofList text, after.cursor, after.broken)

end Emplace.Yaml.Plain

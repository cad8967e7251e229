import Emplace.Yaml.Comment

/-!
Scalars written as blocks of lines. After a bar the lines are kept as they are; after a greater-than
sign a line end between two lines that begin with text is read as a space. The header says how far
the lines are indented and what becomes of the line ends at the end.
-/
namespace Emplace.Yaml.Block

/-- What becomes of the line ends at the end of a block: all are dropped, one is kept, or all
are. -/
inductive Chomping where
  | strip
  | clip
  | keep
  deriving DecidableEq, Repr

def chompingOf? : Char → Option Chomping
  | '+' => some .keep
  | '-' => some .strip
  | _ => none

def takeChomping (cursor : Cursor) : Option Chomping × Cursor :=
  match cursor.peek.bind chompingOf? with
  | some chomping => (some chomping, cursor.next)
  | none => (none, cursor)

def takeIndent (cursor : Cursor) : Except Refusal (Option Nat × Cursor) :=
  match cursor.peek.bind Text.digitValue? with
  | some 0 =>
    .error (.problem (.badToken "expected indentation indicator in the range 1-9, but found 0"))
  | some n => .ok (some n, cursor.next)
  | none => .ok (none, cursor)

def header (cursor : Cursor) : Except Refusal (Chomping × Option Nat × Cursor) :=
  let (first, cursor) := takeChomping cursor
  match takeIndent cursor with
  | .error refusal => .error refusal
  | .ok (indent, cursor) =>
    let (second, cursor) := match first, indent with
      | none, some _ => takeChomping cursor
      | _, _ => (none, cursor)
    if cursor.atGap then .ok ((first.orElse fun _ => second).getD .clip, indent, cursor)
    else .error (.problem (.badToken "expected chomping or indentation indicators"))

def indentTo (column : Nat) : Nat → Cursor → Cursor
  | 0, cursor => cursor
  | fuel + 1, cursor =>
    if cursor.column < column ∧ cursor.atSpace then indentTo column fuel cursor.next else cursor

def leadingLines : Nat → List Char → Nat → Cursor → List Char × Nat × Cursor
  | 0, breaks, most, cursor => (breaks, most, cursor)
  | fuel + 1, breaks, most, cursor =>
    if cursor.atSpace then
      let cursor := cursor.next
      leadingLines fuel breaks (max most cursor.column) cursor
    else if cursor.atBreak then
      let (text, cursor) := cursor.takeBreak
      leadingLines fuel (breaks ++ text) most cursor
    else (breaks, most, cursor)

/-- The empty lines at a place, with spaces up to a column before each and behind the last. -/
def emptyLines (column : Nat) : Nat → List Char → Cursor → List Char × Cursor
  | 0, breaks, cursor => (breaks, cursor)
  | fuel + 1, breaks, cursor =>
    let cursor := indentTo column column cursor
    if cursor.atBreak then
      let (text, cursor) := cursor.takeBreak
      emptyLines column fuel (breaks ++ text) cursor
    else (breaks, cursor)

def atBlank (cursor : Cursor) : Bool :=
  cursor.peek.any fun c => c = ' ' || c = '\t'

def goesOn (column : Nat) (cursor : Cursor) : Bool :=
  cursor.column = column && cursor.peek.isSome

/-- The lines of a block, with the empty lines before them; at the end the last line end and the
empty lines behind it are given apart. -/
def lines (folding : Bool) (column : Nat) :
    Nat → List Char → List Char → Cursor → List Char × List Char × List Char × Cursor
  | 0, text, breaks, cursor => (text, [], breaks, cursor)
  | fuel + 1, text, breaks, cursor =>
    if goesOn column cursor then
      let solid := !atBlank cursor
      let (line, cursor) := cursor.takeWhile fun c => !isBreak c
      let (lineEnd, cursor) := cursor.takeBreak
      let text := text ++ breaks ++ line
      let (breaks, cursor) := emptyLines column cursor.steps [] cursor
      if goesOn column cursor then
        let joint :=
          if folding && lineEnd = ['\n'] && solid && !atBlank cursor then
            if breaks = [] then [' '] else []
          else lineEnd
        lines folding column fuel (text ++ joint) breaks cursor
      else (text, lineEnd, breaks, cursor)
    else (text, [], breaks, cursor)

/-- What chomping leaves of a text, its last line end and the empty lines behind it. -/
def chomp (chomping : Chomping) (text lineEnd breaks : List Char) : List Char :=
  match chomping with
  | .strip => text
  | .clip => text ++ lineEnd
  | .keep => text ++ lineEnd ++ breaks

def read (folding : Bool) (indent : Int) (cursor : Cursor) : Except Refusal (String × Cursor) :=
  match header cursor.next with
  | .error refusal => .error refusal
  | .ok (chomping, asked, cursor) =>
    match cursor.endLine with
    | .error refusal => .error refusal
    | .ok cursor =>
      let least := max (indent + 1) 1 |>.toNat
      let size := cursor.steps
      let (column, breaks, cursor) := match asked with
        | none =>
          let (breaks, most, cursor) := leadingLines size [] 0 cursor
          (max least most, breaks, cursor)
        | some n =>
          let column := least + n - 1
          let (breaks, cursor) := emptyLines column size [] cursor
          (column, breaks, cursor)
      let (text, lineEnd, breaks, cursor) := lines folding column size [] breaks cursor
      .ok (String.ofList (chomp chomping text lineEnd breaks), cursor)

end Emplace.Yaml.Block

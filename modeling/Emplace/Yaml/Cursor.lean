/-!
A place in a text of settings: what is left to read, and how far into the text and into its line
that is.
-/
namespace Emplace.Yaml

def isBreak (c : Char) : Bool :=
  c = '\n' || c = '\r' || c = '\u0085' || c = '\u2028' || c = '\u2029'

/-- Whether a character ends a word: a space, a tab or a line end. -/
def isSeparator (c : Char) : Bool :=
  c = ' ' || c = '\t' || isBreak c

def byteOrderMark : Char := '\ufeff'

structure Cursor where
  rest : List Char
  index : Nat
  line : Nat
  column : Nat
  /-- More than the characters of the whole text: no reading of it takes more steps. -/
  steps : Nat
  deriving DecidableEq, Repr

namespace Cursor

def start (text : List Char) : Cursor := ⟨text, 0, 0, 0, text.length + 1⟩

def peek (cursor : Cursor) : Option Char := cursor.rest.head?

def peekAt (cursor : Cursor) (distance : Nat) : Option Char := cursor.rest[distance]?

/-- Whether the character at some distance ends a word; the end of the text does too. -/
def separatedAt (cursor : Cursor) (distance : Nat) : Bool :=
  match cursor.peekAt distance with
  | none => true
  | some c => isSeparator c

def atSpace (cursor : Cursor) : Bool := cursor.peek = some ' '

def atBreak (cursor : Cursor) : Bool := cursor.peek.any isBreak

def atLineEnd (cursor : Cursor) : Bool := cursor.peek.all isBreak

def atGap (cursor : Cursor) : Bool := cursor.peek.all fun c => c = ' ' || isBreak c

def next (cursor : Cursor) : Cursor :=
  match cursor.rest with
  | [] => cursor
  | c :: rest =>
    if isBreak c && !(c = '\r' && rest.head? = some '\n') then
      { cursor with rest, index := cursor.index + 1, line := cursor.line + 1, column := 0 }
    else if c = byteOrderMark then { cursor with rest, index := cursor.index + 1 }
    else { cursor with rest, index := cursor.index + 1, column := cursor.column + 1 }

def skip (cursor : Cursor) : Nat → Cursor
  | 0 => cursor
  | n + 1 => cursor.next.skip n

/-- The characters of which `test` holds, up to the first of which it does not, and the place after
them. -/
def takeWhile (cursor : Cursor) (test : Char → Bool) : List Char × Cursor :=
  let taken := cursor.rest.takeWhile test
  (taken, cursor.skip taken.length)

def skipWhile (cursor : Cursor) (test : Char → Bool) : Cursor :=
  (cursor.takeWhile test).2

def skipSpaces (cursor : Cursor) : Cursor := cursor.skipWhile fun c => c = ' '

def skipComment (cursor : Cursor) : Cursor :=
  if cursor.peek = some '#' then cursor.skipWhile fun c => !isBreak c else cursor

/-- What a line end stands for, and the place after it; nothing where the line goes on. -/
def takeBreak (cursor : Cursor) : List Char × Cursor :=
  match cursor.rest with
  | '\r' :: '\n' :: _ => (['\n'], cursor.skip 2)
  | c :: _ =>
    if c = '\n' || c = '\r' || c = '\u0085' then (['\n'], cursor.next)
    else if c = '\u2028' || c = '\u2029' then ([c], cursor.next)
    else ([], cursor)
  | [] => ([], cursor)

def atMarker (cursor : Cursor) : Bool :=
  match cursor.rest with
  | '-' :: '-' :: '-' :: _ => cursor.separatedAt 3
  | '.' :: '.' :: '.' :: _ => cursor.separatedAt 3
  | _ => false

end Cursor
end Emplace.Yaml

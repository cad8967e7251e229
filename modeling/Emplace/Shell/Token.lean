import Emplace.Shell.Syntax
import Emplace.Text.Pieces

/-!
The signs and words that a script is made of, and how far a script has been read.
-/
namespace Emplace.Shell

/-- What is to be redirected, before the word that follows is read. -/
inductive Direction where
  | opening (opening : Opening)
  | copy
  /-- A text in the script; its lines may be indented. -/
  | document (indented : Bool)
  deriving DecidableEq, Repr

inductive Token where
  | ending
  | lineEnd
  | sign (text : String)
  | keyword (name : String)
  /-- A word, and its text where that stands as it is. -/
  | word (word : Word) (bare : Option String)
  | redirection (descriptor : Nat) (direction : Direction)

def Token.name : Token → String
  | .ending => "end of file"
  | .lineEnd => "newline"
  | .sign text => "\"" ++ text ++ "\""
  | .keyword name => "\"" ++ name ++ "\""
  | .word _ _ => "word"
  | .redirection _ _ => "redirection"

inductive SyntaxError where
  | unterminatedQuote
  | missingBrace
  | missingParentheses
  | openBackquote
  | badLoopName
  | badFunctionName
  | badDescriptor
  | unexpected (found : String) (wanted : Option String)
  deriving DecidableEq, Repr

def SyntaxError.message : SyntaxError → String
  | .unterminatedQuote => "Unterminated quoted string"
  | .missingBrace => "Missing '\x7d'"
  | .missingParentheses => "Missing '))'"
  | .openBackquote => "EOF in backquote substitution"
  | .badLoopName => "Bad for loop variable"
  | .badFunctionName => "Bad function name"
  | .badDescriptor => "Bad fd number"
  | .unexpected found none => found ++ " unexpected"
  | .unexpected found (some wanted) => found ++ " unexpected (expecting " ++ wanted ++ ")"

structure Cursor where
  rest : List Char
  line : Nat
  /-- Lines behind the end of this one that have been taken out. -/
  taken : Nat
  /-- A token that has been read but not used. -/
  held : Option Token
  aliases : List (String × String)
  /-- The words that such texts have been put in for, each with how much was left behind it. -/
  replaced : List (String × Nat)

namespace Cursor

def start (aliases : List (String × String)) (line : Nat) (chars : List Char) : Cursor :=
  ⟨chars, line, 0, none, aliases, []⟩

def aliasSteps : Nat := 100000

def steps (cursor : Cursor) : Nat :=
  cursor.rest.length + 4 + if cursor.aliases.isEmpty then 0 else aliasSteps

/-- The text that stands for a word; none does for the word itself inside of it. -/
def alias? (cursor : Cursor) (word : String) : Option String :=
  let inside := cursor.replaced.any fun row => row.1 = word && row.2 ≤ cursor.rest.length
  if inside then none else cursor.aliases.lookup word

/-- Whether the next word is the first behind a text that was put in for a word and ends in a blank:
then it can be such a word too. -/
def isBehindAlias (cursor : Cursor) : Bool :=
  cursor.replaced.any fun row =>
    row.2 < cursor.rest.length
      && (cursor.rest.take (cursor.rest.length - row.2)).all fun c => c = ' ' || c = '\t'

/-- The cursor at the text that stands for a word which has just been read. -/
def replace (cursor : Cursor) (word text : String) : Cursor :=
  { cursor with
    rest := text.toList ++ cursor.rest
    replaced := (word, cursor.rest.length) :: cursor.replaced }

def goTo (cursor : Cursor) (rest : List Char) : Cursor := { cursor with rest }

def nextLine (cursor : Cursor) (rest : List Char) : Cursor :=
  { cursor with rest, line := cursor.line + 1 + cursor.taken, taken := 0 }

end Cursor

/-- The line of a script where its reading broke off, and why. -/
structure Broken where
  line : Nat
  error : SyntaxError

abbrev Reader (α : Type) := Cursor → Except Broken (α × Cursor)

namespace Reader

variable {α β : Type}

def pure (value : α) : Reader α := fun cursor => .ok (value, cursor)

def bind (first : Reader α) (second : α → Reader β) : Reader β := fun cursor =>
  match first cursor with
  | .error broken => .error broken
  | .ok (value, cursor) => second value cursor

instance : Monad Reader where
  pure := Reader.pure
  bind := Reader.bind

def stop (error : SyntaxError) : Reader α := fun cursor => .error ⟨cursor.line, error⟩

def cursor : Reader Cursor := fun cursor => .ok (cursor, cursor)

def moveTo (cursor : Cursor) : Reader Unit := fun _ => .ok ((), cursor)

end Reader

def isMeta (c : Char) : Bool :=
  [' ', '\t', '\n', ';', '&', '|', '<', '>', '(', ')'].contains c

def isNameStart (c : Char) : Bool := c.isAlpha || c = '_'

def isNameChar (c : Char) : Bool := c.isAlphanum || c = '_'

def isName (text : String) : Bool :=
  text.toList.head?.any isNameStart && text.toList.all isNameChar

def isMark (c : Char) : Bool := ['@', '*', '#', '?', '$', '!', '-'].contains c

end Emplace.Shell

import Emplace.Text.Letters
import Emplace.Yaml.Cursor
import Emplace.Yaml.Problem

/-!
Scalars between quotes. Between single quotes a quote is written twice; between double quotes a
backslash begins an escape. Spaces around a line end are dropped, and the line end is read as a
space, or as the line ends of the empty lines that follow.
-/
namespace Emplace.Yaml.Quoted

def escapes : List (Char × Char) := [
  ('0', '\x00'), ('a', '\x07'), ('b', '\x08'), ('t', '\t'), ('\t', '\t'), ('n', '\n'),
  ('v', '\x0b'), ('f', '\x0c'), ('r', '\r'), ('e', '\x1b'), (' ', ' '), ('"', '"'), ('\\', '\\'),
  ('/', '/'), ('N', '\u0085'), ('_', '\u00a0'), ('L', '\u2028'), ('P', '\u2029')]

def codeLength? (letter : Char) : Option Nat :=
  match letter with
  | 'x' => some 2
  | 'u' => some 4
  | 'U' => some 8
  | _ => none

/-- The letter with a number; a number beyond all letters is a fault. -/
def letterOf (code : Nat) : Except Refusal Text.Letter :=
  if 0xd800 ≤ code ∧ code < 0xe000 then .ok (.half code)
  else if code < 0x110000 then .ok (.char (Char.ofNat code))
  else if code < 0x80000000 then .error (.fault (.badValue "chr() arg not in range(0x110000)"))
  else .error (.fault .tooLarge)

def emptyLines : Nat → List Char → Cursor → Except Refusal (List Char × Cursor)
  | 0, breaks, cursor => .ok (breaks, cursor)
  | fuel + 1, breaks, cursor =>
    if cursor.atMarker then
      .error (.problem (.badToken "found unexpected document separator in a quoted scalar"))
    else
      let cursor := cursor.skipWhile fun c => c = ' ' || c = '\t'
      if cursor.atBreak then
        let (text, cursor) := cursor.takeBreak
        emptyLines fuel (breaks ++ text) cursor
      else .ok (breaks, cursor)

def blanks (cursor : Cursor) : Except Refusal (List Char × Cursor) :=
  let (spaces, cursor) := cursor.takeWhile fun c => c = ' ' || c = '\t'
  if cursor.atBreak then
    let (lineEnd, cursor) := cursor.takeBreak
    match emptyLines cursor.steps [] cursor with
    | .error refusal => .error refusal
    | .ok (breaks, cursor) =>
      if lineEnd ≠ ['\n'] then .ok (lineEnd ++ breaks, cursor)
      else if breaks = [] then .ok ([' '], cursor)
      else .ok (breaks, cursor)
  else .ok (spaces, cursor)

def numbered (length : Nat) (cursor : Cursor) : Except Refusal (List Text.Letter × Cursor) :=
  let digits := cursor.rest.take length
  match Text.number? 16 digits with
  | some code =>
    if digits.length < length then
      .error (.problem (.badToken "expected an escape sequence of hexadecimal numbers"))
    else match letterOf code with
      | .error refusal => .error refusal
      | .ok letter => .ok ([letter], cursor.skip length)
  | none => .error (.problem (.badToken "expected an escape sequence of hexadecimal numbers"))

/-- What an escape stands for; the place is after its backslash. -/
def escape (cursor : Cursor) : Except Refusal (List Text.Letter × Cursor) :=
  match cursor.peek with
  | none => .error (.problem (.badToken "found unknown escape character"))
  | some letter =>
    match escapes.lookup letter, codeLength? letter with
    | some c, _ => .ok ([.char c], cursor.next)
    | none, some length => numbered length cursor.next
    | none, none =>
      if isBreak letter then
        match emptyLines cursor.steps [] cursor.takeBreak.2 with
        | .error refusal => .error refusal
        | .ok (breaks, cursor) => .ok (breaks.map .char, cursor)
      else .error (.problem (.badToken "found unknown escape character"))

/-- The rest of a scalar up to its closing quote, and the place after it; the letters before it are
given last first. -/
def content (quote : Char) :
    Nat → List Text.Letter → Cursor → Except Refusal (List Text.Letter × Cursor)
  | 0, _, _ => .error (.problem (.badToken "found unexpected end of stream"))
  | fuel + 1, text, cursor =>
    match cursor.rest with
    | [] => .error (.problem (.badToken "found unexpected end of stream"))
    | c :: rest =>
      if c = quote then
        if quote = '\'' ∧ rest.head? = some '\'' then
          content quote fuel (.char '\'' :: text) (cursor.skip 2)
        else .ok (text.reverse, cursor.next)
      else if isSeparator c then
        match blanks cursor with
        | .error refusal => .error refusal
        | .ok (read, cursor) => content quote fuel ((read.map .char).reverse ++ text) cursor
      else if quote = '"' ∧ c = '\\' then
        match escape cursor.next with
        | .error refusal => .error refusal
        | .ok (read, cursor) => content quote fuel (read.reverse ++ text) cursor
      else content quote fuel (.char c :: text) cursor.next

def read (quote : Char) (cursor : Cursor) : Except Refusal (Text.Written × Cursor) :=
  match content quote cursor.steps [] cursor.next with
  | .error refusal => .error refusal
  | .ok (letters, cursor) => .ok (.ofLetters letters, cursor)

end Emplace.Yaml.Quoted

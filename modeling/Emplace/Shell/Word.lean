import Emplace.Shell.Token

/-!
Reading words: quotes, escapes and what a dollar sign or a backquote begins. A word is built last
piece first, and so are the characters of a piece, until it is complete.
-/
namespace Emplace.Shell.Word

inductive Mode where
  /-- Outside of all quotes, up to a character that ends words. -/
  | outside
  | quotes
  | braces
  /-- In the braces of a parameter between double quotes; `inner` between quotes within them. -/
  | quotedBraces (inner : Bool)
  /-- In an expression, with open parentheses. -/
  | sum (depth : Nat)
  /-- In a text of several lines, up to its end. -/
  | document
  deriving DecidableEq, Repr

namespace Mode

def isQuoted : Mode → Bool
  | outside => false
  | braces => false
  | _ => true

def guards (mode : Mode) (c : Char) : Bool :=
  match mode with
  | outside => true
  | braces => true
  | quotedBraces _ => ['\\', '\x60', '$', '"', '\x7d'].contains c
  | document => ['\\', '\x60', '$'].contains c
  | _ => ['\\', '\x60', '$', '"'].contains c

def inBraces : Mode → Mode
  | outside => braces
  | braces => braces
  | _ => quotedBraces false

def openError? : Mode → Option SyntaxError
  | outside => none
  | document => none
  | quotes => some .unterminatedQuote
  | quotedBraces _ => some .unterminatedQuote
  | braces => some .missingBrace
  | sum _ => some .missingParentheses

end Mode

def add (c : Char) (quoted : Bool) : Word → Word
  | .text chars old :: rest =>
    if old = quoted then .text (c :: chars) quoted :: rest
    else .text [c] quoted :: .text chars old :: rest
  | word => .text [c] quoted :: word

def built (word : Word) : Word :=
  word.reverse.map fun piece => match piece with
    | .text chars quoted => .text chars.reverse quoted
    | piece => piece

/-- Whether a word stands for all arguments and for nothing where there are none. -/
def isAllArguments : Word → Bool
  | [.parameter "@" .value _] => true
  | _ => false

/-- What stands between double quotes, put in front of a word. Quotes around nothing make an empty
word, but quotes around all arguments need not make any. -/
def quote (inside word : Word) : Word :=
  if isAllArguments inside then inside ++ word else inside ++ .text [] true :: word

def single (chars : List Char) : List Char → Cursor → Except Broken (List Char × Cursor)
  | [], cursor => .error ⟨cursor.line, .unterminatedQuote⟩
  | '\'' :: rest, cursor => .ok (chars, cursor.goTo rest)
  | '\n' :: rest, cursor => single ('\n' :: chars) rest (cursor.nextLine rest)
  | c :: rest, cursor => single (c :: chars) rest cursor

/-- The characters up to a closing backquote, last first, with the escapes that count there carried
out. -/
def backquoted (quoted : Bool) :
    Nat → List Char → Cursor → Except Broken (List Char × Cursor)
  | 0, _, cursor => .error ⟨cursor.line, .openBackquote⟩
  | fuel + 1, chars, cursor =>
    match cursor.rest with
    | [] => .error ⟨cursor.line, .openBackquote⟩
    | '\x60' :: rest => .ok (chars, cursor.goTo rest)
    | '\\' :: '\n' :: rest => backquoted quoted fuel chars (cursor.nextLine rest)
    | '\\' :: c :: rest =>
      let guarded := ['\\', '\x60', '$'].contains c || (quoted && c = '"')
      backquoted quoted fuel (if guarded then c :: chars else c :: '\\' :: chars)
        (cursor.goTo rest)
    | '\n' :: rest => backquoted quoted fuel ('\n' :: chars) (cursor.nextLine rest)
    | c :: rest => backquoted quoted fuel (c :: chars) (cursor.goTo rest)

/-- The name of a parameter in braces, whether its length is asked for, and what follows. -/
def nameInBraces (chars : List Char) : Option (String × Bool × List Char) :=
  let named (length : Bool) (chars : List Char) : Option (String × Bool × List Char) :=
    let test := if chars.head?.any Char.isDigit then Char.isDigit else isNameChar
    let name := chars.takeWhile test
    some (String.ofList name, length, chars.drop name.length)
  match chars with
  | [] => none
  | '#' :: c :: rest =>
    if isNameChar c then named true (c :: rest)
    else match rest with
      | '\x7d' :: _ =>
        if isMark c then some (String.ofList [c], true, rest) else some ("#", false, c :: rest)
      | _ => some ("#", false, c :: rest)
  | c :: rest =>
    if isNameChar c then named false (c :: rest)
    else if isMark c then some (String.ofList [c], false, rest)
    else none

/-- What is made of a parameter, given the word that follows, and the mode in which that word
stands. -/
def useInBraces (mode : Mode) : List Char → (Word → Use) × Mode × List Char
  | ':' :: '-' :: rest => (.default true, mode.inBraces, rest)
  | ':' :: '=' :: rest => (.assigned true, mode.inBraces, rest)
  | ':' :: '?' :: rest => (.demanded true, mode.inBraces, rest)
  | ':' :: '+' :: rest => (.alternative true, mode.inBraces, rest)
  | ':' :: '\x7d' :: rest => (fun _ => .value, mode.inBraces, rest)
  | '-' :: rest => (.default false, mode.inBraces, rest)
  | '=' :: rest => (.assigned false, mode.inBraces, rest)
  | '?' :: rest => (.demanded false, mode.inBraces, rest)
  | '+' :: rest => (.alternative false, mode.inBraces, rest)
  | '#' :: '#' :: rest => (.cutFront true, .braces, rest)
  | '#' :: rest => (.cutFront false, .braces, rest)
  | '%' :: '%' :: rest => (.cutBack true, .braces, rest)
  | '%' :: rest => (.cutBack false, .braces, rest)
  | chars => (fun _ => .senseless, mode.inBraces, chars)

mutual

/-- The rest of a word in a mode. A `script` reads the commands that a word holds: up to a closing
parenthesis, or up to the end. -/
def read (script : Bool → Reader Command) : Nat → Mode → Word → Reader Word
  | 0, _, word => Reader.pure word
  | fuel + 1, mode, word => fun cursor =>
    let literal (c : Char) (rest : List Char) : Except Broken (Word × Cursor) :=
      read script fuel mode (add c mode.isQuoted word) (cursor.goTo rest)
    match cursor.rest with
    | [] =>
      match mode.openError? with
      | none => .ok (word, cursor)
      | some error => .error ⟨cursor.line, error⟩
    | '\\' :: '\n' :: rest => read script fuel mode word (cursor.nextLine rest)
    | '\\' :: c :: rest =>
      let word := if mode.guards c then word else add '\\' true word
      read script fuel mode (add c true word) (cursor.goTo rest)
    | '$' :: rest =>
      match dollar script fuel mode (cursor.goTo rest) with
      | .error broken => .error broken
      | .ok (piece, cursor) => read script fuel mode (piece :: word) cursor
    | '\x60' :: rest =>
      match backquote script fuel mode (cursor.goTo rest) with
      | .error broken => .error broken
      | .ok (piece, cursor) => read script fuel mode (piece :: word) cursor
    | '\'' :: rest =>
      if mode.isQuoted then literal '\'' rest
      else match single [] rest cursor with
        | .error broken => .error broken
        | .ok (chars, cursor) => read script fuel mode (.text chars true :: word) cursor
    | '"' :: rest =>
      match mode with
      | .quotes => .ok (word, cursor.goTo rest)
      | .quotedBraces inner => read script fuel (.quotedBraces !inner) word (cursor.goTo rest)
      | .document => literal '"' rest
      | .sum _ => read script fuel mode word (cursor.goTo rest)
      | _ =>
        match read script fuel .quotes [] (cursor.goTo rest) with
        | .error broken => .error broken
        | .ok (inside, cursor) => read script fuel mode (quote inside word) cursor
    | '\n' :: rest =>
      if mode = .outside then .ok (word, cursor)
      else read script fuel mode (add '\n' mode.isQuoted word) (cursor.nextLine rest)
    | '\x7d' :: rest =>
      if mode = .braces ∨ mode = .quotedBraces false then .ok (word, cursor.goTo rest)
      else literal '\x7d' rest
    | '(' :: rest =>
      match mode with
      | .outside => .ok (word, cursor)
      | .sum depth => read script fuel (.sum (depth + 1)) (add '(' true word) (cursor.goTo rest)
      | _ => literal '(' rest
    | ')' :: rest =>
      match mode, rest with
      | .outside, _ => .ok (word, cursor)
      | .sum 0, ')' :: rest => .ok (word, cursor.goTo rest)
      | .sum (depth + 1), _ => read script fuel (.sum depth) (add ')' true word) (cursor.goTo rest)
      | _, _ => literal ')' rest
    | c :: rest => if mode = .outside ∧ isMeta c then .ok (word, cursor) else literal c rest

def dollar (script : Bool → Reader Command) : Nat → Mode → Reader Piece
  | 0, _ => Reader.pure (.text ['$'] true)
  | fuel + 1, mode => fun cursor =>
    let quoted := mode.isQuoted
    match cursor.rest with
    | '(' :: '(' :: rest =>
      match read script fuel (.sum 0) [] (cursor.goTo rest) with
      | .error broken => .error broken
      | .ok (word, cursor) => .ok (.arithmetic (built word) quoted, cursor)
    | '(' :: rest =>
      match script true { cursor with rest, held := none } with
      | .error broken => .error broken
      | .ok (command, cursor) => .ok (.output command quoted, cursor)
    | '\x7b' :: rest => parameter script fuel mode (cursor.goTo rest)
    | c :: rest =>
      if isMark c ∨ c.isDigit then
        .ok (.parameter (String.ofList [c]) .value quoted, cursor.goTo rest)
      else if isNameStart c then
        let name := cursor.rest.takeWhile isNameChar
        .ok (.parameter (String.ofList name) .value quoted,
          cursor.goTo (cursor.rest.drop name.length))
      else .ok (.text ['$'] quoted, cursor)
    | [] => .ok (.text ['$'] quoted, cursor)

def parameter (script : Bool → Reader Command) : Nat → Mode → Reader Piece
  | 0, _ => Reader.stop .missingBrace
  | fuel + 1, mode => fun cursor =>
    let quoted := mode.isQuoted
    let used (name : String) (use : Word → Use) (inner : Mode) (rest : List Char) :
        Except Broken (Piece × Cursor) :=
      match read script fuel inner [] (cursor.goTo rest) with
      | .error broken => .error broken
      | .ok (word, cursor) => .ok (.parameter name (use (built word)) quoted, cursor)
    match nameInBraces cursor.rest with
    | none => used "" (fun _ => .senseless) mode.inBraces cursor.rest
    | some (name, true, '\x7d' :: rest) => .ok (.parameter name .length quoted, cursor.goTo rest)
    | some (name, true, rest) => used name (fun _ => .senseless) mode.inBraces rest
    | some (name, false, '\x7d' :: rest) => .ok (.parameter name .value quoted, cursor.goTo rest)
    | some (name, false, rest) =>
      let (use, inner, rest) := useInBraces mode rest
      used name use inner rest

/-- A command between backquotes, from behind the first of them; its lines are counted anew. -/
def backquote (script : Bool → Reader Command) : Nat → Mode → Reader Piece
  | 0, _ => Reader.stop .openBackquote
  | _ + 1, mode => fun cursor =>
    match backquoted mode.isQuoted cursor.steps [] cursor with
    | .error broken => .error broken
    | .ok (chars, behind) =>
      match script false (.start cursor.aliases 1 chars.reverse) with
      | .error broken => .error broken
      | .ok (command, _) => .ok (.output command mode.isQuoted, behind)

end

end Emplace.Shell.Word

import Emplace.Yaml.Scalar.Block
import Emplace.Yaml.Scalar.Plain
import Emplace.Yaml.Scalar.Quoted
import Emplace.Yaml.Token.Directive

/-!
The tokens of a text in order. Outside brackets the columns of the lines decide: a token further to
the right than the block it stands in may begin a block, and one further to the left ends blocks.
What may begin a key is noted when it is met; only the colon behind it, on the same line and not too
far, makes it one, and the token for the key is put in front of it then.
-/
namespace Emplace.Yaml

structure KeyStart where
  position : Nat
  /-- Whether nothing else can stand there. -/
  required : Bool
  index : Nat
  line : Nat
  column : Nat
  deriving DecidableEq, Repr

structure Lexer where
  cursor : Cursor
  /-- The tokens so far, last first. -/
  tokens : List Token
  count : Nat
  depth : Nat
  /-- The column of the innermost block, and those of the blocks around it. -/
  indent : Int
  outer : List Int
  keyAllowed : Bool
  /-- Where keys may have begun, by the number of open brackets. -/
  keys : List (Nat × KeyStart)
  deriving DecidableEq, Repr

namespace Lexer

def start (text : List Char) : Lexer := ⟨.start text, [], 0, 0, -1, [], true, []⟩

def keyLimit : Nat := 1024

def refuse {α : Type} (what : String) : Except Refusal α :=
  .error (.problem (.badToken what))

def push (lexer : Lexer) (token : Token) : Lexer :=
  { lexer with tokens := token :: lexer.tokens, count := lexer.count + 1 }

/-- The lexer with a token put in front of all but the first `position` tokens. -/
def insert (lexer : Lexer) (position : Nat) (token : Token) : Lexer :=
  let later := lexer.count - position
  { lexer with
    tokens := lexer.tokens.take later ++ token :: lexer.tokens.drop later
    count := lexer.count + 1 }

def pushNext (lexer : Lexer) (token : Token) : Lexer :=
  { lexer.push token with cursor := lexer.cursor.next }

def isStale (cursor : Cursor) (key : KeyStart) : Bool :=
  key.line ≠ cursor.line || keyLimit < cursor.index - key.index

def dropStale (lexer : Lexer) : Except Refusal Lexer :=
  if lexer.keys.any fun row => isStale lexer.cursor row.2 && row.2.required then
    refuse "could not find expected ':'"
  else .ok { lexer with keys := lexer.keys.filter fun row => !isStale lexer.cursor row.2 }

def dropKey (lexer : Lexer) : Except Refusal Lexer :=
  match lexer.keys.lookup lexer.depth with
  | none => .ok lexer
  | some key =>
    if key.required then refuse "could not find expected ':'"
    else .ok { lexer with keys := lexer.keys.filter fun row => row.1 ≠ lexer.depth }

def saveKey (lexer : Lexer) : Except Refusal Lexer :=
  if lexer.keyAllowed then
    match lexer.dropKey with
    | .error refusal => .error refusal
    | .ok lexer =>
      let key : KeyStart :=
        { position := lexer.count
          required := lexer.depth = 0 && lexer.indent = (lexer.cursor.column : Int)
          index := lexer.cursor.index
          line := lexer.cursor.line
          column := lexer.cursor.column }
      .ok { lexer with keys := (lexer.depth, key) :: lexer.keys }
  else .ok lexer

def endBlocks (column : Int) : List Int → Lexer → Lexer
  | [], lexer => lexer
  | indent :: outer, lexer =>
    if column < lexer.indent then
      endBlocks column outer { lexer.push .blockEnd with indent, outer }
    else lexer

/-- Ends the blocks further to the right than a column; between brackets columns do not count. -/
def unwind (lexer : Lexer) (column : Int) : Lexer :=
  if lexer.depth = 0 then endBlocks column lexer.outer lexer else lexer

/-- Whether a block begins at a column, and the lexer inside of it. -/
def enter (lexer : Lexer) (column : Nat) : Bool × Lexer :=
  if lexer.indent < column then
    (true, { lexer with indent := column, outer := lexer.indent :: lexer.outer })
  else (false, lexer)

/-- The lexer at the next token: without the spaces, comments and line ends before it. -/
def skipToToken : Nat → Lexer → Lexer
  | 0, lexer => lexer
  | fuel + 1, lexer =>
    let cursor := lexer.cursor.skipSpaces.skipComment
    if cursor.atBreak then
      skipToToken fuel
        { lexer with
          cursor := cursor.takeBreak.2, keyAllowed := lexer.keyAllowed || lexer.depth = 0 }
    else { lexer with cursor }

/-- The lexer without a byte order mark at the beginning of the text. -/
def skipMark (lexer : Lexer) : Lexer :=
  if lexer.cursor.index = 0 ∧ lexer.cursor.peek = some byteOrderMark then
    { lexer with cursor := lexer.cursor.next }
  else lexer

def takeEnd (lexer : Lexer) : Except Refusal Lexer :=
  match (lexer.unwind (-1)).dropKey with
  | .error refusal => .error refusal
  | .ok lexer => .ok { lexer.push .textEnd with keys := [], keyAllowed := false }

def takeDirective (lexer : Lexer) : Except Refusal Lexer :=
  match (lexer.unwind (-1)).dropKey with
  | .error refusal => .error refusal
  | .ok lexer =>
    match Directive.read lexer.cursor with
    | .error refusal => .error refusal
    | .ok (token, cursor) => .ok { lexer.push token with cursor, keyAllowed := false }

def takeMarker (lexer : Lexer) (token : Token) : Except Refusal Lexer :=
  match (lexer.unwind (-1)).dropKey with
  | .error refusal => .error refusal
  | .ok lexer =>
    .ok { lexer.push token with cursor := lexer.cursor.skip 3, keyAllowed := false }

def takeOpening (lexer : Lexer) (token : Token) : Except Refusal Lexer :=
  match lexer.saveKey with
  | .error refusal => .error refusal
  | .ok lexer => .ok { lexer.pushNext token with depth := lexer.depth + 1, keyAllowed := true }

def takeClosing (lexer : Lexer) (token : Token) : Except Refusal Lexer :=
  match lexer.dropKey with
  | .error refusal => .error refusal
  | .ok lexer =>
    if lexer.depth = 0 then refuse "found a closing bracket without an opening one"
    else .ok { lexer.pushNext token with depth := lexer.depth - 1, keyAllowed := false }

def takeComma (lexer : Lexer) : Except Refusal Lexer :=
  match lexer.dropKey with
  | .error refusal => .error refusal
  | .ok lexer => .ok { lexer.pushNext .comma with keyAllowed := true }

def beginBlock (lexer : Lexer) (token : Token) : Lexer :=
  match lexer.enter lexer.cursor.column with
  | (true, lexer) => lexer.push token
  | (false, lexer) => lexer

def takeItem (lexer : Lexer) : Except Refusal Lexer :=
  if lexer.depth = 0 ∧ !lexer.keyAllowed then refuse "sequence entries are not allowed here"
  else
    let lexer := if lexer.depth = 0 then lexer.beginBlock .blockListStart else lexer
    match lexer.dropKey with
    | .error refusal => .error refusal
    | .ok lexer => .ok { lexer.pushNext .item with keyAllowed := true }

def takeKey (lexer : Lexer) : Except Refusal Lexer :=
  if lexer.depth = 0 ∧ !lexer.keyAllowed then refuse "mapping keys are not allowed here"
  else
    let lexer := if lexer.depth = 0 then lexer.beginBlock .blockMapStart else lexer
    match lexer.dropKey with
    | .error refusal => .error refusal
    | .ok lexer => .ok { lexer.pushNext .key with keyAllowed := lexer.depth = 0 }

def confirmKey (lexer : Lexer) (key : KeyStart) : Lexer :=
  let lexer := { lexer with keys := lexer.keys.filter fun row => row.1 ≠ lexer.depth }
  let lexer := lexer.insert key.position .key
  if lexer.depth = 0 then
    match lexer.enter key.column with
    | (true, lexer) => lexer.insert key.position .blockMapStart
    | (false, lexer) => lexer
  else lexer

def takeValue (lexer : Lexer) : Except Refusal Lexer :=
  match lexer.keys.lookup lexer.depth with
  | some key => .ok { (lexer.confirmKey key).pushNext .value with keyAllowed := false }
  | none =>
    if lexer.depth = 0 ∧ !lexer.keyAllowed then refuse "mapping values are not allowed here"
    else
      let lexer := if lexer.depth = 0 then lexer.beginBlock .blockMapStart else lexer
      .ok { lexer.pushNext .value with keyAllowed := lexer.depth = 0 }

def nameEnds : List Char := ['?', ':', ',', ']', '\x7d', '%', '@', '\x60']

def takeName (lexer : Lexer) (token : String → Token) : Except Refusal Lexer :=
  match lexer.saveKey with
  | .error refusal => .error refusal
  | .ok lexer =>
    match lexer.cursor.next.takeWhile isWordChar with
    | ([], _) => refuse "expected a letter or a digit in a name"
    | (name, cursor) =>
      if cursor.peek.all fun c => isSeparator c || nameEnds.contains c then
        .ok { lexer.push (token (String.ofList name)) with cursor, keyAllowed := false }
      else refuse "expected a letter or a digit in a name"

def takeTag (lexer : Lexer) : Except Refusal Lexer :=
  match lexer.saveKey with
  | .error refusal => .error refusal
  | .ok lexer =>
    match TagText.read lexer.cursor with
    | .error refusal => .error refusal
    | .ok (tag, cursor) => .ok { lexer.push (.tag tag) with cursor, keyAllowed := false }

def takeBlock (lexer : Lexer) (folding : Bool) : Except Refusal Lexer :=
  match lexer.dropKey with
  | .error refusal => .error refusal
  | .ok lexer =>
    match Block.read folding lexer.indent lexer.cursor with
    | .error refusal => .error refusal
    | .ok (text, cursor) =>
      .ok { lexer.push (.scalar (.text text) false) with cursor, keyAllowed := true }

def takeQuoted (lexer : Lexer) (quote : Char) : Except Refusal Lexer :=
  match lexer.saveKey with
  | .error refusal => .error refusal
  | .ok lexer =>
    match Quoted.read quote lexer.cursor with
    | .error refusal => .error refusal
    | .ok (text, cursor) =>
      .ok { lexer.push (.scalar text false) with cursor, keyAllowed := false }

def takePlain (lexer : Lexer) : Except Refusal Lexer :=
  match lexer.saveKey with
  | .error refusal => .error refusal
  | .ok lexer =>
    let (text, cursor, broken) :=
      Plain.read (lexer.depth ≠ 0) (lexer.indent + 1) lexer.cursor
    .ok { lexer.push (.scalar (.text text) true) with cursor, keyAllowed := broken }

def indicators : List Char := [
  '-', '?', ':', ',', '[', ']', '\x7b', '\x7d', '#', '&', '*', '!', '|', '>', '\'', '"', '%', '@',
  '\x60']

def atPlain (lexer : Lexer) (c : Char) : Bool :=
  if isSeparator c || indicators.contains c then
    !lexer.cursor.separatedAt 1 && (c = '-' || (lexer.depth = 0 && (c = '?' || c = ':')))
  else true

def takeToken (lexer : Lexer) (c : Char) : Except Refusal Lexer :=
  let block := lexer.depth = 0
  if c = '%' ∧ lexer.cursor.column = 0 then lexer.takeDirective
  else if lexer.cursor.column = 0 ∧ lexer.cursor.atMarker then
    lexer.takeMarker (if c = '-' then .documentStart else .documentEnd)
  else if c = '[' then lexer.takeOpening .listStart
  else if c = '\x7b' then lexer.takeOpening .mapStart
  else if c = ']' then lexer.takeClosing .listEnd
  else if c = '\x7d' then lexer.takeClosing .mapEnd
  else if c = ',' then lexer.takeComma
  else if c = '-' ∧ lexer.cursor.separatedAt 1 then lexer.takeItem
  else if c = '?' ∧ (¬ block ∨ lexer.cursor.separatedAt 1) then lexer.takeKey
  else if c = ':' ∧ (¬ block ∨ lexer.cursor.separatedAt 1) then lexer.takeValue
  else if c = '*' then lexer.takeName .alias
  else if c = '&' then lexer.takeName .anchor
  else if c = '!' then lexer.takeTag
  else if c = '|' ∧ block then lexer.takeBlock false
  else if c = '>' ∧ block then lexer.takeBlock true
  else if c = '\'' ∨ c = '"' then lexer.takeQuoted c
  else if lexer.atPlain c then lexer.takePlain
  else refuse "found a character that cannot start any token"

def step (lexer : Lexer) : Except Refusal Lexer :=
  let lexer := lexer.skipMark
  match (skipToToken lexer.cursor.steps lexer).dropStale with
  | .error refusal => .error refusal
  | .ok lexer =>
    let lexer := lexer.unwind lexer.cursor.column
    match lexer.cursor.peek with
    | none => lexer.takeEnd
    | some c => lexer.takeToken c

def isDone (lexer : Lexer) : Bool := lexer.tokens.head? = some .textEnd

def settled (lexer : Lexer) : List Token :=
  let live := lexer.keys.filter fun row => !isStale lexer.cursor row.2
  let all := lexer.tokens.reverse
  all.take (live.foldl (fun least row => min least row.2.position) all.length)

def run : Nat → Lexer → List Token × Option Refusal
  | 0, lexer => (lexer.settled, some (.problem (.badToken "found unexpected end of stream")))
  | fuel + 1, lexer =>
    match lexer.step with
    | .error refusal => (lexer.settled, some refusal)
    | .ok lexer => if lexer.isDone then (lexer.tokens.reverse, none) else run fuel lexer

end Lexer

/-- The tokens of a text; where some of it is no token, those before it and what is wrong. -/
def tokensOf (text : List Char) : List Token × Option Refusal :=
  Lexer.run (text.length + 2) (Lexer.start text)

end Emplace.Yaml

import Emplace.Shell.Word

/-!
Reading commands. A script is read one complete command at a time, so that what stands before a
mistake is still carried out.
-/
namespace Emplace.Shell.Script

inductive Around where
  | line
  /-- The list has at least one command and ends before a word or sign that ends lists. -/
  | block
  | clause
  deriving DecidableEq, Repr

structure Parts where
  list : Around → Reader Command
  command : Reader Command
  /-- The commands that a word holds: up to a closing parenthesis, or up to the end. -/
  inner : Bool → Reader Command

def keywords : List String := [
  "!", "case", "do", "done", "elif", "else", "esac", "fi", "for", "if", "in", "then", "until",
  "while", "\x7b", "\x7d"]

def reserved : List String := [
  ".", ":", "break", "continue", "eval", "exec", "exit", "export", "local", "readonly", "return",
  "set", "shift", "times", "trap", "unset"]

def endsList : Token → Bool
  | .ending => true
  | .sign text => [")", ";;"].contains text
  | .keyword name => ["do", "done", "elif", "else", "esac", "fi", "then", "\x7d"].contains name
  | _ => false

def bare? : Word → Option String
  | [.text chars false] => some (String.ofList chars)
  | _ => none

def word (parts : Parts) : Reader Token := fun cursor =>
  match Word.read parts.inner (cursor.steps) .outside [] cursor with
  | .error broken => .error broken
  | .ok (word, cursor) =>
    let word := Word.built word
    .ok (.word word (bare? word), cursor)

def direction : List Char → Option (Direction × List Char)
  | '<' :: '<' :: '-' :: rest => some (.document true, rest)
  | '<' :: '<' :: rest => some (.document false, rest)
  | '<' :: '&' :: rest => some (.copy, rest)
  | '<' :: '>' :: rest => some (.opening .update, rest)
  | '<' :: rest => some (.opening .read, rest)
  | '>' :: '>' :: rest => some (.opening .behind, rest)
  | '>' :: '&' :: rest => some (.copy, rest)
  | '>' :: '|' :: rest => some (.opening .replace, rest)
  | '>' :: rest => some (.opening .write, rest)
  | _ => none

/-- The descriptor that a sign of redirection is for where no other is named. -/
def usual : List Char → Nat
  | '<' :: _ => 0
  | _ => 1

def redirection? (chars : List Char) : Option (Token × List Char) :=
  match chars with
  | [] => none
  | c :: rest =>
    if c.isDigit then
      (direction rest).map fun (direction, rest) => (.redirection (c.toNat - 48) direction, rest)
    else (direction chars).map fun (direction, rest) => (.redirection (usual chars) direction, rest)

def scan (parts : Parts) : Nat → Reader Token
  | 0 => Reader.pure .ending
  | fuel + 1 => fun cursor =>
    let sign (text : String) (rest : List Char) : Except Broken (Token × Cursor) :=
      .ok (.sign text, cursor.goTo rest)
    match cursor.rest with
    | [] => .ok (.ending, cursor)
    | ' ' :: rest => scan parts fuel (cursor.goTo rest)
    | '\t' :: rest => scan parts fuel (cursor.goTo rest)
    | '\\' :: '\n' :: rest => scan parts fuel (cursor.nextLine rest)
    | '#' :: rest => scan parts fuel (cursor.goTo (rest.dropWhile (· ≠ '\n')))
    | '\n' :: rest => .ok (.lineEnd, cursor.nextLine rest)
    | '&' :: '&' :: rest => sign "&&" rest
    | '&' :: rest => sign "&" rest
    | '|' :: '|' :: rest => sign "||" rest
    | '|' :: rest => sign "|" rest
    | ';' :: ';' :: rest => sign ";;" rest
    | ';' :: rest => sign ";" rest
    | '(' :: rest => sign "(" rest
    | ')' :: rest => sign ")" rest
    | chars =>
      match redirection? chars with
      | some (token, rest) => .ok (token, cursor.goTo rest)
      | none => word parts cursor

def fetch (parts : Parts) : Reader Token := fun cursor =>
  match cursor.held with
  | some token => .ok (token, { cursor with held := none })
  | none => scan parts (cursor.steps) cursor

def fetchBehind (parts : Parts) : Nat → Reader Token
  | 0 => fetch parts
  | fuel + 1 => do
    match ← fetch parts with
    | .lineEnd => fetchBehind parts fuel
    | token => Reader.pure token

/-- The token that counts where a command begins: a word of the language for a word that is one, and
what is read, with `again`, from the text that stands for a word. -/
def known (again : Reader Token) : Nat → Token → Reader Token
  | 0, token => Reader.pure token
  | fuel + 1, token => do
    match token with
    | .word word (some bare) =>
      if keywords.contains bare then return .keyword bare
      else
        let cursor ← Reader.cursor
        match cursor.alias? bare with
        | none => return .word word (some bare)
        | some text =>
          Reader.moveTo (cursor.replace bare text)
          known again fuel (← again)
    | token => return token

def next (parts : Parts) : Reader Token := do
  let cursor ← Reader.cursor
  known (fetch parts) cursor.steps (← fetch parts)

def nextBehind (parts : Parts) : Reader Token := do
  let cursor ← Reader.cursor
  let again := fetchBehind parts cursor.steps
  known again cursor.steps (← again)

def putBack (token : Token) : Reader Unit := fun cursor =>
  .ok ((), { cursor with held := some token })

variable {α : Type}

def unexpected (token : Token) : Reader α :=
  Reader.stop (.unexpected token.name none)

def expecting (wanted token : Token) : Reader α :=
  Reader.stop (.unexpected token.name (some wanted.name))

def expectSign (parts : Parts) (text : String) : Reader Unit := do
  match ← fetch parts with
  | .sign found =>
    if found = text then Reader.pure () else expecting (.sign text) (.sign found)
  | token => expecting (.sign text) token

def expectKeyword (name : String) (token : Token) : Reader Unit :=
  match token with
  | .keyword found =>
    if found = name then Reader.pure () else expecting (.keyword name) (.keyword found)
  | token => expecting (.keyword name) token

/-- The text of a word that ends a document, and whether any of it was quoted. -/
def marker (word : Word) : String × Bool :=
  (String.ofList (word.flatMap fun piece => match piece with
      | .text chars _ => chars
      | _ => []),
    word.any fun piece => match piece with
      | .text _ quoted => quoted
      | _ => false)

def document (indented : Bool) (marker : List Char) : Nat → List Char → List Char × List Char × Nat
  | 0, rest => ([], rest, 0)
  | fuel + 1, rest =>
    if rest.isEmpty then ([], [], 0)
    else
      let whole := rest.takeWhile (· ≠ '\n')
      let behind := rest.drop whole.length
      let line := if indented then whole.dropWhile (· = '\t') else whole
      if line = marker then ([], behind.drop 1, if behind.isEmpty then 0 else 1)
      else
        let (lines, left, count) := document indented marker fuel (behind.drop 1)
        (line ++ behind.take 1 ++ lines, left, if behind.isEmpty then count else count + 1)

/-- The word that ends a document; a dollar sign means nothing in it. -/
def markerWord (parts : Parts) : Reader Token := fun cursor =>
  let front := cursor.rest.dropWhile fun c => c = ' ' || c = '\t'
  let plain := front.takeWhile fun c => !(isMeta c || c = '\'' || c = '"' || c = '\\')
  let behind := front.drop plain.length
  if !plain.isEmpty ∧ behind.head?.all isMeta then
    .ok (.word [.text plain false] (some (String.ofList plain)), cursor.goTo behind)
  else fetch parts (cursor.goTo front)

/-- The redirection to a document, which is taken out of the text behind the line. -/
def documentFor (parts : Parts) (descriptor : Nat) (indented : Bool) : Reader Redirection := do
  match ← markerWord parts with
  | .word word _ =>
    let (mark, quoted) := marker word
    let cursor ← Reader.cursor
    let line := cursor.rest.takeWhile (· ≠ '\n')
    let behind := (cursor.rest.drop line.length).drop 1
    let (content, left, count) := document indented mark.toList (behind.length + 1) behind
    let first := cursor.line + 1 + cursor.taken
    Reader.moveTo { cursor with rest := line ++ '\n' :: left, taken := cursor.taken + count }
    if quoted then return .document descriptor [.text content true]
    else
      let inside := Cursor.start cursor.aliases first content
      match Word.read parts.inner inside.steps .document [] inside with
      | .error broken => fun _ => .error broken
      | .ok (word, _) => return .document descriptor (Word.built word)
  | token => unexpected token

/-- Whether a word can follow a sign for copies: a descriptor, a dash or what has a value only
later. -/
def isCopySource (word : Word) : Bool :=
  match bare? word with
  | none => true
  | some text => text = "-" || (text.length = 1 && text.toList.all Char.isDigit)

def redirection (parts : Parts) (descriptor : Nat) : Direction → Reader Redirection
  | .document indented => documentFor parts descriptor indented
  | .opening opening => do
    match ← fetch parts with
    | .word word _ => return .file descriptor opening word
    | token => unexpected token
  | .copy => do
    match ← fetch parts with
    | .word word _ =>
      if isCopySource word then return .copy descriptor word else Reader.stop .badDescriptor
    | token => unexpected token

def redirections (parts : Parts) : Nat → Reader (List Redirection)
  | 0 => Reader.pure []
  | fuel + 1 => do
    match ← next parts with
    | .redirection descriptor direction =>
      let first ← redirection parts descriptor direction
      return first :: (← redirections parts fuel)
    | token =>
      putBack token
      return []

def assignment? : Word → Option (String × Word)
  | .text chars false :: rest =>
    let name := String.ofList (chars.takeWhile (· ≠ '='))
    match chars.drop name.length with
    | '=' :: value =>
      if isName name then
        some (name, if value.isEmpty then rest else .text value false :: rest)
      else none
    | _ => none
  | _ => none

/-- A simple command as far as it has been read, last parts first. -/
structure Simple where
  assignments : List (String × Word)
  words : List Word
  redirections : List Redirection

def definition (parts : Parts) (name : Option String) : Reader Command := do
  match ← fetch parts with
  | .sign ")" =>
    match name with
    | none => Reader.stop .badFunctionName
    | some name =>
      if !isName name ∨ reserved.contains name then Reader.stop .badFunctionName
      else
        putBack (← nextBehind parts)
        return .define name (← parts.command)
  | token => expecting (.sign ")") token

/-- A word behind assignments: the text that stands for it is read in its place, but no word of the
language counts. -/
def unlisted (parts : Parts) (fuel : Nat) (token : Token) : Reader Token := do
  match token with
  | .word word (some bare) =>
    if keywords.contains bare then return .word word (some bare)
    else known (fetch parts) fuel token
  | token => return token

def simple (parts : Parts) (line : Nat) : Nat → Simple → Reader Command
  | 0, _ => Reader.pure .nothing
  | fuel + 1, read => do
    let cursor ← Reader.cursor
    let token ← fetch parts
    let fresh := read.words.isEmpty || cursor.isBehindAlias
    match ← if fresh then unlisted parts cursor.steps token else Reader.pure token with
    | .word word bare =>
      match if read.words.isEmpty then assignment? word else none with
      | some assignment =>
        simple parts line fuel { read with assignments := assignment :: read.assignments }
      | none => do
        let cursor ← Reader.cursor
        let token ← fetch parts
        match ← if cursor.isBehindAlias then unlisted parts cursor.steps token
          else Reader.pure token, read with
        | .sign "(", ⟨[], [], []⟩ => definition parts bare
        | token, _ =>
          putBack token
          simple parts line fuel { read with words := word :: read.words }
    | .redirection descriptor direction =>
      let first ← redirection parts descriptor direction
      simple parts line fuel { read with redirections := first :: read.redirections }
    | token =>
      putBack token
      return .simple line read.assignments.reverse read.words.reverse read.redirections.reverse

def branches (parts : Parts) : Nat → Reader Command
  | 0 => Reader.pure .nothing
  | fuel + 1 => do
    let condition ← parts.list .block
    expectKeyword "then" (← next parts)
    let yes ← parts.list .block
    match ← next parts with
    | .keyword "elif" => return .branch condition yes (← branches parts fuel)
    | .keyword "else" =>
      let no ← parts.list .block
      expectKeyword "fi" (← next parts)
      return .branch condition yes no
    | token =>
      expectKeyword "fi" token
      return .branch condition yes .nothing

def body (parts : Parts) (token : Token) : Reader Command := do
  expectKeyword "do" token
  let body ← parts.list .block
  expectKeyword "done" (← next parts)
  return body

def words (parts : Parts) : Nat → Reader (List Word)
  | 0 => Reader.pure []
  | fuel + 1 => do
    match ← fetch parts with
    | .word word _ => return word :: (← words parts fuel)
    | .lineEnd => return []
    | .sign ";" => return []
    | token => unexpected token

def each (parts : Parts) (line : Nat) : Reader Command := do
  match ← fetch parts with
  | .word _ (some name) =>
    if !isName name then Reader.stop .badLoopName
    else
      match ← nextBehind parts with
      | .keyword "in" =>
        let cursor ← Reader.cursor
        let words ← words parts (cursor.steps)
        return .each line name words (← body parts (← nextBehind parts))
      | token =>
        let all : List Word := [[.parameter "@" .value true]]
        match token with
        | .sign ";" => return .each line name all (← body parts (← nextBehind parts))
        | token => return .each line name all (← body parts token)
  | _ => Reader.stop .badLoopName

/-- The patterns of a clause, from the first of them up to the closing parenthesis. -/
def patterns (parts : Parts) : Nat → Token → Reader (List Word)
  | 0, _ => Reader.pure []
  | fuel + 1, token => do
    let pattern : Word := match token with
      | .word word _ => word
      | .keyword name => [.text name.toList false]
      | _ => []
    match ← fetch parts with
    | .sign "|" => return pattern :: (← patterns parts fuel (← fetch parts))
    | .sign ")" => return [pattern]
    | token => expecting (.sign ")") token

def clauses (parts : Parts) : Nat → Reader (List (List Word × Command))
  | 0 => Reader.pure []
  | fuel + 1 => do
    let cursor ← Reader.cursor
    match ← fetchBehind parts cursor.steps with
    | .word _ (some "esac") => return []
    | token =>
      let first ← match token with
        | .sign "(" => fetch parts
        | token => Reader.pure token
      let cursor ← Reader.cursor
      let patterns ← patterns parts (cursor.steps) first
      let body ← parts.list .clause
      match ← nextBehind parts with
      | .keyword "esac" => return [(patterns, body)]
      | .sign ";;" => return (patterns, body) :: (← clauses parts fuel)
      | token => expecting (.sign ";;") token

def choice (parts : Parts) (line : Nat) : Reader Command := do
  match ← fetch parts with
  | .word word _ =>
    expectKeyword "in" (← nextBehind parts)
    let cursor ← Reader.cursor
    return .choice line word (← clauses parts (cursor.steps))
  | token => expecting (.word [] none) token

def withRedirections (parts : Parts) (line : Nat) (command : Command) : Reader Command := do
  let cursor ← Reader.cursor
  match ← redirections parts (cursor.steps), command with
  | [], command => return command
  | all, .subshell line inner _ => return .subshell line inner all
  | all, command => return .redirected line command all

def command (parts : Parts) : Reader Command := do
  let token ← next parts
  let cursor ← Reader.cursor
  let line := cursor.line
  let fuel := cursor.steps
  match token with
  | .keyword "if" => withRedirections parts line (← branches parts fuel)
  | .keyword "while" =>
    let condition ← parts.list .block
    withRedirections parts line (.loop true condition (← body parts (← next parts)))
  | .keyword "until" =>
    let condition ← parts.list .block
    withRedirections parts line (.loop false condition (← body parts (← next parts)))
  | .keyword "for" => withRedirections parts line (← each parts line)
  | .keyword "case" => withRedirections parts line (← choice parts line)
  | .keyword "\x7b" =>
    let inner ← parts.list .block
    expectKeyword "\x7d" (← next parts)
    withRedirections parts line inner
  | .sign "(" =>
    let inner ← parts.list .block
    expectSign parts ")"
    withRedirections parts line (.subshell line inner [])
  | .word word bare =>
    putBack (.word word bare)
    simple parts line fuel ⟨[], [], []⟩
  | .redirection descriptor direction =>
    putBack (.redirection descriptor direction)
    simple parts line fuel ⟨[], [], []⟩
  | token => unexpected token

def behindBars (parts : Parts) : Nat → List Command → Reader (List Command)
  | 0, read => Reader.pure read
  | fuel + 1, read => do
    match ← fetch parts with
    | .sign "|" =>
      putBack (← nextBehind parts)
      behindBars parts fuel ((← command parts) :: read)
    | token =>
      putBack token
      return read

def unsigned (parts : Parts) : Reader Command := do
  let first ← command parts
  let cursor ← Reader.cursor
  match ← behindBars parts (cursor.steps) [first] with
  | [only] => return only
  | all => return .pipe all.reverse

def pipeline (parts : Parts) : Reader Command := do
  match ← next parts with
  | .keyword "!" => return .negated (← unsigned parts)
  | token =>
    putBack token
    unsigned parts

def joined (parts : Parts) : Nat → Command → Reader Command
  | 0, first => Reader.pure first
  | fuel + 1, first => do
    match ← fetch parts with
    | .sign "&&" =>
      putBack (← nextBehind parts)
      joined parts fuel (.both first (← pipeline parts))
    | .sign "||" =>
      putBack (← nextBehind parts)
      joined parts fuel (.either first (← pipeline parts))
    | token =>
      putBack token
      return first

def behind (before : Option Command) (command : Command) : Command :=
  match before with
  | none => command
  | some before => .sequence before command

/-- Commands one after the other; `may` tells whether the list can end here. -/
def list (parts : Parts) (around : Around) : Nat → Bool → Option Command → Reader Command
  | 0, _, before => Reader.pure (before.getD .nothing)
  | fuel + 1, may, before => do
    let token ← if around = .line then next parts else nextBehind parts
    match token with
    | .lineEnd => return before.getD .nothing
    | .ending =>
      putBack .ending
      return before.getD .nothing
    | token =>
      putBack token
      if may ∧ around ≠ .line ∧ endsList token then return before.getD .nothing
      else
        let first ← pipeline parts
        let cursor ← Reader.cursor
        let command ← joined parts (cursor.steps) first
        match ← fetch parts with
        | .sign "&" => list parts around fuel true (behind before (.background command))
        | .sign ";" => list parts around fuel true (behind before command)
        | .lineEnd =>
          putBack .lineEnd
          list parts around fuel true (behind before command)
        | .ending =>
          putBack .ending
          return behind before command
        | token =>
          if around = .line then unexpected token
          else
            putBack token
            return behind before command

def inner (parts : Parts) (closed : Bool) : Reader Command := do
  let cursor ← Reader.cursor
  let commands ← list parts .clause (cursor.steps) true none
  if closed then expectSign parts ")"
  return commands

def within : Nat → Parts
  | 0 => ⟨fun _ => Reader.pure .nothing, Reader.pure .nothing, fun _ => Reader.pure .nothing⟩
  | depth + 1 =>
    { list := fun around cursor =>
        list (within depth) around (cursor.steps) (around = .clause) none cursor
      command := fun cursor => command (within depth) cursor
      inner := fun closed cursor => inner (within depth) closed cursor }

def read? : Reader (Option Command) := fun cursor =>
  match cursor.rest, cursor.held with
  | [], _ => .ok (none, cursor)
  | _, _ =>
    let depth := cursor.steps
    match list (within depth) .line depth false none { cursor with held := none } with
    | .error broken => .error broken
    | .ok (command, cursor) => .ok (some command, cursor)

end Emplace.Shell.Script

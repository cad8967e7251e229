import Emplace.Shell.Tool.Editing.Replacement
import Emplace.Shell.Tool.Streams

/-!
A script at work. It keeps one line at hand and one aside, and goes through the lines of its input
one after the other.
-/
namespace Emplace.Shell.Tool.Editing

inductive Later where
  | text (text : String)
  | file (name : String)

inductive Goal where
  /-- The line of a number; lines behind it do not count. -/
  | line (number : Nat)
  | past (number : Nat)
  | test
  /-- Nothing; it does not begin again. -/
  | over
  deriving DecidableEq, Repr

structure Session where
  script : Array Command
  quiet : Bool
  mark : Char
  content : String → List Char
  /-- The lines that are left, and whether they have their ends. -/
  input : List (List Char × Bool)
  number : Nat
  line : List Char
  ended : Bool
  aside : List Char
  asideEnded : Bool
  /-- What has been written, last part first. -/
  out : List (List Char)
  pending : Bool
  later : List Later
  replaced : Bool
  /-- The ranges that have begun, by the places of their commands. -/
  ranges : List (Nat × Goal)
  /-- The expression that was last looked for, and whether in letters of both sizes. -/
  recent : Option (Regex × Bool)
  files : List (String × List (List Char))
  closed : Option Nat
  /-- Whether an expression was asked for that has not been given before. -/
  lost : Bool

namespace Session

def isLast (session : Session) : Bool := session.input.isEmpty

def write (session : Session) (text : List Char) : Session :=
  let gap := if session.pending then [session.mark] else []
  { session with out := (gap ++ text) :: session.out, pending := false }

/-- Writes a line, with its end if the line at hand has one. -/
def writeLine (session : Session) (text : List Char) : Session :=
  if session.ended then session.write (text ++ [session.mark])
  else { session.write text with pending := true }

def flush (session : Session) : Session :=
  let session' := session.later.reverse.foldl (fun (session : Session) later => match later with
    | .text text => session.write text.toList
    | .file name =>
      let text := session.content name
      if text.isEmpty then session else session.write text) session
  { session' with later := [] }

def advance (session : Session) : Option Session :=
  match session.input with
  | [] => none
  | (line, ended) :: input =>
    some { session.flush with
      input, line, ended, number := session.number + 1, replaced := false }

def means (session : Session) (address : Address) : Session × Bool :=
  match address with
  | .line n => (session, n = session.number)
  | .last => (session, session.isLast)
  | .every first step =>
    (session, if step = 0 then session.number = first
      else first ≤ session.number && (session.number - first) % step = 0)
  | .holding regex fold =>
    match (regex.map (·, fold)).or session.recent with
    | none => ({ session with lost := true, closed := some 1, later := [] }, false)
    | some (regex, fold) =>
      ({ session with recent := some (regex, fold) },
        (Regex.search fold regex session.line).isSome)

def aim (session : Session) (index : Nat) (goal : Option Goal) : Session :=
  let others := session.ranges.filter fun row => row.1 ≠ index
  { session with ranges := (goal.toList.map fun goal => (index, goal)) ++ others }

/-- Ends a range; one that begins at the line of a number does not begin again. -/
def leave (session : Session) (index : Nat) (first : Address) : Session :=
  session.aim index (match first with
    | .line _ => some .over
    | _ => none)

def begins (session : Session) (first : Address) : Session × Bool :=
  match first with
  | .line n => (session, n ≤ session.number)
  | first => session.means first

/-- Begins a range, and tells whether the line at hand belongs to it. -/
def enter (session : Session) (index : Nat) (first : Address) (stop : Stop) : Session × Bool :=
  let here := session.number
  match stop with
  | .at (.line n) =>
    if here < n then (session.aim index (some (.line n)), true)
    else (session.leave index first, match first with
      | .line least => here ≤ n || here = least
      | _ => true)
  | .at .last =>
    (if session.isLast then session.leave index first else session.aim index (some .test), true)
  | .at _ => (session.aim index (some .test), true)
  | .behind 0 => (session.leave index first, true)
  | .behind n => (session.aim index (some (.past (here + n))), true)
  | .multiple 0 => (session.leave index first, true)
  | .multiple unit => (session.aim index (some (.past ((here / unit + 1) * unit))), true)

def counts (session : Session) (index : Nat) (command : Command) : Session × Bool :=
  match command.first, command.stop, session.ranges.lookup index with
  | none, _, _ => (session, true)
  | some first, none, _ => session.means first
  | some _, some _, some .over => (session, false)
  | some first, some _, some (.line n) =>
    (if session.number < n then session else session.leave index first, session.number ≤ n)
  | some first, some _, some (.past n) =>
    (if session.number < n then session else session.leave index first, true)
  | some first, some (.at address), some .test =>
    match session.means address with
    | (session, true) => (session.leave index first, true)
    | (session, false) => (session, true)
  | some _, some _, some .test => (session, true)
  | some first, some stop, none =>
    match session.begins first with
    | (session, false) => (session, false)
    | (session, true) => session.enter index first stop

def keep (session : Session) (file : String) (text : List Char) : Session :=
  if file = "/dev/stdout" then session.writeLine text
  else { session with files := session.files.map fun row =>
    if row.1 = file then (file, (text ++ [session.mark]) :: row.2) else row }

def substitute (session : Session) (what : Substitution) : Session :=
  match (what.regex.map (·, what.fold)).or session.recent with
  | none => { session with lost := true, closed := some 1, later := [] }
  | some (regex, fold) =>
    let recent := some (regex, fold)
    let budget := 2 * session.line.length + 3
    match substituted regex { what with fold } budget what.nth false [] session.line with
    | (_, false) => { session with recent }
    | (line, true) =>
      let session := { session with line, recent, replaced := true }
      let session := if what.shows then session.writeLine line else session
      match what.file with
      | none => session
      | some file => session.keep file line

def display (line : List Char) : List Char :=
  let sign (c : Char) : List Char :=
    match [('\\', "\\\\"), ('\x07', "\\a"), ('\x08', "\\b"), ('\x0c', "\\f"), ('\n', "\\n"),
        ('\r', "\\r"), ('\t', "\\t"), ('\x0b', "\\v")].lookup c with
    | some text => text.toList
    | none =>
      if 32 ≤ c.toNat ∧ c.toNat < 127 then [c]
      else
        let digit (n : Nat) : Char := Char.ofNat (48 + c.toNat / n % 8)
        ['\\', digit 64, digit 8, digit 1]
  let (out, _) := line.foldl (fun (row : List Char × Nat) c =>
    let text := sign c
    if 69 < row.2 + text.length then (text.reverse ++ '\n' :: '\\' :: row.1, text.length)
    else (text.reverse ++ row.1, row.2 + text.length)) ([], 0)
  ('$' :: out).reverse

inductive After where
  | shown
  | dropped
  | again

def behindBlock (script : Array Command) : Nat → Nat → Nat → Nat
  | 0, _, index => index
  | fuel + 1, depth, index =>
    match script[index]? with
    | none => index
    | some command =>
      match command.change, depth with
      | .opening, depth => behindBlock script fuel (depth + 1) (index + 1)
      | .closing, 0 => index + 1
      | .closing, depth + 1 => behindBlock script fuel depth (index + 1)
      | _, depth => behindBlock script fuel depth (index + 1)

def placeOf (script : Array Command) (name : String) : Nat :=
  if name = "" then script.size
  else (script.findIdx? fun command => match command.change with
    | .label other => other = name
    | _ => false).getD script.size

def run : Nat → Session → Nat → Session × After
  | 0, session, _ => (session, .dropped)
  | fuel + 1, session, index =>
    match session.script[index]? with
    | none => (session, .shown)
    | some command =>
      let (session, held) := session.counts index command
      let go (session : Session) : Session × After := run fuel session (index + 1)
      let jump (session : Session) (name : String) : Session × After :=
        run fuel session (placeOf session.script name)
      if session.lost then (session, .dropped)
      else if held = command.inverted then
        match command.change with
        | .opening =>
          run fuel session (behindBlock session.script session.script.size 0 (index + 1))
        | _ => go session
      else match command.change with
        | .opening => go session
        | .closing => go session
        | .label _ => go session
        | .jump name => jump session name
        | .jumpIf name =>
          if session.replaced then jump { session with replaced := false } name else go session
        | .jumpUnless name =>
          if session.replaced then go { session with replaced := false } else jump session name
        | .substitute what =>
          let session := session.substitute what
          if session.lost then (session, .dropped) else go session
        | .map signs others =>
          go { session with line := session.line.map fun c =>
            ((signs.idxOf? c).bind fun i => others[i]?).getD c }
        | .delete => (session, .dropped)
        | .deleteFront =>
          if session.line.contains '\n' then
            ({ session with line := (session.line.dropWhile (· ≠ '\n')).drop 1 }, .again)
          else (session, .dropped)
        | .print => go (session.writeLine session.line)
        | .printFront =>
          go (if session.line.contains '\n' then
              session.write (session.line.takeWhile (· ≠ '\n') ++ [session.mark])
            else session.writeLine session.line)
        | .next =>
          let shown := if session.quiet then session else session.writeLine session.line
          match shown.advance with
          | some session => go session
          | none => (shown, .dropped)
        | .nextToo =>
          match session.advance with
          | some next => go { next with line := session.line ++ '\n' :: next.line }
          | none => (session, .shown)
        | .hold => go { session with aside := session.line, asideEnded := session.ended }
        | .holdToo =>
          go { session with
            aside := session.aside ++ '\n' :: session.line, asideEnded := session.ended }
        | .fetch => go { session with line := session.aside, ended := session.asideEnded }
        | .fetchToo =>
          go { session with
            line := session.line ++ '\n' :: session.aside, ended := session.asideEnded }
        | .swap =>
          go { session with
            line := session.aside, ended := session.asideEnded
            aside := session.line, asideEnded := session.ended }
        | .clear => go { session with line := [] }
        | .quit status true => ({ session with closed := some status }, .shown)
        | .quit status false => ({ session with closed := some status, later := [] }, .dropped)
        | .number => go (session.write ((Text.natural session.number).toList ++ ['\n']))
        | .show => go (session.write (display session.line ++ ['\n']))
        | .behind text => go { session with later := .text text :: session.later }
        | .before text => go (session.write text.toList)
        | .instead text =>
          let goal := session.ranges.lookup index
          let isOpen := goal.isSome && goal ≠ some .over && !command.inverted
          (if isOpen then session else session.write text.toList, .dropped)
        | .read file => go { session with later := .file file :: session.later }
        | .write file => go (session.keep file session.line)

def all : Nat → Session → Session
  | 0, session => session
  | fuel + 1, session =>
    let (session, after) := run (100000 + session.input.length * 100) session 0
    let session := match after with
      | .shown => if session.quiet then session else session.writeLine session.line
      | _ => session
    let session := session.flush
    if session.closed.isSome then
      if session.pending ∧ after matches .shown then session.write [] else session
    else match after with
      | .again => all fuel session
      | _ =>
        match session.advance with
        | none => session
        | some session => all fuel session

def linesOf (mark : Char) (bytes : List UInt8) : List (List Char × Bool) :=
  let pieces := Text.pieces (UInt8.ofNat mark.toNat) bytes
  let texts := pieces.map fun line => (Text.octets line).toList
  texts.dropLast.map (·, true) ++ match texts.getLast? with
    | none => []
    | some [] => []
    | some last => [(last, false)]

/-- Works on all lines of contents, which count from the first number on. -/
def onContents (session : Session) (contents : List (List UInt8)) : Session :=
  let ranges := session.script.toList.zipIdx.filterMap fun (command, index) =>
    match command.first, command.stop with
    | some (.line 0), some _ => some (index, Goal.test)
    | _, _ => none
  let input := contents.flatMap (linesOf session.mark)
  let fresh := { session with input, ranges, number := 0, aside := [], asideEnded := true }
  match fresh.advance with
  | none => session
  | some started => all (100 * ((contents.map List.length).foldl (· + ·) 0 + 100)) started

def written (session : Session) : List UInt8 :=
  Text.octetBytes (String.ofList session.out.reverse.flatten)

end Session

end Emplace.Shell.Tool.Editing

import Emplace.Shell.Expansion
import Emplace.Shell.Starters

/-!
Running scripts. What a command does is said by rules that take the rest of the shell as given; the
shell as a whole ties them together, up to a depth that no script reaches.

The shell and its tools only stand in for the programs of a system, so that a compiler that is a
script can be run by the executable. They are no part of what is proved: a run takes any launcher.
-/
namespace Emplace.Shell

/-- What the rules need from the rest of the shell: to run a command, of which it may be known that
its end is looked at, and what words need. -/
structure Rest where
  run : State → Bool → Command → State
  inside : Inside

namespace Run

/-! ## Redirections -/

def standard? (name : String) : Option Nat :=
  match name with
  | "/dev/stdin" => some 0
  | "/dev/stdout" => some 1
  | "/dev/stderr" => some 2
  | _ =>
    if Text.startsWith name "/dev/fd/" then
      Builtin.number? (Text.dropStart name "/dev/fd/")
    else none

/-- The text for a cause, where a missing name has a text of its own. -/
def openReason (absent : String) (cause : Cause) : String :=
  if cause = .noEntry ∨ cause = .notDirectory then absent else cause.text

def openInput (state : State) (name : String) : Except String (State × Nat) :=
  let refused (cause : Cause) : Except String (State × Nat) :=
    .error ("cannot open " ++ name ++ ": " ++ openReason "No such file" cause)
  match state.locate .target name with
  | .error cause => refused cause
  | .ok (.absent _ _) => refused .noEntry
  | .ok (.present loc (.file _ _)) => .ok (state.opened (.file loc false))
  | .ok (.present _ _) => .ok (state.opened .nothing)

def openOutput (state : State) (opening : Opening) (name : String) :
    Except String (State × Nat) :=
  let refused (cause : Cause) : Except String (State × Nat) :=
    .error ("cannot create " ++ name ++ ": " ++ openReason "Directory nonexistent" cause)
  let behind := opening = .behind
  match state.locate .writing name with
  | .error cause => refused cause
  | .ok (.present _ .directory) =>
    if opening = .write ∧ state.isOn 'C' then
      .error ("cannot open " ++ name ++ ": " ++ Cause.isDirectory.text)
    else refused .isDirectory
  | .ok (.present loc (.file _ executable)) =>
    if opening = .write ∧ state.isOn 'C' then refused .exists
    else if opening = .write ∨ opening = .replace then
      let disk := state.disk.put loc (.file ByteArray.empty executable)
      .ok ({ state with disk }.opened (.file loc false))
    else .ok (state.opened (.file loc behind))
  | .ok (.present _ _) => .ok (state.opened .nothing)
  | .ok (.absent dir last) =>
    let loc := dir ++ [last]
    .ok ({ state with disk := state.disk.put loc (.file ByteArray.empty false) }.opened
      (.file loc behind))

def openNamed (state : State) (opening : Opening) (name : String) :
    Except String (State × Nat) :=
  if name = "/dev/null" then .ok (state.opened .nothing)
  else match (standard? name).bind state.handle? with
    | some (index, _) => .ok (state, index)
    | none => if opening = .read then openInput state name else openOutput state opening name

def redirect (rest : Rest) (state : State) : Redirection → State × Option String
  | .file descriptor opening word =>
    let (state, name) := Expansion.single rest.inside state false word
    if state.jump.isSome then (state, none)
    else match openNamed state opening name with
      | .ok (state, index) => (state.connect descriptor index, none)
      | .error what => (state, some what)
  | .copy descriptor word =>
    let (state, source) := Expansion.single rest.inside state false word
    if state.jump.isSome then (state, none)
    else if source = "-" then (state.close descriptor, none)
    else match (Builtin.number? source).bind state.handle? with
      | some (index, _) => (state.connect descriptor index, none)
      | none =>
        (state, some (if (Builtin.number? source).isSome then source ++ ": Bad file descriptor"
          else "Bad fd number"))
  | .document descriptor word =>
    let (state, text) := Expansion.textOf rest.inside state word
    if state.jump.isSome then (state, none)
    else
      let (state, index) := state.opened (.source (Text.octetBytes text))
      (state.connect descriptor index, none)

def redirectAll (rest : Rest) : State → List Redirection → State × Option String
  | state, [] => (state, none)
  | state, first :: more =>
    match redirect rest state first with
    | (state, none) => if state.jump.isSome then (state, none) else redirectAll rest state more
    | (state, some what) => (state, some what)

/-! ## Processes -/

def forked (state : State) : State :=
  { state with
    traps := state.traps.filter fun row => row.2 = "", pending := [], level := state.level + 1 }

/-- Ends a process: what is to be done at its end is done. -/
def leave (eval : State → String → State) (state : State) : State :=
  match state.jump, state.traps.lookup "EXIT" with
  | some (.killed _), _ => state
  | _, none => state
  | _, some action =>
    let status := state.ending
    let ended := eval { state with
      traps := state.traps.filter fun row => row.1 ≠ "EXIT", jump := none, status } action
    match ended.jump with
    | some _ => ended
    | none => { ended with jump := some (.exit status) }

def obituary? (signal : Nat) : Option String :=
  [(1, "Hangup"), (3, "Quit"), (4, "Illegal instruction"), (6, "Aborted"),
    (8, "Floating point exception"), (9, "Killed"), (10, "User defined signal 1"),
    (11, "Segmentation fault"), (12, "User defined signal 2"), (14, "Alarm clock"),
    (15, "Terminated")].lookup signal

def behindProgram (outer inner : State) : State :=
  let state := { outer.rejoin inner with sent := outer.sent }
  match inner.jump with
  | some (.killed signal) =>
    match obituary? signal with
    | some text => state.tell text
    | none => state
  | _ => state

/-! ## Texts as scripts -/

def answer (eval : State → String → State) (state : State) : State :=
  let arrived := if state.level = 0 then
      state.sent.foldl Builtin.signal { state with sent := [] }
    else state
  answered eval arrived
where
  answered (eval : State → String → State) (state : State) : State :=
    match state.pending, state.jump with
    | [], _ => state
    | _, some _ => state
    | actions, none =>
      let run (state : State) (action : String) : State :=
        let ended := eval state action
        if ended.jump.isSome then ended else { ended with status := state.status }
      actions.foldl run { state with pending := [] }

/-- Runs the commands of a script one after the other; `ran` tells whether there was one. -/
def lines (rest : Rest) (tested : Bool) : Nat → Bool → State → Cursor → State
  | 0, _, state, _ => state
  | fuel + 1, ran, state, cursor =>
    match Script.read? { cursor with aliases := state.aliases } with
    | .error broken =>
      { state with line := broken.line }.fail ("Syntax error: " ++ broken.error.message)
    | .ok (none, _) => if ran then state else state.withStatus 0
    | .ok (some .nothing, cursor) => lines rest tested fuel ran state cursor
    | .ok (some command, cursor) =>
      let state := rest.run state tested command
      if state.jump.isSome then state else lines rest tested fuel true state cursor

def text (rest : Rest) (state : State) (tested : Bool) (script : String) : State :=
  lines rest tested (script.length + 2) false state (.start [] 1 script.toList)

def spoken (rest : Rest) (state : State) (tested : Bool) (speaker script : String) : State :=
  let state' := text rest { state with speaker := some speaker } tested script
  { state' with speaker := state.speaker }

def action (rest : Rest) (state : State) (script : String) : State :=
  text rest state false script

def whole (rest : Rest) (state : State) (script : String) : State :=
  let state := text rest state false script
  let state := if state.jump = some .back then { state with jump := none } else state
  leave (action rest) state

/-! ## Programs -/

/-- What the words behind the shell's name ask for: a script from a word, a file or the input, its
name and its arguments. -/
inductive Job where
  | words (script : String)
  | file (name : String)
  | input

/-- The options in front of a shell's arguments: whether they ask for a script from a word or from
the input. -/
def startFlags : Nat → State → Bool → Bool → List String → State × Bool × Bool × List String
  | 0, state, word, input, arguments => (state, word, input, arguments)
  | _, state, word, input, [] => (state, word, input, [])
  | fuel + 1, state, word, input, argument :: rest =>
    if state.jump.isSome then (state, word, input, rest)
    else match argument.toList with
      | ['-'] => (state, word, input, rest)
      | ['-', '-'] => (state, word, input, rest)
      | '-' :: letters =>
        let word := word || letters.contains 'c'
        let input := input || letters.contains 's'
        let (state, rest) :=
          Builtin.turnAll true (letters.filter fun c => c ≠ 'c' ∧ c ≠ 'l') state rest
        startFlags fuel state word input rest
      | '+' :: letters =>
        let (state, rest) := Builtin.turnAll false letters state rest
        startFlags fuel state word input rest
      | _ => (state, word, input, argument :: rest)

/-- The job that arguments of the shell give, and the state in which it begins. -/
def job (state : State) (arguments : List String) : State × Job :=
  let (state, word, input, left) := startFlags (arguments.length + 1) state false false arguments
  let given (name : String) (arguments : List String) : State := { state with name, arguments }
  if state.jump.isSome then (state, .input)
  else if word then
    match left with
    | [] => (state.fail "-c requires an argument", .input)
    | [script] => (state, .words script)
    | script :: name :: arguments => (given name arguments, .words script)
  else if input then ({ state with arguments := left }, .input)
  else match left with
    | [] => (state, .input)
    | name :: arguments => (given name arguments, .file name)

def act (state : State) (program : Resident) (arguments : List String) : State :=
  let (disk, finished) := program.act state.disk (arguments.map Text.ofOctets)
  let state := { state with disk }
  let state := (state.writeBytes 1 finished.output).writeBytes 2 finished.complaint
  match finished.status with
  | .ofNat status => state.exit status
  | .negSucc n => { state with jump := some (.killed (n + 1)) }

def shell (rest : Rest) (state : State) (arguments : List String) : State :=
  let called := state.name
  match job { state with arguments := [] } arguments with
  | (state, .words script) =>
    if state.jump.isSome then state else whole rest { state with line := 1 } script
  | (state, .input) =>
    if state.jump.isSome then state
    else
      let (bytes, state) := state.takeAll 0
      whole rest { state with line := 1 } (Text.octets bytes)
  | (state, .file name) =>
    match state.entry name with
    | .ok (.file bytes _) =>
      match Executable.resident? state.residents bytes.toList with
      | some program => act state program state.arguments
      | none => whole rest { state with line := 1 } (Text.octets bytes.toList)
    | .ok .directory => whole rest state ""
    | .ok _ => whole rest state ""
    | .error cause =>
      { state with name := called }.fail
        ("cannot open " ++ name ++ ": " ++ openReason "No such file" cause)

/-- Runs what a program's name leads to, in a process of its own. -/
def program (rest : Rest) (state : State) (name : String) (executable : Executable)
    (arguments : List String) : State :=
  match executable with
  | .shell => shell rest (state.child name arguments) arguments
  | .resident found => act (state.child name arguments) found arguments
  | .tool tool =>
    match Tools.all.lookup tool with
    | some run => run { state with speaker := none } name arguments
    | none => state.withStatus 127

def startStatus (cause : Cause) : Nat :=
  match cause with
  | .noEntry => 127
  | .notDirectory => 127
  | .tooManyLinks => 127
  | .nameTooLong => 127
  | _ => 126

/-- Starts a program by its name; a file that names no other program is a script. -/
def start (rest : Rest) (state : State) (name : String) (arguments : List String) :
    Except Cause State :=
  match state.find name with
  | .error cause => .error cause
  | .ok full =>
    match Executable.atPath state.disk state.residents Executable.turnLimit full arguments with
    | .ok (executable, arguments) => .ok (program rest state name executable arguments)
    | .error .execFormat => .ok (program rest state name .shell (full :: arguments))
    | .error cause => .error cause

def notStarted (state : State) (name : String) (cause : Cause) (status : Nat) : State :=
  (state.complain (name ++ ": " ++ openReason "not found" cause)).exit status

/-- Starts a program, with those that start others among them; each of them has at least one word
less for the next. -/
def startWithin (rest : Rest) : Nat → State → String → List String → Except Cause State
  | 0, state, name, arguments => start rest state name arguments
  | depth + 1, state, name, arguments =>
    match state.find name with
    | .error cause => .error cause
    | .ok full =>
      match Executable.atPath state.disk state.residents Executable.turnLimit full arguments with
      | .ok (.tool tool, arguments) =>
        match Starters.all.lookup tool with
        | some run =>
          .ok (run (startWithin rest depth) { state with speaker := none } name arguments)
        | none => start rest state name arguments
      | _ => start rest state name arguments

def startAny (rest : Rest) (state : State) (name : String) (arguments : List String) :
    Except Cause State :=
  startWithin rest (arguments.length + 1) state name arguments

def external (rest : Rest) (state : State) (name : String) (arguments : List String) : State :=
  match startAny rest (forked state) name arguments with
  | .ok inner => behindProgram state inner
  | .error cause =>
    let status := if name.toList.contains '/' then startStatus cause else 127
    behindProgram state (notStarted (forked state) name cause status)

/-! ## Commands of the shell -/

def description (state : State) (name : String) : String × Nat :=
  if Script.keywords.contains name then (name ++ " is a shell keyword", 0)
  else if let some text := state.aliases.lookup name then
    (name ++ " is an alias for " ++ text, 0)
  else if (state.functions.lookup name).isSome then (name ++ " is a shell function", 0)
  else if Builtin.isSpecial name then (name ++ " is a special shell builtin", 0)
  else if Builtin.isOne name then (name ++ " is a shell builtin", 0)
  else match state.find name with
    | .ok full =>
      if (Executable.placed? full).isSome ∨ Names.isThere state full then
        (name ++ " is " ++ full, 0)
      else (name ++ ": not found", 127)
    | .error _ => (name ++ ": not found", 127)

def calledAs? (state : State) (name : String) : Option String :=
  if Script.keywords.contains name ∨ (state.functions.lookup name).isSome ∨ Builtin.isOne name then
    some name
  else if let some text := state.aliases.lookup name then
    some ("alias " ++ Builtin.aliasLine name text)
  else match state.find name with
    | .ok full =>
      if (Executable.placed? full).isSome ∨ Names.isThere state full then some full else none
    | .error _ => none

def describe : Builtin := fun state names =>
  names.foldl (fun state name =>
    let (text, status) := description state name
    let state := state.print (text ++ "\n")
    if status = 0 then state else state.withStatus status) (state.withStatus 0)

def sourced (rest : Rest) (tested : Bool) : Builtin := fun state arguments =>
  match arguments with
  | [] => state.withStatus 0
  | name :: _ =>
    let found := if name.toList.contains '/' then Except.ok name else state.find name
    match found with
    | .error _ => state.fail (name ++ ": not found")
    | .ok full =>
      match state.entry full with
      | .ok (.file bytes _) =>
        match Executable.resident? state.residents bytes.toList with
        | some program => act state program state.arguments
        | none =>
          let state := spoken rest state tested full (Text.octets bytes.toList)
          if state.jump = some .back then { state with jump := none } else state
      | .ok _ => state.withStatus 0
      | .error cause =>
        if full = "/dev/null" then state.withStatus 0
        else state.fail ("cannot open " ++ full ++ ": " ++ openReason "No such file" cause)

def replace (rest : Rest) : Builtin := fun state arguments =>
  match if arguments.head? = some "--" then arguments.tail else arguments with
  | [] => state.withStatus 0
  | name :: arguments =>
    match startAny rest (forked state) name arguments with
    | .ok inner =>
      match inner.jump with
      | some (.killed signal) =>
        { state.rejoin inner with traps := [], jump := some (.killed signal) }
      | _ => { state.rejoin inner with traps := [] }.exit inner.ending
    | .error cause => notStarted { state with traps := [] } name cause (startStatus cause)

def function (rest : Rest) (state : State) (tested : Bool) (body : Command)
    (arguments : List String) : State :=
  let inner := rest.run
    { state with arguments, hidden := [] :: state.hidden, loops := 0 } tested body
  let frame := inner.hidden.headD []
  let after := { inner with
    arguments := state.arguments, hidden := state.hidden, loops := state.loops }
  let after := after.restore frame
  match after.jump with
  | some .back => { after with jump := none }
  | _ => after

/-- What a builtin leaves behind when it fails: a script goes on after one that is not special. -/
def settled (special : Bool) (state : State) : State :=
  match special, state.jump with
  | false, some (.exit status) => { state with jump := none, status }
  | _, _ => state

def plain (rest : Rest) (state : State) (tested special : Bool) (name : String)
    (arguments : List String) : State :=
  let speaking (run : State → State) : State :=
    let after := run { state with speaker := some name }
    { after with speaker := state.speaker }
  match name with
  | "eval" =>
    match arguments with
    | [] => state.withStatus 0
    | words => spoken rest state tested "eval" (Text.join " " words)
  | "." => speaking fun state => sourced rest tested state arguments
  | "exec" => speaking fun state => replace rest state arguments
  | "type" => settled false (speaking fun state => describe state arguments)
  | _ =>
    match Builtin.special.lookup name, Builtin.regular.lookup name with
    | some run, _ =>
      let control := ["exit", "return", "break", "continue"].contains name
      settled (special || control) (speaking fun state => run state arguments)
    | none, some run => settled false (speaking fun state => run state arguments)
    | none, none => external rest state name arguments

def command (rest : Rest) (state : State) (tested : Bool) (arguments : List String) : State :=
  let speaking (run : State → State) : State :=
    let after := run { state with speaker := some "command" }
    settled false { after with speaker := state.speaker }
  match Builtin.flags ['p', 'v', 'V'] [] (arguments.length + 1) arguments with
  | .error what => speaking fun state => state.fail what
  | .ok (_, []) => state.withStatus 0
  | .ok (found, name :: rest') =>
    if Builtin.has found 'V' then speaking fun state => describe state [name]
    else if Builtin.has found 'v' then
      match calledAs? state name with
      | some text => (state.print (text ++ "\n")).withStatus 0
      | none => state.withStatus 127
    else plain rest state tested false name rest'

def call (rest : Rest) (state : State) (tested : Bool) (name : String)
    (arguments : List String) : State :=
  match if Builtin.isSpecial name then none else state.functions.lookup name with
  | some body => function rest state tested body arguments
  | none =>
    if name = "command" then command rest state tested arguments
    else plain rest state tested true name arguments

/-! ## The language -/

def checked (tested : Bool) (state : State) : State :=
  if state.isOn 'e' ∧ !tested ∧ state.status ≠ 0 ∧ state.jump.isNone then
    state.exit state.status
  else state

def assignAll (rest : Rest) : State → List (String × Word) → List String → State × List String
  | state, [], told => (state, told.reverse)
  | state, (name, word) :: more, told =>
    let (state, value) := Expansion.single rest.inside state true word
    if state.jump.isSome then (state, told.reverse)
    else
      let state := state.assign name value
      if state.jump.isSome then (state, told.reverse)
      else assignAll rest state more ((name ++ "=" ++ value) :: told)

def trace (state : State) (shown : State) (words : List String) : State :=
  if !state.isOn 'x' ∨ words.isEmpty then state
  else
    let told := { state with descriptors := shown.descriptors }.tell
      (state.valueOf "PS4" ++ Text.join " " words)
    { told with descriptors := state.descriptors }

def simple (rest : Rest) (state : State) (tested : Bool) (line : Nat)
    (assignments : List (String × Word)) (words : List Word)
    (redirections : List Redirection) : State :=
  let (state, fields) :=
    Expansion.arguments rest.inside Builtin.assigning { state with line, inner := none } words
  if state.jump.isSome then state
  else
    let name := fields.headD ""
    let special := fields.isEmpty || Builtin.isSpecial name
    match redirectAll rest state redirections with
    | (inner, some what) =>
      let inner := { inner with descriptors := state.descriptors }
      if !fields.isEmpty && special then inner.fail what
      else (inner.complain what).withStatus 2
    | (inner, none) =>
      if inner.jump.isSome then { inner with descriptors := state.descriptors }
      else
        let names := assignments.map Prod.fst
        let saved := (names.map fun name => (name, inner.binding? name)).reverse
        let (inner, told) := assignAll rest inner assignments []
        let inner := trace inner state (told ++ fields)
        if inner.jump.isSome then { inner with descriptors := state.descriptors }
        else match fields with
          | [] =>
            let status := inner.inner.getD 0
            { inner with descriptors := state.descriptors, status }
          | name :: arguments =>
            let outward (state : State) (name : String) : State :=
              match state.binding? name with
              | some v => state.put { v with exported := true }
              | none => state
            let inner := if special then inner else names.foldl outward inner
            let after := call rest inner tested name arguments
            let after := if special then after else after.restore saved
            if name = "exec" ∧ arguments.isEmpty then after
            else { after with descriptors := state.descriptors }

/-- What a loop does behind a round: it may go on, or end with some jump left. -/
def afterRound (state : State) : State × Bool :=
  match state.jump with
  | none => (state, true)
  | some (.leave n) => ({ state with jump := if n ≤ 1 then none else some (.leave (n - 1)) }, false)
  | some (.again n) =>
    if n ≤ 1 then ({ state with jump := none }, true)
    else ({ state with jump := some (.again (n - 1)) }, false)
  | some _ => (state, false)

def roundLimit : Nat := 10000000

/-- A loop with a condition; the status is that of the last round. -/
def loop (rest : Rest) (tested wanted : Bool) (condition body : Command) :
    Nat → Nat → State → State
  | 0, _, state => state.overrun
  | fuel + 1, status, state =>
    match afterRound (rest.run state true condition) with
    | (state, false) => state
    | (state, true) =>
      if (state.status = 0) != wanted then state.withStatus status
      else match afterRound (rest.run state tested body) with
        | (state, false) => state
        | (state, true) => loop rest tested wanted condition body fuel state.status state

def each (rest : Rest) (tested : Bool) (name : String) (body : Command) :
    List String → State → State
  | [], state => state
  | value :: more, state =>
    let state := state.assign name value
    if state.jump.isSome then state
    else match afterRound (rest.run state tested body) with
      | (state, false) => state
      | (state, true) => each rest tested name body more state

def fitsAny (rest : Rest) (text : List Char) : State → List Word → State × Bool
  | state, [] => (state, false)
  | state, first :: more =>
    let word := Expansion.withTildes state false first
    let (state, pattern) := Expansion.patternOf rest.inside state word
    if state.jump.isSome then (state, false)
    else if Pattern.fits pattern text then (state, true)
    else fitsAny rest text state more

def choose (rest : Rest) (tested : Bool) (text : List Char) :
    State → List (List Word × Command) → State
  | state, [] => state.withStatus 0
  | state, (patterns, body) :: more =>
    match fitsAny rest text state patterns with
    | (state, true) => rest.run (state.withStatus 0) tested body
    | (state, false) => if state.jump.isSome then state else choose rest tested text state more

def process (rest : Rest) (state : State) (tested : Bool) (command : Command) : State :=
  leave (action rest) (rest.run (forked state) tested command)

def pipe (rest : Rest) (tested : Bool) (outer : State) : State → List Command → State
  | state, [] => state
  | state, [last] => outer.rejoin (process rest { state with jump := outer.jump } tested last)
  | state, first :: more =>
    let (opened, index) := state.opened .sink
    let inner := process rest (opened.connect 1 index) tested first
    let joined := state.rejoin inner
    let (next, source) := joined.opened (.source (inner.written index))
    pipe rest tested outer (next.connect 0 source) more

def step (rest : Rest) (state : State) (tested : Bool) (command : Command) : State :=
  if state.jump.isSome || state.isOn 'n' then state
  else match command with
    | .nothing => state
    | .simple line assignments words redirections =>
      checked tested (simple rest state tested line assignments words redirections)
    | .sequence first second => rest.run (rest.run state tested first) tested second
    | .both first second =>
      let state := rest.run state true first
      if state.status = 0 then rest.run state tested second else state
    | .either first second =>
      let state := rest.run state true first
      if state.status = 0 then state else rest.run state tested second
    | .negated inner =>
      let state := rest.run state true inner
      if state.jump.isSome then state else state.withStatus (if state.status = 0 then 1 else 0)
    | .pipe commands =>
      let after := pipe rest tested state state commands
      checked tested { after with descriptors := state.descriptors }
    | .background inner =>
      let (opened, index) := state.opened .nothing
      let after := process rest (opened.connect 0 index) tested inner
      let joined := state.rejoin after
      { joined with status := 0, job := some after.ending }
    | .branch condition yes no =>
      let state := rest.run state true condition
      if state.jump.isSome then state
      else if state.status = 0 then rest.run state tested yes
      else rest.run (state.withStatus 0) tested no
    | .loop wanted condition body =>
      let after := loop rest tested wanted condition body roundLimit 0
        { state with loops := state.loops + 1 }
      { after with loops := state.loops }
    | .each line name words body =>
      let (state, values) := Expansion.words rest.inside { state with line } words
      if state.jump.isSome then state
      else
        let after := each rest tested name body values
          { state with loops := state.loops + 1, status := 0 }
        { after with loops := state.loops }
    | .choice line word clauses =>
      let (state, text) := Expansion.single rest.inside { state with line } false word
      if state.jump.isSome then state else choose rest tested text.toList state clauses
    | .redirected line inner redirections =>
      match redirectAll rest { state with line } redirections with
      | (after, some what) =>
        checked tested
          (({ after with descriptors := state.descriptors }.complain what).withStatus 2)
      | (after, none) =>
        { rest.run after tested inner with descriptors := state.descriptors }
    | .subshell line inner redirections =>
      match redirectAll rest (forked { state with line }) redirections with
      | (after, some what) => checked tested (state.rejoin (after.fail what))
      | (after, none) =>
        checked tested (state.rejoin (leave (action rest) (rest.run after tested inner)))
    | .define name body =>
      { state with
        functions := (name, body) :: state.functions.filter fun row => row.1 ≠ name
        status := 0 }

def stepAndAnswer (rest : Rest) (state : State) (tested : Bool) (command : Command) : State :=
  answer (action rest) (step rest state tested command)

def output (rest : Rest) (state : State) (command : Command) : State × List UInt8 :=
  let (opened, index) := state.opened .sink
  let after := process rest (opened.connect 1 index) false command
  let joined := state.rejoin after
  ({ joined with status := state.status, inner := some after.ending }, after.written index)

def depthLimit : Nat := 100000

mutual

def commandWithin : Nat → State → Bool → Command → State
  | 0, state, _, _ => state.overrun
  | depth + 1, state, tested, command =>
    stepAndAnswer ⟨commandWithin depth, ⟨outputWithin depth, wordWithin depth⟩⟩ state tested command

def outputWithin : Nat → State → Command → State × List UInt8
  | 0, state, _ => (state.overrun, [])
  | depth + 1, state, command =>
    output ⟨commandWithin depth, ⟨outputWithin depth, wordWithin depth⟩⟩ state command

def wordWithin : Nat → State → Bool → Word → State × List Item
  | 0, state, _, _ => (state.overrun, [])
  | depth + 1, state, loose, word =>
    Expansion.pieces ⟨outputWithin depth, wordWithin depth⟩ loose state word

end

def shellWhole : Rest :=
  ⟨commandWithin depthLimit, ⟨outputWithin depthLimit, wordWithin depthLimit⟩⟩

end Run

def execute (disk : Disk) (residents : List Resident) (name : String) (executable : Executable)
    (arguments : List String) : State :=
  let state := State.fresh disk residents name
  match executable with
  | .tool tool =>
    match Starters.all.lookup tool with
    | some run => run (Run.startAny Run.shellWhole) state name arguments
    | none => Run.program Run.shellWhole state name executable arguments
  | executable => Run.program Run.shellWhole state name executable arguments

/-- Starts programs that are scripts of the shell, tools that it knows, or among some that are known
by what their files hold. -/
def launchAmong (residents : List Resident) : Launcher := fun disk program arguments =>
  if (program :: arguments).any fun text => text.toList.contains '\x00' then
    (disk, .error .nullByte)
  else
    let name := Text.asOctets program
    match Executable.resolve disk residents name (arguments.map Text.asOctets) with
    | .error cause => (disk, .error (.system ⟨cause, program⟩))
    | .ok (executable, arguments) =>
      let state := execute disk residents name executable arguments
      ({ state.disk with cwd := disk.cwd }, .ok state.finished)

/-- Starts programs that are scripts of the shell or tools that it knows. -/
def launch : Launcher := launchAmong []

end Emplace.Shell

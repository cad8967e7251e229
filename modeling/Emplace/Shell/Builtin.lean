import Emplace.Shell.Condition
import Emplace.Shell.Executable
import Emplace.Shell.Fields
import Emplace.Shell.Printf
import Emplace.Shell.Script
import Emplace.Sorting

/-!
The commands that the shell carries out itself, as far as they need no other command for it.
-/
namespace Emplace.Shell

/-- A command of the shell: the state and its arguments give the state behind it. -/
abbrev Builtin := State → List String → State

namespace Builtin

/-- The letters of one argument, and the last one where its value has to follow. -/
def letters (allowed valued : List Char) :
    List Char → Except String (List (Char × String) × Option Char)
  | [] => .ok ([], none)
  | c :: more =>
    if valued.contains c then
      .ok (if more.isEmpty then ([], some c) else ([(c, String.ofList more)], none))
    else if allowed.contains c then
      (letters allowed valued more).map fun (found, open_) => ((c, "") :: found, open_)
    else .error ("Illegal option -" ++ String.ofList [c])

/-- The options at the front of arguments and what follows them. Those in `valued` take a value. -/
def flags (allowed valued : List Char) :
    Nat → List String → Except String (List (Char × String) × List String)
  | 0, arguments => .ok ([], arguments)
  | _, [] => .ok ([], [])
  | fuel + 1, argument :: rest =>
    match argument.toList with
    | ['-', '-'] => .ok ([], rest)
    | '-' :: c :: more =>
      match letters allowed valued (c :: more), rest with
      | .error what, _ => .error what
      | .ok (found, none), rest =>
        (flags allowed valued fuel rest).map fun (others, rest) => (found ++ others, rest)
      | .ok (found, some c), value :: rest =>
        (flags allowed valued fuel rest).map fun (others, rest) =>
          (found ++ (c, value) :: others, rest)
      | .ok (_, some c), [] => .error ("No arg for -" ++ String.ofList [c] ++ " option")
    | _ => .ok ([], argument :: rest)

def withFlags (allowed valued : String) (run : State → List (Char × String) → List String → State) :
    Builtin := fun state arguments =>
  match flags allowed.toList valued.toList (arguments.length + 1) arguments with
  | .error what => state.fail what
  | .ok (found, rest) => run (state.withStatus 0) found rest

def has (found : List (Char × String)) (c : Char) : Bool := found.any fun row => row.1 = c

/-- The number that an argument stands for, without a sign. -/
def number? (text : String) : Option Nat :=
  if text = "" then none else if text.toList.all Char.isDigit then Text.number? 10 text.toList
  else none

def withNumber (state : State) (text : String) (run : Nat → State) : State :=
  match number? text with
  | some n => run n
  | none => state.fail ("Illegal number: " ++ text)

/-! ## Output and conditions -/

def echo : Builtin := fun state arguments =>
  let (words, lineEnd) := match arguments with
    | "-n" :: rest => (rest, false)
    | words => (words, true)
  let text := (Text.join " " words).toList
  let (chars, ended) := Printf.unescaped (text.length + 1) text
  (state.print (String.ofList (chars ++ if lineEnd && !ended then ['\n'] else []))).withStatus 0

def printf : Builtin := withFlags "" "" fun state _ arguments =>
  match arguments with
  | [] => state.fail "usage: printf format [arg ...]"
  | format :: rest =>
    let progress := Printf.run format rest
    let state := state.print (String.ofList progress.chars.reverse)
    let state := progress.complaints.reverse.foldl State.complain state
    state.withStatus progress.status

def test : Builtin := fun state arguments =>
  match Condition.value state arguments with
  | .ok b => state.withStatus (if b then 0 else 1)
  | .error what => state.fail what

def bracket : Builtin := fun state arguments =>
  if arguments.getLast? = some "]" then test state arguments.dropLast
  else state.fail "missing ]"

/-! ## Ways on and out -/

def exit : Builtin := fun state arguments =>
  match arguments with
  | [] => state.exit state.status
  | code :: _ => withNumber state code state.exit

def back : Builtin := fun state arguments =>
  match arguments with
  | [] => { state with jump := some .back }
  | code :: _ => withNumber state code fun n => { state with status := n, jump := some .back }

def jump (aim : Nat → Jump) : Builtin := fun state arguments =>
  withNumber state (arguments.headD "1") fun n =>
    if n = 0 then state.fail ("Illegal number: " ++ arguments.headD "1")
    else if state.loops = 0 then state.withStatus 0
    else { state with status := 0, jump := some (aim (min n state.loops)) }

def shift : Builtin := fun state arguments =>
  withNumber state (arguments.headD "1") fun n =>
    if state.arguments.length < n then state.fail "can't shift that many"
    else { state with arguments := state.arguments.drop n, status := 0 }

/-! ## Places -/

/-- The names of a path's text with those between dots worked out; the last name comes first. -/
def normal (text : String) : List String :=
  (Text.split '/' text).foldl (fun done name =>
    if name = "" ∨ name = "." then done
    else if name = ".." then done.tail
    else name :: done) []

/-- Goes to a directory; where it is found through a link, the way there is kept. -/
def goTo (state : State) (physical : Bool) (target : String) : Option (State × String) :=
  let here := state.valueOf "PWD"
  let full := if Text.startsWith target "/" then target else here ++ "/" ++ target
  let logical := "/" ++ Text.join "/" (normal full).reverse
  match state.locate .target (if physical then full else logical) with
  | .ok (.present loc .directory) =>
    let shown := if physical then Text.asOctets (Path.mk .root loc).text else logical
    let state := { state with disk := { state.disk with cwd := loc } }
    some ((state.assign "OLDPWD" here).assign "PWD" shown, shown)
  | _ => none

def cd : Builtin := withFlags "LP" "" fun state found arguments =>
  let (target, told) := match arguments with
    | [] => (state.valueOf "HOME", false)
    | "-" :: _ => (state.valueOf "OLDPWD", true)
    | target :: _ => (target, false)
  match goTo state (has found 'P') target with
  | some (state, shown) => if told then state.print (shown ++ "\n") else state
  | none => state.fail ("can't cd to " ++ target)

def pwd : Builtin := withFlags "LP" "" fun state found _ =>
  let place := if has found 'P' then Text.asOctets (Path.mk .root state.disk.cwd).text
    else state.valueOf "PWD"
  state.print (place ++ "\n")

/-! ## Variables -/

def assigned (argument : String) : String × Option String :=
  let name := (Text.split '=' argument).headD ""
  (name, if name = argument then none else some (Text.dropStart argument (name ++ "=")))

def quoted (value : String) : String :=
  "'" ++ value.replace "'" "'\"'\"'" ++ "'"

def marking (mark : Variable → Variable) (state : State) (argument : String) : State :=
  if state.jump.isSome then state
  else
    let (name, value) := assigned argument
    if !isName name then state.fail (name ++ ": bad variable name")
    else
      let state := match value with
        | some value => state.assign name value
        | none => state
      let v := (state.binding? name).getD ⟨name, none, false, false⟩
      if state.jump.isSome then state else state.put (mark v)

def marker (word : String) (mark : Variable → Variable) (isMarked : Variable → Bool) : Builtin :=
  withFlags "p" "" fun state found arguments =>
    if has found 'p' ∨ arguments.isEmpty then
      let all := Sorting.sortBy Variable.name (state.bindings.filter isMarked)
      state.print (String.join (all.map fun v =>
        word ++ " " ++ v.name ++ (match v.value with
          | some value => "=" ++ quoted value
          | none => "") ++ "\n"))
    else arguments.foldl (marking mark) state

def exporting : Builtin := marker "export" (fun v => { v with exported := true }) Variable.exported

def readonly : Builtin := marker "readonly" (fun v => { v with fixed := true }) Variable.fixed

def unset : Builtin := withFlags "fv" "" fun state found arguments =>
  let drop (state : State) (name : String) : State :=
    if state.jump.isSome then state
    else if has found 'f' then
      { state with functions := state.functions.filter fun row => row.1 ≠ name }
    else match state.binding? name with
      | some v => if v.fixed then state.fail (name ++ ": is read only") else state.remove name
      | none =>
        if has found 'v' then state
        else { state with functions := state.functions.filter fun row => row.1 ≠ name }
  arguments.foldl drop state

def hideUntilEnd : Builtin := fun state arguments =>
  let hide (state : State) (argument : String) : State :=
    let (name, value) := assigned argument
    match state.hidden with
    | [] => state.fail "not in a function"
    | frame :: outer =>
      if state.jump.isSome then state
      else if !isName name then state.fail (name ++ ": bad variable name")
      else
        let old := state.binding? name
        let state := if frame.any fun row => row.1 = name then state
          else { state with hidden := ((name, old) :: frame) :: outer }
        match value with
        | some value => state.assign name value
        | none => state
  if state.hidden.isEmpty then state.fail "not in a function"
  else arguments.foldl hide (state.withStatus 0)

/-! ## Options and arguments -/

/-- The options by their long names, in the order in which they are shown. -/
def longNames : List (String × Char) := [
  ("errexit", 'e'), ("noglob", 'f'), ("ignoreeof", 'I'), ("interactive", 'i'), ("monitor", 'm'),
  ("noexec", 'n'), ("stdin", 's'), ("xtrace", 'x'), ("verbose", 'v'), ("vi", 'V'), ("emacs", 'E'),
  ("noclobber", 'C'), ("allexport", 'a'), ("notify", 'b'), ("nounset", 'u'), ("privileged", 'p')]

/-- The options that have no letter; they are always off. -/
def unlettered : List String := ["nolog", "debug"]

/-- The options with one turned on or off; the last in the list of all comes first. -/
def turned (state : State) (on : Bool) (c : Char) : State :=
  let options := if on then c :: state.options else state.options.filter (· ≠ c)
  { state with
    options := (longNames.map Prod.snd).reverse.filter options.contains }

def optionTable (state : State) : String :=
  let line (name word : String) : String :=
    name ++ String.ofList (List.replicate (16 - name.length) ' ') ++ word ++ "\n"
  "Current option settings\n"
    ++ String.join (longNames.map fun (name, c) => line name (if state.isOn c then "on" else "off"))
    ++ String.join (unlettered.map fun name => line name "off")

def optionCommands (state : State) : String :=
  String.join (longNames.map fun (name, c) =>
      "set " ++ (if state.isOn c then "-" else "+") ++ "o " ++ name ++ "\n")
    ++ String.join (unlettered.map fun name => "set +o " ++ name ++ "\n")

/-- Turns options on or off by the letters of an argument; the last may want the next argument for
its name. -/
def turnAll (on : Bool) : List Char → State → List String → State × List String
  | [], state, rest => (state, rest)
  | 'o' :: more, state, name :: rest =>
    match longNames.lookup name with
    | some c => turnAll on more (turned state on c) rest
    | none =>
      if unlettered.contains name then turnAll on more state rest
      else (state.fail ("Illegal option " ++ (if on then "-" else "+") ++ "o " ++ name), rest)
  | 'o' :: more, state, [] =>
    turnAll on more (state.print ((if on then optionTable else optionCommands) state)) []
  | c :: more, state, rest =>
    if (longNames.map Prod.snd).contains c then turnAll on more (turned state on c) rest
    else (state.fail ("Illegal option " ++ (if on then "-" else "+") ++ String.ofList [c]), rest)

def set' : Nat → State → List String → State
  | 0, state, _ => state
  | _, state, [] => state
  | fuel + 1, state, argument :: rest =>
    if state.jump.isSome then state
    else match argument.toList with
      | ['-', '-'] => { state with arguments := rest }
      | ['-'] =>
        let state := turned (turned state false 'x') false 'v'
        if rest.isEmpty then state else { state with arguments := rest }
      | '-' :: letters =>
        let (state, rest) := turnAll true letters state rest
        set' fuel state rest
      | '+' :: letters =>
        let (state, rest) := turnAll false letters state rest
        set' fuel state rest
      | _ => { state with arguments := argument :: rest }

def allVariables (state : State) : String :=
  String.join ((Sorting.sortBy Variable.name state.bindings).filterMap fun v =>
    v.value.map fun value => v.name ++ "=" ++ quoted value ++ "\n")

def set : Builtin := fun state arguments =>
  if arguments.isEmpty then (state.print (allVariables state)).withStatus 0
  else
    let state := set' (arguments.length + 1) (state.withStatus 0) arguments
    state

def option (state : State) (spec name : String) (arguments : List String) : State :=
  let next := (number? (state.valueOf "OPTIND")).getD 1
  let fresh := arguments.length + 1 < next
  let next := if fresh then 1 else next
  let state := if fresh then { state with letter := 0 } else state
  let begun := (arguments[next - 2]?).getD ""
  let inside := 0 < state.letter && 1 < next && state.letter < begun.length
  let index := if inside then next - 1 else next
  let silent := Text.startsWith spec ":"
  let finish (state : State) (status index letter : Nat) (found : String) : State :=
    let state := (state.assign "OPTIND" (Text.natural index)).assign name found
    { state with letter, status }
  let ended (index : Nat) : State := finish state 1 index 0 "?"
  match arguments[index - 1]? with
  | none => ended index
  | some argument =>
    let chars := argument.toList
    if !inside ∧ argument = "--" then ended (index + 1)
    else if !inside ∧ (chars.head? ≠ some '-' ∨ chars.length = 1) then ended index
    else
      let place := if inside then state.letter else 1
      let c := chars.getD place ' '
      let text := String.ofList [c]
      let rest := chars.drop (place + 1)
      let (nextIndex, nextLetter) := (index + 1, if rest.isEmpty then 0 else place + 1)
      match spec.toList.dropWhile (· ≠ c), decide (c = ':') with
      | _ :: ':' :: _, false =>
        if !rest.isEmpty then
          finish (state.assign "OPTARG" (String.ofList rest)) 0 (index + 1) 0 text
        else match arguments[index]? with
          | some value => finish (state.assign "OPTARG" value) 0 (index + 2) 0 text
          | none =>
            if silent then finish (state.assign "OPTARG" text) 0 (index + 1) 0 ":"
            else
              finish ((state.tell ("No arg for -" ++ text ++ " option")).remove "OPTARG") 0
                (index + 1) 0 "?"
      | _ :: _, false => finish (state.assign "OPTARG" "") 0 nextIndex nextLetter text
      | _, _ =>
        if silent then finish (state.assign "OPTARG" text) 0 nextIndex nextLetter "?"
        else
          finish ((state.tell ("Illegal option -" ++ text)).remove "OPTARG") 0 nextIndex nextLetter
            "?"

def getopts : Builtin := fun state arguments =>
  match arguments with
  | spec :: name :: rest =>
    if !isName name then state.fail (name ++ ": bad variable name")
    else option state spec name (if rest.isEmpty then state.arguments else rest)
  | _ => state.fail "Usage: getopts optstring var [arg...]"

/-! ## Input -/

/-- A line as far as it is read: its characters, last first, and whether each is guarded. -/
def lineOf (raw : Bool) : List (Char × Bool) → List UInt8 → Nat → List (Char × Bool) × Nat × Bool
  | done, [], count => (done, count, false)
  | done, 10 :: _, count => (done, count + 1, true)
  | done, 92 :: b :: rest, count =>
    if raw then lineOf raw (('\\', false) :: done) (b :: rest) (count + 1)
    else if b = 10 then lineOf raw done rest (count + 2)
    else lineOf raw ((Char.ofNat b.toNat, true) :: done) rest (count + 2)
  | done, b :: rest, count =>
    if b = 92 ∧ !raw then lineOf raw done rest (count + 1)
    else lineOf raw (if b = 0 then done else (Char.ofNat b.toNat, false) :: done) rest (count + 1)

def separates (separators : List Char) (row : Char × Bool) : Bool :=
  !row.2 && separators.contains row.1

def isGap (separators : List Char) (row : Char × Bool) : Bool :=
  separates separators row && Fields.isGap row.1

/-- The words of a line for so many variables: the last gets what is left. -/
def shares (separators : List Char) : Nat → List (Char × Bool) → List String
  | 0, _ => []
  | 1, line =>
    let line := line.dropWhile (isGap separators)
    let cut := (line.reverse.dropWhile (isGap separators)).reverse
    let only := match cut.reverse with
      | last :: before =>
        if separates separators last ∧ !before.any (separates separators) then
          (before.dropWhile (isGap separators)).reverse
        else cut
      | [] => cut
    [String.ofList (only.map Prod.fst)]
  | n + 2, line =>
    let line := line.dropWhile (isGap separators)
    let word := line.takeWhile fun row => !separates separators row
    let rest := (line.drop word.length).dropWhile (isGap separators)
    let rest := match rest with
      | row :: more => if separates separators row then more else rest
      | [] => []
    String.ofList (word.map Prod.fst) :: shares separators (n + 1) rest

def read : Builtin := withFlags "r" "p" fun state found names =>
  match names.find? fun name => !isName name with
  | some name => state.fail (name ++ ": bad variable name")
  | none =>
    if names.isEmpty then state.fail "arg count"
    else
      let (line, state) :=
        let raw := has found 'r'
        let (bytes, after) := state.takeBytes 0 fun bytes => (lineOf raw [] bytes 0).2.1
        let (chars, _, ended) := lineOf raw [] bytes 0
        ((chars.reverse, ended), after)
      let values := shares state.separators names.length line.1
      let state := (names.zip values).foldl (fun state row => state.assign row.1 row.2) state
      if state.jump.isSome then state else state.withStatus (if line.2 then 0 else 1)

/-! ## Signals -/

def signals : List (String × Nat) := [
  ("EXIT", 0), ("HUP", 1), ("INT", 2), ("QUIT", 3), ("ILL", 4), ("TRAP", 5), ("ABRT", 6),
  ("BUS", 7), ("FPE", 8), ("KILL", 9), ("USR1", 10), ("SEGV", 11), ("USR2", 12), ("PIPE", 13),
  ("ALRM", 14), ("TERM", 15), ("16", 16), ("CHLD", 17), ("CONT", 18), ("STOP", 19),
  ("TSTP", 20), ("TTIN", 21), ("TTOU", 22), ("URG", 23), ("XCPU", 24), ("XFSZ", 25),
  ("VTALRM", 26), ("PROF", 27), ("WINCH", 28), ("IO", 29), ("PWR", 30), ("SYS", 31), ("32", 32),
  ("33", 33), ("RTMIN", 34)]
  ++ (List.range 15).map (fun n => ("RTMIN+" ++ Text.natural (n + 1), 35 + n))
  ++ (List.range 14).map (fun n => ("RTMAX-" ++ Text.natural (14 - n), 50 + n)) ++ [("RTMAX", 64)]

def harmless : List Nat := [0, 17, 18, 19, 20, 21, 22, 23, 28]

def signalName? (text : String) : Option String :=
  match number? text with
  | some n => (signals.find? fun row => row.2 = n).map Prod.fst
  | none =>
    let name := String.ofList (text.toList.map Char.toUpper)
    if (signals.lookup name).isSome then some name else none

def signal (state : State) (name : String) : State :=
  let n := (signals.lookup name).getD 0
  if state.level ≠ 0 then { state with sent := state.sent ++ [name] }
  else match state.traps.lookup name with
  | some action =>
    if n = 0 ∨ n = 9 ∨ action = "" then
      if n = 9 then { state with jump := some (.killed 9) } else state
    -- What is to be done on it waits for the end of the command.
    else { state with pending := state.pending ++ [action] }
  | none => if harmless.contains n then state else { state with jump := some (.killed n) }

def killUsage : String :=
  "Usage: kill [-s sigspec | -signum | -sigspec] [pid | job]... or\nkill -l [exitstatus]"

/-- Sends a signal to processes; there are no others than the script and what it has started. -/
def send (state : State) (name : String) (targets : List String) : State :=
  targets.foldl (fun state target =>
    if target = State.ownNumber ∨ target = "0" then signal state name
    else if target = State.jobNumber ∧ state.job.isSome then
      (state.complain "No such process\n").withStatus 1
    else match (Condition.number target) with
      | .ok _ => (state.complain "No such process\n").withStatus 1
      | .error what => state.fail what) (state.withStatus 0)

def kill : Builtin := fun state arguments =>
  match arguments with
  | [] => state.fail killUsage
  | "-l" :: [] =>
    let names := "0" :: (signals.drop 1).map Prod.fst
    (state.print (String.join (names.map fun name => name ++ "\n"))).withStatus 0
  | "-l" :: text :: _ =>
    match number? text with
    | none => state.fail ("Illegal number: " ++ text)
    | some n =>
      match signals.find? fun row => row.2 = (if 128 < n then n - 128 else n) with
      | some row => (state.print (row.1 ++ "\n")).withStatus 0
      | none => state.fail ("invalid signal number or exit status: " ++ text)
  | "-s" :: name :: targets =>
    match signalName? name with
    | some name => if targets.isEmpty then state.fail killUsage else send state name targets
    | none => state.fail ("invalid signal number or name: " ++ name)
  | "--" :: targets => if targets.isEmpty then state.fail killUsage else send state "TERM" targets
  | first :: targets =>
    match first.toList with
    | '-' :: c :: more =>
      match signalName? (String.ofList (c :: more)) with
      | some name => if targets.isEmpty then state.fail killUsage else send state name targets
      | none => state.fail ("Illegal option -" ++ String.ofList [c])
    | _ => send state "TERM" (first :: targets)

def trap : Builtin := withFlags "" "" fun state _ arguments =>
  let clear (state : State) (name : String) : State :=
    { state with traps := state.traps.filter fun row => row.1 ≠ name }
  let put (action : Option String) (state : State) (text : String) : State :=
    match signalName? text, action with
    | none, _ => (state.tell ("trap: " ++ text ++ ": bad trap")).withStatus 1
    | some name, none => clear state name
    | some name, some action =>
      let state := clear state name
      { state with traps := (name, action) :: state.traps }
  match arguments with
  | [] =>
    let rows := signals.filterMap fun (name, _) =>
      (state.traps.lookup name).map fun action => "trap -- " ++ quoted action ++ " " ++ name ++ "\n"
    state.print (String.join rows)
  | [only] => put none state only
  | action :: names =>
    if (number? action).isSome then (action :: names).foldl (put none) state
    else names.foldl (put (if action = "-" then none else some action)) state

/-! ## The rest -/

def umask : Builtin := withFlags "S" "" fun state found arguments =>
  match arguments with
  | [] => state.print (if has found 'S' then "u=rwx,g=rx,o=rx\n" else "0022\n")
  | mode :: _ =>
    if (mode.toList.head?.any Char.isDigit) ∧ !mode.toList.all fun c => '0' ≤ c && c ≤ '7' then
      state.fail ("Illegal number: " ++ mode)
    else state

def wait : Builtin := fun state arguments =>
  match arguments with
  | [] => state.withStatus 0
  | _ =>
    if arguments.getLast? = some State.jobNumber then state.withStatus (state.job.getD 127)
    else state.withStatus 127

def ulimit : Builtin := fun state _ => (state.print "unlimited\n").withStatus 0

def nothing : Builtin := fun state _ => state.withStatus 0

/-! ## Texts in the place of words -/

def aliasLine (name text : String) : String := name ++ "=" ++ quoted text

def aliasRow (name : String) : Nat :=
  (name.toList.foldl (fun sum c => sum + c.toNat) ((name.toList.headD '\x00').toNat * 16)) % 39

/-- Puts texts in the place of words, or shows those that are there. -/
def nickname : Builtin := fun state arguments =>
  let tellOne (state : State) (row : String × String) : State :=
    state.print (aliasLine row.1 row.2 ++ "\n")
  let state := state.withStatus 0
  if arguments.isEmpty then
    ((List.range 39).flatMap fun n => state.aliases.filter fun row => aliasRow row.1 = n).foldl
      tellOne state
  else arguments.foldl (fun state argument =>
    let name := argument.toList.take 1 ++ (argument.toList.drop 1).takeWhile (· ≠ '=')
    let text := argument.toList.drop name.length
    let name := String.ofList name
    match text with
    | _ :: text =>
      let text := String.ofList text
      let aliases := if (state.aliases.lookup name).isSome then
          state.aliases.map fun row => if row.1 = name then (name, text) else row
        else state.aliases ++ [(name, text)]
      { state with aliases }
    | [] => match state.aliases.lookup name with
      | some text => tellOne state (name, text)
      | none => (state.tell ("alias: " ++ name ++ " not found")).withStatus 1) state

def unalias : Builtin := withFlags "a" "" fun state found names =>
  if has found 'a' then { state with aliases := [] }
  else names.foldl (fun state name =>
    if (state.aliases.lookup name).isSome then
      { state with aliases := state.aliases.filter fun row => row.1 ≠ name }
    else (state.tell ("unalias: " ++ name ++ " not found")).withStatus 1) state

/-- Goes back to a job; there is none. -/
def noJob : Builtin := fun state arguments =>
  state.fail (match arguments with
    | [] => "No current job"
    | name :: _ => "No such job: " ++ name)

def hash : Builtin := fun state names =>
  (names.filter (· ≠ "-r")).foldl (fun state name =>
    match state.find name with
    | .ok _ => state
    | .error _ => (state.complain (name ++ ": not found")).withStatus 1) (state.withStatus 0)

/-- The commands that cannot be defined anew, and end a script where they fail. -/
def special : List (String × Builtin) := [
  (":", nothing), ("break", jump .leave), ("continue", jump .again), ("exit", exit),
  ("export", exporting), ("local", hideUntilEnd), ("readonly", readonly), ("return", back),
  ("set", set), ("shift", shift), ("times", nothing), ("trap", trap), ("unset", unset)]

def regular : List (String × Builtin) := [
  ("[", bracket), ("alias", nickname), ("bg", noJob), ("cd", cd), ("chdir", cd), ("echo", echo),
  ("false", fun state _ => state.withStatus 1), ("fg", noJob), ("getopts", getopts),
  ("hash", hash), ("jobs", nothing), ("kill", kill), ("printf", printf),
  ("pwd", pwd), ("read", read), ("test", test), ("true", nothing), ("ulimit", ulimit),
  ("umask", umask), ("unalias", unalias), ("wait", wait)]

def leading : List String := [".", "command", "eval", "exec", "type"]

def assigning : List String := ["export", "local", "readonly"]

def isSpecial (name : String) : Bool := Script.reserved.contains name

def isOne (name : String) : Bool :=
  (special.lookup name).isSome || (regular.lookup name).isSome || leading.contains name

end Builtin
end Emplace.Shell

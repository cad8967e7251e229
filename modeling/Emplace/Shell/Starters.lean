import Emplace.Shell.Tool.Names
import Emplace.Shell.Tool.Search
import Emplace.Shell.Tool.Streams
import Emplace.Shell.Tools

/-!
The tools that start other programs, by their names.
-/
namespace Emplace.Shell.Starters

abbrev Starter := Tool.Start → Tool

def failed (state : State) (name shown : String) (cause : Cause) : State :=
  (Tool.complain state name (shown ++ ": " ++ cause.text)).withStatus
    (if cause = .noEntry then 127 else 126)

/-- Runs a program in the place of a tool, which shows its name in its own way. -/
def inPlace (start : Tool.Start) (state : State) (name : String) (shown : String → String) :
    List String → State
  | [] => state
  | program :: arguments =>
    match start state program arguments with
    | .ok state => state
    | .error cause => failed state name (shown program) cause

def isAssignment (word : String) : Bool := word.toList.contains '=' && word ≠ "="

def env (start : Tool.Start) : Tool :=
  Tool.withOptions [⟨some 'i', "ignore-environment", .nothing⟩, ⟨some 'u', "unset", .value⟩,
    ⟨some 'C', "chdir", .value⟩, ⟨some '0', "null", .nothing⟩,
    ⟨some 'S', "split-string", .value⟩] true 125 fun state name options =>
    let words := ((options.value? "split-string").map fun text =>
      (Text.split ' ' text).filter (· ≠ "")).getD [] ++ options.operands
    let bare := words.head? = some "-"
    let words := if bare then words.tail else words
    let assignments := words.takeWhile isAssignment
    let state := if bare ∨ options.has "ignore-environment" then
        { state with bindings := state.bindings.filter fun v => !v.exported }
      else state
    let state := options.given.foldl (fun state row =>
      if row.1 = "unset" then state.remove row.2 else state) state
    let state := assignments.foldl (fun state word =>
      let (name, value) := Builtin.assigned word
      state.put ⟨name, value, true, false⟩) state
    let run (state : State) : State :=
      match words.drop assignments.length with
      | [] => Tool.printAll state (options.has "null")
          ((Tool.environment state).map fun row => row.1 ++ "=" ++ row.2)
      | words => inPlace start state name Tool.curly words
    match options.value? "chdir" with
    | none => run state
    | some dir =>
      match Tool.entryAt state.disk .target dir with
      | .ok (loc, .directory) => run { state with disk := { state.disk with cwd := loc } }
      | .ok _ => (Tool.complain state name ("cannot change directory to " ++ Tool.quoted dir ++ ": "
          ++ Cause.notDirectory.text)).withStatus 125
      | .error cause =>
        (Tool.complain state name ("cannot change directory to " ++ Tool.quoted dir ++ ": "
          ++ cause.text)).withStatus 125

/-- Runs a program as it is; what is changed for it cannot be seen. -/
def unchanged (flags : List Flag) (status : Nat) (shown : String → String) : Starter :=
  fun start => Tool.withOptions flags true status fun state name options =>
    match options.operands with
    | [] => Tool.misused state name "missing operand" status
    | words => inPlace start state name shown words

/-- Runs a program, which is never slow. -/
def timeout (start : Tool.Start) : Tool :=
  Tool.withOptions [⟨some 'k', "kill-after", .value⟩, ⟨some 's', "signal", .value⟩,
    ⟨none, "preserve-status", .nothing⟩, ⟨none, "foreground", .nothing⟩] true 125
    fun state name options =>
      match options.operands with
      | time :: word :: words =>
        if !Tools.isTime time then
          Tool.misused state name ("invalid time interval " ++ Tool.curly time) 125
        else
          inPlace start state name (fun text => "failed to run command " ++ Tool.curly text)
            (word :: words)
      | _ =>
        (state.tell ("Try '" ++ name ++ " --help' for more information.")).withStatus 125

/-! ## Words from the input -/

/-- The words of a text as a shell would read them, with quotes and backslashes only. -/
def wordsOf : Nat → Option (List Char) → List Char → Except String (List String)
  | 0, _, _ => .ok []
  | _, none, [] => .ok []
  | _, some word, [] => .ok [String.ofList word.reverse]
  | fuel + 1, word, c :: rest =>
    let so := word.getD []
    if c = ' ' ∨ c = '\t' ∨ c = '\n' then
      (wordsOf fuel none rest).map fun words =>
        match word with
        | none => words
        | some word => String.ofList word.reverse :: words
    else if c = '\'' ∨ c = '"' then
      let inside := rest.takeWhile fun d => d ≠ c ∧ d ≠ '\n'
      match rest.drop inside.length with
      | d :: after =>
        if d = c then wordsOf fuel (some (inside.reverse ++ so)) after
        else .error (quoteName c)
      | [] => .error (quoteName c)
    else if c = '\\' then
      match rest with
      | d :: after => wordsOf fuel (some (d :: so)) after
      | [] => wordsOf fuel (some so) []
    else wordsOf fuel (some (c :: so)) rest
where
  quoteName (c : Char) : String :=
    "unmatched " ++ (if c = '"' then "double" else "single")
      ++ " quote; by default quotes are special to xargs unless you use the -0 option"

def groups (size : Nat) : Nat → List String → List (List String)
  | 0, _ => []
  | _, [] => []
  | fuel + 1, words => words.take size :: groups size fuel (words.drop size)

/-- How runs on parts of the words have ended so far: nothing more is run after some of them. -/
structure Runs where
  state : State
  status : Nat
  closed : Bool

def Runs.next (start : Tool.Start) (name : String) (runs : Runs) (words : List String) : Runs :=
  if runs.closed then runs
  else match start.run runs.state words with
    | .error cause =>
      let state := Tool.complain runs.state name (words.headD "" ++ ": " ++ cause.text)
      ⟨state, if cause = .noEntry then 127 else 126, true⟩
    | .ok state =>
      if state.status = 0 then { runs with state }
      else if state.status = 255 then
        ⟨Tool.complain state name (words.headD "" ++ ": exited with status 255; aborting"), 124,
          true⟩
      else if 128 < state.status ∧ state.status < 255 then
        ⟨Tool.complain state name (words.headD "" ++ ": terminated by signal "
          ++ Text.natural (state.status - 128)), 125, true⟩
      else { runs with state, status := 123 }

def xargs (start : Tool.Start) : Tool :=
  Tool.withOptions [⟨some 'n', "max-args", .value⟩, ⟨some 'I', "replace", .value⟩,
    ⟨some '0', "null", .nothing⟩, ⟨some 'd', "delimiter", .value⟩,
    ⟨some 'r', "no-run-if-empty", .nothing⟩, ⟨some 'L', "max-lines", .value⟩,
    ⟨some 'P', "max-procs", .value⟩, ⟨some 't', "verbose", .nothing⟩,
    ⟨some 'a', "arg-file", .value⟩, ⟨some 'x', "exit", .nothing⟩] true 1
    fun state name options =>
      let (found, state) := Tool.content state ((options.value? "arg-file").getD "-")
      let bytes := found.toOption.getD []
      let command := if options.operands.isEmpty then ["echo"] else options.operands
      let separator : Option UInt8 := if options.has "null" then some 0
        else (options.value? "delimiter").map fun text =>
          let chars := Tool.escapes (text.length + 1) text.toList
          UInt8.ofNat (chars.headD '\n').toNat
      let lineTexts (b : UInt8) : List String :=
        let pieces := Text.pieces b bytes
        ((if pieces.getLast? = some [] then pieces.dropLast else pieces)).map Text.octets
      let inLines := options.hasAny ["replace", "max-lines"]
      let words : Except String (List String) := match separator with
        | some b => .ok (lineTexts b)
        | none =>
          if inLines then
            .ok (((lineTexts 10).map fun line =>
              String.ofList (line.toList.dropWhile fun c => c = ' ' || c = '\t')).filter (· ≠ ""))
          else
            let text := (Text.octets bytes).toList
            wordsOf (text.length + 1) none text
      let number (word : String) : Option Nat :=
        (options.value? word).bind fun n => Text.number? 10 n.toList
      match words with
      | .error what => Tool.complain state name what
      | .ok words =>
        let calls : List (List String) := match options.value? "replace" with
          | some mark =>
            words.map fun word => command.map fun part => part.replace mark word
          | none =>
            let size := match number "max-lines", number "max-args" with
              | some n, _ => n
              | none, some n => n
              | none, none => words.length
            let size := max size 1
            if words.isEmpty then (if options.has "no-run-if-empty" then [] else [command])
            else (groups size (words.length + 1) words).map fun group => command ++ group
        let next (runs : Runs) (words : List String) : Runs :=
          let state := if options.has "verbose" then runs.state.tell (Text.join " " words)
            else runs.state
          Runs.next start name { runs with state } words
        let runs := calls.foldl next ⟨state, 0, false⟩
        runs.state.withStatus runs.status

def all : List (String × Starter) := [
  ("env", env), ("find", Tool.find),
  ("nice", unchanged [⟨some 'n', "adjustment", .value⟩] 125 Tool.curly),
  ("nohup", unchanged [] 125 fun text => "failed to run command " ++ Tool.quoted text),
  ("setsid", unchanged (Flag.plain "cfw") 1 ("failed to execute " ++ ·)), ("timeout", timeout),
  ("xargs", xargs)]

end Emplace.Shell.Starters

import Emplace.Shell.Executable
import Emplace.Shell.Pattern
import Emplace.Shell.Tool.Files
import Emplace.Sorting

/-!
The tools that look for files: below a directory by what they are, and among the programs by
name.
-/
namespace Emplace.Shell.Tool

/-- How a tool starts a program: the state in which it ends, or why it cannot be started. -/
abbrev Start := State → String → List String → Except Cause State

def Start.run (start : Start) (state : State) : List String → Except Cause State
  | [] => .ok state
  | name :: arguments => (start state name arguments).map state.rejoin

/-- What a file that is found has to be, or what is to be done with it. -/
inductive Test where
  | name (fold : Bool) (pattern : List Pattern.Atom)
  | path (fold : Bool) (pattern : List Pattern.Atom)
  | kind (letter : Char)
  | empty
  | print (ending : String)
  | delete
  | prune
  | quit
  | run (words : List String)
  | runAll (words : List String)

namespace Test

/-- Whether a test does something, so that nothing else shows what is found. -/
def isAct : Test → Bool
  | print _ => true
  | delete => true
  | run _ => true
  | runAll _ => true
  | quit => true
  | _ => false

end Test

inductive Quest where
  | always
  | never
  | test (test : Test)
  | other (quest : Quest)
  | both (first second : Quest)
  | either (first second : Quest)

namespace Quest

def acts : Quest → Bool
  | always => false
  | never => false
  | test t => t.isAct
  | other quest => quest.acts
  | both first second => first.acts || second.acts
  | either first second => first.acts || second.acts

def patternOf (fold : Bool) (text : String) : List Pattern.Atom :=
  Pattern.ofMarks (text.toList.map fun c => ⟨if fold then c.toLower else c, false⟩)

/-- The words of a command up to its end, and whether it is for all files together. -/
def commandWords : List String → Option (List String × Bool × List String)
  | [] => none
  | ";" :: rest => some ([], false, rest)
  | "\x7b\x7d" :: "+" :: rest => some ([], true, rest)
  | word :: rest => (commandWords rest).map fun (words, all, rest) => (word :: words, all, rest)

def testOf (word : String) (rest : List String) : Except String (Quest × List String) :=
  let plain (test : Test) : Except String (Quest × List String) := .ok (.test test, rest)
  let needs (use : String → Except String Quest) : Except String (Quest × List String) :=
    match rest with
    | [] => .error ("missing argument to \x60" ++ word ++ "'")
    | value :: rest => (use value).map fun quest => (quest, rest)
  match word with
  | "-name" => needs fun value => .ok (.test (.name false (patternOf false value)))
  | "-iname" => needs fun value => .ok (.test (.name true (patternOf true value)))
  | "-path" => needs fun value => .ok (.test (.path false (patternOf false value)))
  | "-ipath" => needs fun value => .ok (.test (.path true (patternOf true value)))
  | "-type" => needs fun value =>
    match value.toList with
    | [c] =>
      if ['f', 'd', 'l', 'p', 's', 'b', 'c'].contains c then .ok (.test (.kind c))
      else .error ("Unknown argument to -type: " ++ value)
    | _ => .error ("Unknown argument to -type: " ++ value)
  | "-empty" => plain .empty
  | "-print" => plain (.print "\n")
  | "-print0" => plain (.print "\x00")
  | "-delete" => plain .delete
  | "-prune" => plain .prune
  | "-quit" => plain .quit
  | "-true" => .ok (.always, rest)
  | "-false" => .ok (.never, rest)
  | "-depth" => .ok (.always, rest)
  | "-follow" => .ok (.always, rest)
  | "-mindepth" => needs fun _ => .ok .always
  | "-maxdepth" => needs fun _ => .ok .always
  | "-exec" =>
    match commandWords rest with
    | none => .error "missing argument to \x60-exec'"
    | some (words, false, rest) => .ok (.test (.run words), rest)
    | some (words, true, rest) => .ok (.test (.runAll words), rest)
  | _ =>
    if Text.startsWith word "-" then .error ("unknown predicate \x60" ++ word ++ "'")
    else .error ("paths must precede expression: \x60" ++ word ++ "'")

mutual

def readEither : Nat → List String → Except String (Quest × List String)
  | 0, rest => .ok (.always, rest)
  | fuel + 1, words => do
    let (first, rest) ← readBoth fuel words
    match rest with
    | "-o" :: rest =>
      let (second, rest) ← readEither fuel rest
      .ok (.either first second, rest)
    | "-or" :: rest =>
      let (second, rest) ← readEither fuel rest
      .ok (.either first second, rest)
    | rest => .ok (first, rest)

def readBoth : Nat → List String → Except String (Quest × List String)
  | 0, rest => .ok (.always, rest)
  | fuel + 1, words => do
    let (first, rest) ← readOne fuel words
    let rest := if rest.head? = some "-a" ∨ rest.head? = some "-and" then rest.tail else rest
    if rest.isEmpty ∨ ["-o", "-or", ")"].contains (rest.headD "") then .ok (first, rest)
    else
      let (second, rest) ← readBoth fuel rest
      .ok (.both first second, rest)

def readOne : Nat → List String → Except String (Quest × List String)
  | 0, rest => .ok (.always, rest)
  | _, [] => .error "expected an expression"
  | fuel + 1, word :: rest => do
    if (word = "!" ∨ word = "-not") ∧ rest.isEmpty then
      .error ("expected an expression after '" ++ word ++ "'")
    else if ["-a", "-and", "-o", "-or"].contains word then
      .error ("invalid expression; you have used a binary operator '" ++ word
        ++ "' with nothing before it.")
    else if word = "!" ∨ word = "-not" then
      let (quest, rest) ← readOne fuel rest
      .ok (.other quest, rest)
    else if word = "(" then
      let (quest, rest) ← readEither fuel rest
      match rest with
      | ")" :: rest => .ok (quest, rest)
      | _ => .error ("invalid expression; I was expecting to find a ')' somewhere but did not "
          ++ "see one.")
    else testOf word rest

end

/-- The quest that words ask for; without any, everything is shown. -/
def ofWords (words : List String) : Except String Quest := do
  let shown : Quest := .test (.print "\n")
  if words.isEmpty then .ok shown
  else
    let (quest, rest) ← readEither (3 * words.length + 3) words
    if !rest.isEmpty then
      .error "you have too many ')'"
    else .ok (if quest.acts then quest else .both quest shown)

end Quest

structure Walk where
  state : State
  pruned : Bool
  closed : Bool
  waiting : List (List String × List String)

namespace Walk

def kindOf : Entry → Char
  | .file _ _ => 'f'
  | .directory => 'd'
  | .link _ => 'l'
  | .pipe => 'p'

def keep (words : List String) (file : String) :
    List (List String × List String) → List (List String × List String)
  | [] => [(words, [file])]
  | (key, files) :: rest =>
    if key = words then (key, files ++ [file]) :: rest else (key, files) :: keep words file rest

/-- Runs a command on files; whether it went well. -/
def command (start : Start) (name : String) (state : State) (words : List String) :
    State × Bool :=
  match start.run state words with
  | .ok behind => ({ behind with status := state.status }, behind.status = 0)
  | .error cause =>
    ((complain state name (curly (words.headD "") ++ ": " ++ cause.text)).withStatus state.status,
      false)

def take (start : Start) (name file : String) (walk : Walk) (test : Test) : Walk × Bool :=
  let folded (fold : Bool) (text : String) : List Char :=
    text.toList.map fun c => if fold then c.toLower else c
  match entryAt walk.state.disk .self file with
  | .error _ => (walk, false)
  | .ok (loc, entry) =>
    match test with
    | .name fold pattern => (walk, Pattern.fits pattern (folded fold (lastName file)))
    | .path fold pattern => (walk, Pattern.fits pattern (folded fold file))
    | .kind letter => (walk, kindOf entry = letter)
    | .empty => (walk, match entry with
      | .file bytes _ => bytes.isEmpty
      | .directory => (walk.state.disk.names loc).isEmpty
      | _ => false)
    | .print ending => ({ walk with state := walk.state.print (file ++ ending) }, true)
    | .prune => ({ walk with pruned := true }, true)
    | .quit => ({ walk with closed := true }, true)
    | .run words =>
      let (state, went) := command start name walk.state
        (words.map fun word => word.replace "\x7b\x7d" file)
      ({ walk with state }, went)
    | .runAll words => ({ walk with waiting := keep words file walk.waiting }, true)
    | .delete =>
      if file = "." then (walk, true)
      else if (entry matches .directory) ∧ !(walk.state.disk.names loc).isEmpty then
        let state := complain walk.state name
          ("cannot delete " ++ curly file ++ ": Directory not empty")
        ({ walk with state }, false)
      else ({ walk with state := { walk.state with disk := walk.state.disk.erase loc } }, true)

/-- Takes the tests of a quest on a file, as far as they decide it. -/
def meets (start : Start) (name file : String) : Quest → Walk → Walk × Bool
  | .always, walk => (walk, true)
  | .never, walk => (walk, false)
  | .test test, walk => if walk.closed then (walk, false) else take start name file walk test
  | .other quest, walk =>
    let (walk, held) := meets start name file quest walk
    (walk, !held)
  | .both first second, walk =>
    match meets start name file first walk with
    | (walk, true) => meets start name file second walk
    | (walk, false) => (walk, false)
  | .either first second, walk =>
    match meets start name file first walk with
    | (walk, true) => (walk, true)
    | (walk, false) => meets start name file second walk

/-- Where a search begins and ends, and whether what is below a directory comes before it. -/
structure Bounds where
  least : Nat
  most : Option Nat
  inward : Bool

def through (start : Start) (name : String) (quest : Quest) (bounds : Bounds) :
    Nat → Nat → Walk → String → Walk
  | 0, _, walk, _ => walk
  | fuel + 1, depth, walk, file =>
    let here (walk : Walk) : Walk :=
      if bounds.least ≤ depth then (meets start name file quest walk).1 else walk
    let below (walk : Walk) : Walk :=
      if walk.pruned ∧ !bounds.inward then { walk with pruned := false }
      else match entryAt walk.state.disk .self file with
        | .ok (loc, .directory) =>
          if bounds.most.any (· ≤ depth) then walk
          else
            (Sorting.sortBy id ((walk.state.disk.names loc).map Text.asOctets)).foldl
              (fun walk entry =>
                through start name quest bounds fuel (depth + 1) { walk with pruned := false }
                  (under file entry)) walk
        | _ => walk
    if walk.closed then walk
    else if bounds.inward then here (below walk)
    else below (here walk)

def finish (start : Start) (name : String) (walk : Walk) : State :=
  walk.waiting.foldl (fun state (words, files) =>
    match command start name state (words ++ files) with
    | (state, true) => state
    | (state, false) => state.withStatus 1) walk.state

end Walk

def find (start : Start) : Tool := fun state name arguments =>
  let isStart (word : String) : Bool := word = "!" || word = "(" || Text.startsWith word "-"
  let roots := arguments.takeWhile fun word => !isStart word
  let words := arguments.drop roots.length
  let depthOf (word : String) : Option Nat :=
    match words.dropWhile (· ≠ word) with
    | _ :: value :: _ => Text.number? 10 value.toList
    | _ => none
  match Quest.ofWords words with
  | .error what => complain state name what
  | .ok quest =>
    let bounds : Walk.Bounds := {
      least := (depthOf "-mindepth").getD 0
      most := depthOf "-maxdepth"
      inward := words.contains "-depth" || words.contains "-delete" }
    let begun (walk : Walk) (root : String) : Walk :=
      match entryAt walk.state.disk .self root with
      | .ok _ =>
        Walk.through start name quest bounds (walk.state.disk.entries.length + 2) 0
          { walk with pruned := false } root
      | .error cause =>
        { walk with state := complain walk.state name (curly root ++ ": " ++ cause.text) }
    ((if roots.isEmpty then ["."] else roots).foldl begun
      ⟨state.withStatus 0, false, false, []⟩).finish start name

def which : Tool := fun state _ arguments =>
  let names := arguments.filter (· ≠ "-a")
  names.foldl (fun state name =>
    let found := if name.toList.contains '/' then
        (match Executable.runnable state.disk (Text.ofOctets name) with
          | .ok _ => some name
          | .error _ => (Executable.placed? name).map fun _ => name)
      else match state.find name with
        | .ok full => some full
        | .error _ => none
    match found with
    | some full => state.print (full ++ "\n")
    | none => state.withStatus 1) (state.withStatus (if names.isEmpty then 1 else 0))

end Emplace.Shell.Tool

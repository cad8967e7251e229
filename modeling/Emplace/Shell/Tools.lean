import Emplace.Shell.Builtin
import Emplace.Shell.Tool.Counting
import Emplace.Shell.Tool.Dumps
import Emplace.Shell.Tool.Copies
import Emplace.Shell.Tool.Editing
import Emplace.Shell.Tool.Lines
import Emplace.Shell.Tool.Names
import Emplace.Shell.Tool.Order
import Emplace.Shell.Tool.Search
import Emplace.Shell.Tool.Sums

/-!
The tools that every system has, by their names. Like the shell they only stand in for programs of
a system, which a run takes as given.
-/
namespace Emplace.Shell.Tools

def condition (closed : Bool) : Tool := fun state name arguments =>
  let failed (what : String) : State := (Tool.complain state name what).withStatus 2
  let value (words : List String) : State :=
    match Condition.value state words with
    | .ok b => state.withStatus (if b then 0 else 1)
    | .error what => failed what
  if !closed then value arguments
  else if arguments.getLast? = some "]" then value arguments.dropLast
  else failed ("missing " ++ Tool.curly "]")

def printf : Tool := fun state name arguments =>
  match if arguments.head? = some "--" then arguments.tail else arguments with
  | [] => Tool.misused state name "missing operand" 1
  | format :: rest =>
    let progress := Printf.run format rest
    let state := state.print (String.ofList progress.chars.reverse)
    let tell (state : State) (what : String) : State := Tool.complain state name what
    (progress.complaints.reverse.foldl tell state).withStatus
      (if progress.complaints.isEmpty then 0 else 1)

def isTime (text : String) : Bool :=
  let digits := if ["s", "m", "h", "d"].any (Text.endsWith text) then
      text.toList.dropLast else text.toList
  !digits.isEmpty && digits.all fun c => c.isDigit || c = '.'

def sleep : Tool := fun state name arguments =>
  match arguments with
  | [] => Tool.misused state name "missing operand" 1
  | times =>
    match times.find? fun time => !isTime time with
    | some time => Tool.misused state name ("invalid time interval " ++ Tool.curly time) 1
    | none => state.withStatus 0

def uname : Tool := fun state name arguments =>
  let letters := if arguments.isEmpty then ['s'] else arguments.flatMap fun a => a.toList.drop 1
  let known := [('s', "Linux"), ('m', "x86_64"), ('o', "GNU/Linux")]
  if letters.all fun c => (known.lookup c).isSome then
    let texts := (known.filter fun row => letters.contains row.1).map Prod.snd
    (state.print (Text.join " " texts ++ "\n")).withStatus 0
  else Tool.complain state name "not known"

def all : List (String × Tool) := [
  ("[", condition true), ("base64", Tool.base64), ("basename", Tool.basename), ("cat", Tool.cat),
  ("chmod", Tool.chmod), ("cmp", Tool.cmp), ("cp", Tool.cp), ("cut", Tool.cut),
  ("dirname", Tool.dirname), ("echo", Tool.echo), ("egrep", Tool.grepWith true false),
  ("expr", Tool.Sums.expr), ("false", fun state _ _ => state.withStatus 1),
  ("fgrep", Tool.grepWith false true), ("grep", Tool.grepWith false false),
  ("head", Tool.head), ("ln", Tool.ln), ("ls", Tool.ls), ("mkdir", Tool.mkdir),
  ("mkfifo", Tool.mkfifo), ("mv", Tool.mv), ("od", Tool.od), ("printenv", Tool.printenv),
  ("printf", printf), ("pwd", Tool.pwd), ("readlink", Tool.readlink),
  ("realpath", Tool.realpath), ("rev", Tool.rev), ("rm", Tool.rm), ("rmdir", Tool.rmdir),
  ("sed", Tool.sed), ("seq", Tool.seq), ("sleep", sleep), ("sort", Tool.sort),
  ("sync", fun state _ _ => state.withStatus 0), ("tac", Tool.tac), ("tail", Tool.tail),
  ("tee", Tool.tee), ("test", condition false), ("touch", Tool.touch), ("tr", Tool.tr),
  ("true", fun state _ _ => state.withStatus 0), ("uname", uname), ("uniq", Tool.uniq),
  ("wc", Tool.wc), ("which", Tool.which), ("whoami", Tool.whoami), ("yes", Tool.yes)]

end Emplace.Shell.Tools

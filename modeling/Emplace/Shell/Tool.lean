import Emplace.Shell.Condition
import Emplace.Shell.Options

/-!
What all tools have in common: how they read their options, name files and complain.
-/
namespace Emplace.Shell

/-- A tool: the state, the name under which it is called and its arguments give the state behind
it. -/
abbrev Tool := State → String → List String → State

namespace Tool

def complain (state : State) (name what : String) : State :=
  (state.tell (name ++ ": " ++ what)).withStatus 1

def misused (state : State) (name what : String) (status : Nat) : State :=
  ((state.tell (name ++ ": " ++ what)).tell
    ("Try '" ++ name ++ " --help' for more information.")).withStatus status

def withOptions (flags : List Flag) (first : Bool) (status : Nat)
    (run : State → String → Options → State) : Tool := fun state name arguments =>
  match Options.read flags first (arguments.length + 1) arguments with
  | .error what => misused state name what status
  | .ok options => run (state.withStatus 0) name options

def quoted (name : String) : String :=
  if name.toList.contains '\'' ∧ !(name.toList.any ['"', '$', '\x60', '\\'].contains) then
    "\"" ++ name ++ "\""
  else "'" ++ name.replace "'" "'\\''" ++ "'"

/-- Whether a shell would read a character of a name as more than itself. -/
def isTelling (c : Char) : Bool :=
  [' ', '!', '"', '$', '&', '(', ')', '*', ';', '<', '=', '>', '?', '[', '^', '\x60', '|', '\'',
    '\\', '\t'].contains c

def plain (name : String) : String :=
  let chars := name.toList
  if chars.isEmpty ∨ chars.any isTelling ∨ ['#', '~'].contains (chars.headD 'a')
      ∨ chars = ['\x7b'] ∨ chars = ['\x7d'] then quoted name
  else name

def curly (name : String) : String :=
  Text.asOctets "‘" ++ name ++ Text.asOctets "’"

def zeroCount : Nat := 1048576

/-- The bytes of a file, or of the input where a dash stands for it. -/
def content (state : State) (name : String) : Except Cause (List UInt8) × State :=
  if name = "-" ∨ name = "/dev/stdin" then
    let (bytes, state) := state.takeAll 0
    (.ok bytes, state)
  else if name = "/dev/null" then (.ok [], state)
  else if name = "/dev/zero" then (.ok (List.replicate zeroCount 0), state)
  else match state.entry name with
    | .ok (.file bytes _) => (.ok bytes.toList, state)
    | .ok .directory => (.error .isDirectory, state)
    | .ok _ => (.ok [], state)
    | .error cause => (.error cause, state)

/-- The path that a name with one character for each byte stands for. -/
def path (name : String) : Path := Path.raw (Text.ofOctets name)

/-- A name without the slashes at its end, unless it has nothing else. -/
def trimmed (name : String) : String :=
  let kept := (name.toList.reverse.dropWhile (· = '/')).reverse
  if kept.isEmpty then (if name = "" then "" else "/") else String.ofList kept

def lastName (name : String) : String :=
  let name := trimmed name
  if name = "/" then "/" else Text.afterLast '/' name

def above (name : String) : String :=
  let name := trimmed name
  if !name.toList.contains '/' then "."
  else trimmed (String.ofList (name.toList.take (name.length - (Text.afterLast '/' name).length)))

/-- The place of an entry below a directory, by names with one character for each byte. -/
def under (dir name : String) : String :=
  if Text.endsWith dir "/" then dir ++ name else dir ++ "/" ++ name

/-- The lines of bytes; the last one may lack its end. -/
def lines (bytes : List UInt8) : List (List UInt8) :=
  if bytes.isEmpty then []
  else
    let pieces := Text.pieces 10 bytes
    if bytes.getLast? = some 10 then pieces.dropLast else pieces

def unlines (lines : List (List UInt8)) : List UInt8 :=
  lines.flatMap fun line => line ++ [10]

end Tool
end Emplace.Shell

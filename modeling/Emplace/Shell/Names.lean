import Emplace.Shell.Condition
import Emplace.Shell.Pattern
import Emplace.Sorting

/-!
Patterns as file names: a word that holds one stands for the names that fit, in order, or for itself
where none does. A name that begins with a dot has to be asked for.
-/
namespace Emplace.Shell.Names

def textOf (marks : List Mark) : String := String.ofList (marks.map Mark.char)

def parts : List Mark → List (List Mark)
  | [] => [[]]
  | mark :: rest =>
    if mark.char = '/' then [] :: parts rest
    else match parts rest with
      | [] => [[mark]]
      | first :: more => (mark :: first) :: more

/-- Whether anything is under a name, be it only a link. -/
def isThere (state : State) (name : String) : Bool :=
  match state.locate .self name with
  | .ok (.present _ _) => true
  | _ => false

def isDirectory (state : State) (name : String) : Bool :=
  match state.entry name with
  | .ok .directory => true
  | _ => false

def fitting (state : State) (dir : String) (pattern : List Mark) : List String :=
  match state.locate .target (if dir = "" then "." else dir) with
  | .ok (.present loc .directory) =>
    let dotted := (pattern.head?.map Mark.char) = some '.'
    let all := (if dotted then [".", ".."] else [])
      ++ (state.disk.names loc).map Text.asOctets
    all.filter fun name =>
      (dotted || !Text.startsWith name ".")
        && Pattern.fits (Pattern.ofMarks pattern) name.toList
  | _ => []

def below (state : State) : String → List (List Mark) → List String
  | start, [] => [start]
  | start, part :: rest =>
    let slash := if rest.isEmpty then "" else "/"
    if !Pattern.isOpen part then
      let name := start ++ textOf part ++ slash
      if rest.isEmpty ∧ !isThere state name then [] else below state name rest
    else
      (fitting state start part).flatMap fun name =>
        if rest.isEmpty then [start ++ name]
        else if isDirectory state (start ++ name) then below state (start ++ name ++ slash) rest
        else []

def ofWord (state : State) (marks : List Mark) : List String :=
  if state.isOn 'f' ∨ !Pattern.isOpen marks then [textOf marks]
  else match below state "" (parts marks) with
    | [] => [textOf marks]
    | names => Sorting.sorted names

end Emplace.Shell.Names

import Emplace.Shell.Regex

/-!
Scripts that edit lines: commands in order, each of which may be for some lines only.
-/
namespace Emplace.Shell.Tool.Editing

inductive Address where
  | line (number : Nat)
  | last
  /-- A line in which an expression is found; the one that was last looked for where there is
  none. -/
  | holding (regex : Option Regex) (fold : Bool)
  | every (first step : Nat)

inductive Stop where
  | at (address : Address)
  | behind (count : Nat)
  | multiple (unit : Nat)

inductive Turn where
  | upper
  | lower
  | upperOnce
  | lowerOnce
  | none
  deriving DecidableEq, Repr

inductive Part where
  | char (c : Char)
  | group (number : Nat)
  | turn (turn : Turn)

structure Substitution where
  regex : Option Regex
  fold : Bool
  parts : List Part
  all : Bool
  /-- How many finds are passed over first, counted from one. -/
  nth : Nat
  shows : Bool
  file : Option String

inductive Change where
  | opening
  | closing
  | label (name : String)
  /-- Goes on at a label, or at the end of the script. -/
  | jump (label : String)
  | jumpIf (label : String)
  | jumpUnless (label : String)
  | substitute (what : Substitution)
  | map (signs others : List Char)
  | delete
  | deleteFront
  | print
  | printFront
  | next
  | nextToo
  | hold
  | holdToo
  | fetch
  | fetchToo
  | swap
  | clear
  | quit (status : Nat) (shows : Bool)
  | number
  | show
  | behind (text : String)
  | before (text : String)
  | instead (text : String)
  | read (file : String)
  | write (file : String)

structure Command where
  first : Option Address
  stop : Option Stop
  inverted : Bool
  change : Change

def written (script : List Command) : List String :=
  script.filterMap fun command => match command.change with
    | .write file => some file
    | .substitute what => what.file
    | _ => none

def lost? (script : List Command) : Option String :=
  let labels := script.filterMap fun command => match command.change with
    | .label name => some name
    | _ => none
  (script.filterMap fun command => match command.change with
    | .jump name => some name
    | .jumpIf name => some name
    | .jumpUnless name => some name
    | _ => none).find? fun name => name ≠ "" && !labels.contains name

end Emplace.Shell.Tool.Editing

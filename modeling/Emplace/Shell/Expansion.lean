import Emplace.Shell.Fields
import Emplace.Shell.Names
import Emplace.Shell.Script

/-!
What the words of a script stand for: the values of parameters, the values of expressions and the
output of commands.
-/
namespace Emplace.Shell

/-- What words need from the rest of the shell: a way to run a command in a process of its own, with
what it writes, and a way to read words inside words. -/
structure Inside where
  output : State → Command → State × List UInt8
  word : State → Bool → Word → State × List Item

namespace Expansion

inductive Held where
  | one (value : Option String)
  /-- All arguments; a star joins them between quotes. -/
  | all (star : Bool) (values : List String)

def held (state : State) (name : String) : Held :=
  match name with
  | "@" => .all false state.arguments
  | "*" => .all true state.arguments
  | "#" => .one (some (Text.natural state.arguments.length))
  | "?" => .one (some (Text.natural state.status))
  | "$" => .one (some State.ownNumber)
  | "!" => .one (state.job.map fun _ => State.jobNumber)
  | "-" => .one (some (String.ofList state.options))
  | "0" => .one (some state.name)
  | _ =>
    match name.toList with
    | c :: _ =>
      if c.isDigit then
        .one ((Text.number? 10 name.toList).bind fun n => state.arguments[n - 1]?)
      else .one (state.value? name)
    | [] => .one none

def Held.text? (between : List Char) : Held → Option String
  | .one value => value
  | .all _ [] => none
  | .all _ values => some (Text.join (String.ofList between) values)

def ofText (quoted : Bool) (text : String) : List Item :=
  Item.ofValues quoted [text.toList]

def Held.items (between : List Char) (quoted : Bool) : Held → List Item
  | .one none => if quoted then [.quotes] else []
  | .one (some text) => ofText quoted text
  | .all true values =>
    if quoted then ofText true (Text.join (String.ofList between) values)
    else Item.ofValues false (values.map String.toList)
  | .all false values => Item.ofValues quoted (values.map String.toList)

def textOf (inside : Inside) (state : State) (word : Word) : State × String :=
  let (state, items) := inside.word state false word
  (state, String.ofList (Item.chars state.between items))

def patternOf (inside : Inside) (state : State) (word : Word) :
    State × List Pattern.Atom :=
  let (state, items) := inside.word state false word
  (state, Pattern.ofMarks (Item.marks state.between items))

/-- A complaint about a parameter without a value, where that is not allowed. -/
def demand (state : State) (name : String) (value : Option String) : State :=
  if value.isNone ∧ state.isOn 'u' ∧ name ≠ "@" ∧ name ≠ "*" then
    state.fail (name ++ ": parameter not set")
  else state

def counts (orEmpty : Bool) (value : Option String) : Bool :=
  match value with
  | none => false
  | some text => !orEmpty || text != ""

def parameter (inside : Inside) (state : State) (name : String) (use : Use) (quoted : Bool) :
    State × List Item :=
  let held := held state name
  let value := held.text? state.between
  let whole := held.items state.between quoted
  let cut (state : State) (shorten : List Char → List Char) : State × List Item :=
    (demand state name value,
      ofText quoted (String.ofList (shorten (value.getD "").toList)))
  match use with
  | .value => (demand state name value, whole)
  | .length =>
    (demand state name value, ofText quoted (Text.natural (value.getD "").length))
  | .default orEmpty word =>
    if counts orEmpty value then (state, whole) else inside.word state (!quoted) word
  | .assigned orEmpty word =>
    if counts orEmpty value then (state, whole)
    else
      let (state, text) := textOf inside state word
      if (name.toList.head?.any fun c => c.isAlpha || c = '_') then
        (state.assign name text, ofText quoted text)
      else (state.fail (name ++ ": bad variable name"), [])
  | .demanded orEmpty word =>
    if counts orEmpty value then (state, whole)
    else
      let (state, text) := textOf inside state word
      let why := if !word.isEmpty then text
        else "parameter not set" ++ if orEmpty then " or null" else ""
      (state.fail (name ++ ": " ++ why), [])
  | .alternative orEmpty word =>
    if counts orEmpty value then inside.word state (!quoted) word
    else (state, if quoted then [.quotes] else [])
  | .cutFront longest word =>
    let (state, pattern) := patternOf inside state word
    cut state (Pattern.withoutFront longest pattern)
  | .cutBack longest word =>
    let (state, pattern) := patternOf inside state word
    cut state (Pattern.withoutBack longest pattern)
  | .senseless => (state.fail "Bad substitution", [])

def arithmetic (inside : Inside) (state : State) (expression : Word) (quoted : Bool) :
    State × List Item :=
  let (state, text) := textOf inside state expression
  match Arithmetic.evaluate state.value? text with
  | .ok (i, given) =>
    let assign (row : String × Int) (state : State) : State :=
      state.assign row.1 (Text.integer row.2)
    (given.foldr assign state, ofText quoted (Text.integer i))
  | .error problem => (state.fail (problem.message text), [])

/-- The output of a command as a text: without the line ends behind it. -/
def trimmed (bytes : List UInt8) : String :=
  Text.octets ((bytes.reverse.dropWhile (· = 10)).reverse.filter (· ≠ 0))

/-- What a piece of a word stands for; `loose` tells whether its plain text may be cut. -/
def piece (inside : Inside) (state : State) (loose : Bool) : Piece → State × List Item
  | .text chars true => (state, .quotes :: Item.ofChars chars true false)
  | .text chars false => (state, Item.ofChars chars false loose)
  | .parameter name use quoted => parameter inside state name use quoted
  | .arithmetic expression quoted => arithmetic inside state expression quoted
  | .output command quoted =>
    let (state, bytes) := inside.output state command
    (state, ofText quoted (trimmed bytes))

/-- What the pieces of a word stand for, up to one that fails. -/
def pieces (inside : Inside) (loose : Bool) : State → Word → State × List Item
  | state, [] => (state, [])
  | state, first :: rest =>
    let (state, items) := piece inside state loose first
    if state.jump.isSome then (state, items)
    else
      let (state, others) := pieces inside loose state rest
      (state, items ++ others)

def home? (state : State) (user : List Char) : Option String :=
  if user = [] then state.value? "HOME"
  else if user = ['r', 'o', 'o', 't'] then some "/root"
  else none

/-- A text with the tilde in front of it written out, up to a slash or a given sign. -/
def withHome (state : State) (ends : Char → Bool) (atEnd : Bool) (chars : List Char) : Word :=
  match chars with
  | '~' :: rest =>
    let user := rest.takeWhile fun c => !(c = '/' || ends c)
    let behind := rest.drop user.length
    if behind.isEmpty ∧ !atEnd then [.text chars false]
    else match home? state user with
      | some home => [.text home.toList true, .text behind false]
      | none => [.text chars false]
  | chars => [.text chars false]

/-- The parts of a text behind its colons, each with the colon before it. -/
def colonParts (chars : List Char) : List (List Char) := Text.pieces ':' chars

/-- A word with the tildes at its front, or behind the colons of a value, written out. -/
def withTildes (state : State) (assigned : Bool) (word : Word) : Word :=
  match word with
  | .text chars false :: rest =>
    if !chars.contains '~' then word
    else if !assigned then withHome state (fun _ => false) rest.isEmpty chars ++ rest
    else
      let parts := (colonParts chars).map (withHome state (· = ':') rest.isEmpty)
      Text.joined [.text [':'] false] parts ++ rest
  | word => word

def single (inside : Inside) (state : State) (assigned : Bool) (word : Word) : State × String :=
  textOf inside state (withTildes state assigned word)

def fields (inside : Inside) (state : State) (word : Word) : State × List String :=
  let (state, items) := inside.word state false (withTildes state false word)
  if state.jump.isSome then (state, [])
  else (state, (Fields.ofItems state.separators items).flatMap (Names.ofWord state))

def words (inside : Inside) : State → List Word → State × List String
  | state, [] => (state, [])
  | state, first :: rest =>
    let (state, here) := fields inside state first
    if state.jump.isSome then (state, [])
    else
      let (state, others) := words inside state rest
      (state, here ++ others)

/-- The words that words stand for, where assignments among them are kept whole. -/
def wordsOrAssignments (inside : Inside) : State → List Word → State × List String
  | state, [] => (state, [])
  | state, first :: rest =>
    let (state, here) := match Script.assignment? first with
      | none => fields inside state first
      | some (name, value) =>
        let (state, value) := single inside state true value
        (state, [name ++ "=" ++ value])
    if state.jump.isSome then (state, [])
    else
      let (state, others) := wordsOrAssignments inside state rest
      (state, here ++ others)

/-- The words of a command; some commands take assignments. -/
def arguments (inside : Inside) (assigning : List String) :
    State → List Word → State × List String
  | state, [] => (state, [])
  | state, first :: rest =>
    let (state, here) := fields inside state first
    if state.jump.isSome then (state, [])
    else
      let (state, others) := match here with
        | [] => arguments inside assigning state rest
        | name :: _ =>
          if assigning.contains name then wordsOrAssignments inside state rest
          else words inside state rest
      (state, here ++ others)

end Expansion
end Emplace.Shell

import Emplace.Text.Lines
import Emplace.Text.SixtyFour
import Emplace.Value
import Emplace.Yaml.Node
import Emplace.Yaml.Numeral
import Emplace.Yaml.Problem
import Emplace.Yaml.Time

/-!
Values of scalars. The tag says what the text is read as. A mapping may stand for a scalar: its text
is that of the value under its default key.
-/
namespace Emplace.Yaml.Scalar

open Text (Letter Written)

def bad {α : Type} (what : String) : Except Refusal α :=
  .error (.problem (.badValue what))

/-- The text of a scalar; a mapping has that of its default. -/
def textOf (nodes : Nodes) : Nat → NodeId → Except Refusal Written
  -- A way through defaults that is longer than there are nodes leads back to itself.
  | 0, _ => .error (.fault .tooDeep)
  | fuel + 1, id =>
    match nodes.node id with
    | .scalar _ text => .ok text
    | .map _ entries =>
      match entries.find? fun entry => (nodes.node entry.1).tag == .default with
      | some (_, value) => textOf nodes fuel value
      | none => bad "expected a scalar node, but found mapping"
    | .list _ _ => bad "expected a scalar node, but found sequence"

def truths : List (String × Bool) := [
  ("yes", true), ("no", false), ("true", true), ("false", false), ("on", true), ("off", false)]

def truth (text : List Letter) : Except Fault Value :=
  let word := (Letter.chars? (Text.lower text)).map String.ofList
  match word.bind fun word => truths.lookup word with
  | some b => .ok (.bool b)
  | none => .error .missingEntry

def number (id : NodeId) (text : List Letter) : Except Fault Value :=
  match Numeral.float text with
  | .error fault => .error fault
  -- What is no number belongs to the node that writes it, unless it is written by its own word.
  | .ok none => .ok (.nan 0)
  | .ok (some .nan) => .ok (.nan (id + 1))
  | .ok (some x) => .ok (.float x)

/-- The point in time that a node stands for; a mapping stands for none, whatever its default. -/
def time : Node → Except Fault Value
  | .scalar _ (.text text) =>
    match Stamp.ofText? (Text.withoutFinalFeed text.toList) with
    | some stamp => stamp.toValue
    | none => .error .missingPart
  | .scalar _ (.broken _) => .error .missingPart
  | _ => .error .wrongKind

def bytesOf (text : List Letter) : Except Refusal Value :=
  match Text.SixtyFour.wideRun? text with
  | some what => .error (.problem (.wideBytes what))
  | none =>
    match Text.SixtyFour.decode (text.map Letter.shape) with
    | .ok content => .ok (.bytes content)
    | .error what => .error (.problem (.badBytes what))

def faulty {α : Type} : Except Fault α → Except Refusal α
  | .ok value => .ok value
  | .error fault => .error (.fault fault)

def valueOf (nodes : Nodes) (id : NodeId) : Except Refusal Value :=
  let read (make : List Letter → Except Refusal Value) : Except Refusal Value :=
    match textOf nodes (nodes.size + 1) id with
    | .error refusal => .error refusal
    | .ok text => make text.letters
  match (nodes.node id).tag with
  | .null => read fun _ => .ok .null
  | .bool => read fun text => faulty (truth text)
  | .int => read fun text => faulty ((Numeral.whole text).map .int)
  | .float => read fun text => faulty (number id text)
  | .timestamp => read fun _ => faulty (time (nodes.node id))
  | .binary => read bytesOf
  | .text => read fun text => .ok (.ofWritten (.ofLetters text))
  | tag => .error (.problem (.unknownTag tag.name))

end Emplace.Yaml.Scalar

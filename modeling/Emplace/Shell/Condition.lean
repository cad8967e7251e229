import Emplace.Shell.State

/-!
Conditions about texts, numbers and files, as words. An operator counts as one only where its
operands are there.
-/
namespace Emplace.Shell

def State.locate (state : State) (aim : Disk.Aim) (name : String) : Except Cause Disk.Spot :=
  if name = "" then .error .noEntry
  else state.disk.locate aim (Path.raw (Text.ofOctets name))

def State.entry (state : State) (name : String) : Except Cause Entry :=
  match state.locate .target name with
  | .ok (.present _ entry) => .ok entry
  | .ok (.absent _ _) => .error .noEntry
  | .error cause => .error cause

namespace Condition

inductive Operator where
  | ending
  | unary
  | binary
  | not
  | and
  | or
  | left
  | right
  deriving DecidableEq, Repr

def unarySigns : List String := [
  "-r", "-w", "-x", "-e", "-f", "-d", "-c", "-b", "-p", "-u", "-g", "-k", "-s", "-t", "-z", "-n",
  "-h", "-L", "-O", "-G", "-S"]

def binarySigns : List String := [
  "=", "!=", "<", ">", "-eq", "-ne", "-gt", "-ge", "-lt", "-le", "-nt", "-ot", "-ef"]

def operator? (word : String) : Option Operator :=
  if unarySigns.contains word then some .unary
  else if binarySigns.contains word then some .binary
  else [("!", .not), ("-a", .and), ("-o", .or), ("(", .left), (")", .right)].lookup word

def isOperand : List String → Bool
  | _ :: next :: _ :: _ => operator? next = some .binary
  | [_, _] => false
  | _ => true

/-- The operator at the front of words; nothing for an operand. -/
def front (words : List String) : Option Operator :=
  match words with
  | [] => some .ending
  | word :: rest =>
    match operator? word with
    | some .unary => if isOperand words then none else some .unary
    | some .left => if rest.isEmpty then none else some .left
    | found => found

abbrev Result := Except String (Bool × List String)

def holds (state : State) (name : String) (check : Entry → Bool) : Bool :=
  match state.entry name with
  | .ok entry => check entry
  | .error _ => false

def isDevice (name : String) : Bool := ["/dev/null", "/dev/tty", "/dev/zero"].contains name

def unary (state : State) (sign operand : String) : Bool :=
  let isLink := match state.locate .self operand with
    | .ok (.present _ (.link _)) => true
    | _ => false
  match sign with
  | "-n" => operand != ""
  | "-z" => operand = ""
  | "-h" => isLink
  | "-L" => isLink
  | "-t" => false
  | "-f" => holds state operand fun entry => (entry matches .file _ _)
  | "-d" => holds state operand fun entry => (entry matches .directory)
  | "-p" => holds state operand fun entry => (entry matches .pipe)
  | "-c" => isDevice operand
  | "-b" => false
  | "-S" => false
  | "-u" => false
  | "-g" => false
  | "-k" => false
  | "-s" => holds state operand fun entry => match entry with
    | .file bytes _ => bytes.size != 0
    | .pipe => false
    | _ => true
  | "-x" => holds state operand fun entry => match entry with
    | .file _ executable => executable
    | .directory => true
    | _ => false
  | _ => isDevice operand || holds state operand fun _ => true

/-- The number that a text stands for in decimal, with blanks around it. -/
def number (text : String) : Except String Int :=
  let chars := text.toList.dropWhile Arithmetic.isSpace
  let (negative, digits) := match chars with
    | '-' :: rest => (true, rest)
    | '+' :: rest => (false, rest)
    | rest => (false, rest)
  let front := digits.takeWhile Char.isDigit
  if front.isEmpty ∨ !(digits.drop front.length).all Arithmetic.isSpace then
    .error ("Illegal number: " ++ text)
  else
    let n := (Text.number? 10 front).getD 0
    .ok (if negative then -(n : Int) else n)

def isSame (state : State) (a b : String) : Bool :=
  match state.locate .target a, state.locate .target b with
  | .ok (.present a _), .ok (.present b _) => a = b
  | _, _ => false

def binary (state : State) (a sign b : String) : Except String Bool :=
  let compared (check : Int → Int → Bool) : Except String Bool :=
    match number a, number b with
    | .ok a, .ok b => .ok (check a b)
    | .error what, _ => .error what
    | _, .error what => .error what
  match sign with
  | "=" => .ok (a = b)
  | "!=" => .ok (a ≠ b)
  | "<" => .ok (a < b)
  | ">" => .ok (b < a)
  | "-eq" => compared (· = ·)
  | "-ne" => compared (· ≠ ·)
  | "-gt" => compared (· > ·)
  | "-ge" => compared (· ≥ ·)
  | "-lt" => compared (· < ·)
  | "-le" => compared (· ≤ ·)
  | "-ef" => .ok (isSame state a b)
  | _ => .ok false

variable (state : State)

mutual

/-- A condition without conjunctions; what is left starts with its last word. -/
def primary : Nat → Option Operator → List String → Result
  | 0, _, words => .ok (false, words)
  | _, _, [] => .ok (false, [])
  | fuel + 1, operator, word :: rest =>
    match operator with
    | some .ending => .ok (false, word :: rest)
    | some .left =>
      if front rest = some .right then .ok (false, rest)
      else match disjunction fuel (front rest) rest with
        | .error what => .error what
        | .ok (b, left) =>
          if front left.tail = some .right then .ok (b, left.tail)
          else .error "closing paren expected"
    | some .unary =>
      match rest with
      | [] => .error (word ++ ": argument expected")
      | operand :: _ => .ok (unary state word operand, rest)
    | _ =>
      match rest with
      | sign :: behind =>
        if front rest = some .binary then
          match behind with
          | [] => .error (sign ++ ": argument expected")
          | b :: _ => (binary state word sign b).map fun b => (b, behind)
        else .ok (word != "", word :: rest)
      | [] => .ok (word != "", [word])

def negation : Nat → Option Operator → List String → Result
  | 0, _, words => .ok (false, words)
  | fuel + 1, operator, words =>
    if operator = some .not then
      let left := if words.tail.isEmpty then words else words.tail
      (negation fuel (front words.tail) left).map fun (b, left) => (!b, left)
    else primary fuel operator words

def conjunction : Nat → Option Operator → List String → Result
  | 0, _, words => .ok (false, words)
  | fuel + 1, operator, words =>
    match negation fuel operator words with
    | .error what => .error what
    | .ok (b, left) =>
      if front left.tail = some .and then
        let behind := left.tail.tail
        (conjunction fuel (front behind) behind).map fun (c, left) => (b && c, left)
      else .ok (b, left)

def disjunction : Nat → Option Operator → List String → Result
  | 0, _, words => .ok (false, words)
  | fuel + 1, operator, words =>
    match conjunction fuel operator words with
    | .error what => .error what
    | .ok (b, left) =>
      if front left.tail = some .or then
        let behind := left.tail.tail
        (disjunction fuel (front behind) behind).map fun (c, left) => (b || c, left)
      else .ok (b, left)

end

/-- The value of a condition from its first operator on; words may not be left over. -/
def whole (operator : Option Operator) (words : List String) : Except String Bool :=
  match disjunction state (4 * words.length + 4) operator words with
  | .error what => .error what
  | .ok (b, left) =>
    match left with
    | word :: _ :: _ => .error (word ++ ": unexpected operator")
    | _ => .ok b

def value : List String → Except String Bool
  | [] => .ok false
  | [a, sign, b] =>
    if operator? sign = some .binary then whole state none [a, sign, b]
    else if a = "(" ∧ b = ")" then whole state (front [sign]) [sign]
    else if a = "!" then (value [sign, b]).map (!·)
    else whole state (front [a, sign, b]) [a, sign, b]
  | [a, b, c, d] =>
    if a = "(" ∧ d = ")" then whole state (front [b, c]) [b, c]
    else if a = "!" then (value [b, c, d]).map (!·)
    else whole state (front [a, b, c, d]) [a, b, c, d]
  | words => whole state (front words) words

end Condition
end Emplace.Shell

import Emplace.Text.Digits

/-!
Whole-number expressions of the shell, in sixty-four bits. A name stands for the value of its
variable, and an assignment gives a variable a value. What is decided by an operand alone leaves the
other one unread for its value.
-/
namespace Emplace.Shell.Arithmetic

inductive Token where
  | number (i : Int)
  | name (name : String)
  | sign (text : String)
  deriving DecidableEq, Repr

inductive Problem where
  | noPrimary
  | noEnd
  | noColon
  | noParenthesis
  | divisionByZero
  | noNumber (text : String)
  deriving DecidableEq, Repr

def Problem.message (expression : String) : Problem → String
  | noPrimary => told "expecting primary"
  | noEnd => told "expecting EOF"
  | noColon => told "expecting ':'"
  | noParenthesis => told "expecting ')'"
  | divisionByZero => told "division by zero"
  | noNumber text => "Illegal number: " ++ text
where
  told (what : String) : String :=
    "arithmetic expression: " ++ what ++ ": \"" ++ expression ++ "\""

/-- The signs of more than one character, longest first. -/
def longSigns : List String := [
  "<<=", ">>=", "||", "&&", "==", "!=", "<=", ">=", "<<", ">>", "+=", "-=", "*=", "/=", "%=", "&=",
  "|=", "^="]

def rank? (sign : String) : Option Nat :=
  [("|", 3), ("^", 4), ("&", 5), ("==", 6), ("!=", 6), ("<", 7), ("<=", 7), (">", 7), (">=", 7),
    ("<<", 8), (">>", 8), ("+", 9), ("-", 9), ("*", 10), ("/", 10), ("%", 10)].lookup sign

/-- The signs that give a variable a value, with what they do to the value before. -/
def changes : List (String × String) := [
  ("=", ""), ("+=", "+"), ("-=", "-"), ("*=", "*"), ("/=", "/"), ("%=", "%"), ("<<=", "<<"),
  (">>=", ">>"), ("&=", "&"), ("|=", "|"), ("^=", "^")]

def least : Int := -9223372036854775808

def most : Int := 9223372036854775807

def wrapped (i : Int) : Int := Int.bmod i 18446744073709551616

def front (base : Nat) (chars : List Char) : List Char :=
  chars.takeWhile fun c => (Text.baseDigit? c).any (· < base)

/-- The number at the front of some characters, in the base that its beginning says, and what
follows. -/
def literal (chars : List Char) : Nat × List Char :=
  let read (base : Nat) (chars : List Char) : Nat × List Char :=
    let digits := front base chars
    ((Text.number? base digits).getD 0, chars.drop digits.length)
  match chars with
  | '0' :: x :: digit :: rest =>
    if (x = 'x' ∨ x = 'X') ∧ (Text.baseDigit? digit).any (· < 16) then read 16 (digit :: rest)
    else read 8 chars
  | '0' :: _ => read 8 chars
  | _ => read 10 chars

def isSpace (c : Char) : Bool := c = ' ' || ('\t' ≤ c && c ≤ '\r')

def number? (text : String) : Option Int :=
  let chars := text.toList.dropWhile isSpace
  let (negative, digits) := match chars with
    | '-' :: rest => (true, rest)
    | '+' :: rest => (false, rest)
    | rest => (false, rest)
  if !digits.head?.any Char.isDigit then none
  else
    let (n, rest) := literal digits
    if !rest.all isSpace then none
    else some (max least (min most (if negative then -(n : Int) else n)))

def tokens : Nat → List Char → List Token
  | 0, _ => []
  | _, [] => []
  | fuel + 1, c :: rest =>
    if isSpace c then tokens fuel rest
    else if c.isDigit then
      let (n, rest) := literal (c :: rest)
      .number (min most n) :: tokens fuel rest
    else if c.isAlpha ∨ c = '_' then
      let word := (c :: rest).takeWhile fun c => c.isAlphanum || c = '_'
      .name (String.ofList word) :: tokens fuel ((c :: rest).drop word.length)
    else
      match longSigns.find? fun sign => sign.toList.isPrefixOf (c :: rest) with
      | some sign => .sign sign :: tokens fuel ((c :: rest).drop sign.length)
      | none => .sign (String.ofList [c]) :: tokens fuel rest

abbrev Given := List (String × Int)

/-- A step of the evaluation: what is left to read and what has been given values. -/
structure Point where
  left : List Token
  given : Given

abbrev Result (α : Type) := Except Problem (α × Point)

def truth (b : Bool) : Int := if b then 1 else 0

def bitwise (join : UInt64 → UInt64 → UInt64) (a b : Int) : Int :=
  wrapped (join (UInt64.ofInt a) (UInt64.ofInt b)).toNat

def result (sign : String) (a b : Int) : Except Problem Int :=
  match sign with
  | "==" => .ok (truth (a = b))
  | "!=" => .ok (truth (a ≠ b))
  | "<" => .ok (truth (a < b))
  | "<=" => .ok (truth (a ≤ b))
  | ">" => .ok (truth (b < a))
  | ">=" => .ok (truth (b ≤ a))
  | "+" => .ok (wrapped (a + b))
  | "-" => .ok (wrapped (a - b))
  | "*" => .ok (wrapped (a * b))
  | "/" => if b = 0 then .error .divisionByZero else .ok (wrapped (a.tdiv b))
  | "%" => if b = 0 then .error .divisionByZero else .ok (a.tmod b)
  | "<<" => .ok (bitwise (fun a b => a <<< b) a b)
  | ">>" => .ok (a >>> (b.emod 64).toNat)
  | "&" => .ok (bitwise (fun a b => a &&& b) a b)
  | "|" => .ok (bitwise (fun a b => a ||| b) a b)
  | "^" => .ok (bitwise (fun a b => a ^^^ b) a b)
  | _ => .ok b

def valueOf (known : String → Option String) (given : Given) (name : String) :
    Except Problem Int :=
  match given.lookup name with
  | some i => .ok i
  | none =>
    match known name with
    | none => .ok 0
    | some text =>
      if text.toList.all isSpace then .ok 0
      else match number? text with
        | some i => .ok i
        | none => .error (.noNumber text)

/-- What a sign makes of two numbers that count, or nothing of those that do not. -/
def counted (counts : Bool) (sign : String) (a b : Int) : Except Problem Int :=
  if counts then result sign a b else .ok a

variable (known : String → Option String)

mutual

def primary : Nat → Bool → Point → Result Int
  | 0, _, _ => .error .noPrimary
  | fuel + 1, counts, point =>
    match point.left with
    | .number i :: rest => .ok (i, { point with left := rest })
    | .name name :: rest =>
      if counts then
        (valueOf known point.given name).map fun i => (i, { point with left := rest })
      else .ok (0, { point with left := rest })
    | .sign "-" :: rest =>
      (primary fuel counts { point with left := rest }).map fun (i, point) => (wrapped (-i), point)
    | .sign "+" :: rest => primary fuel counts { point with left := rest }
    | .sign "!" :: rest =>
      (primary fuel counts { point with left := rest }).map fun (i, point) => (truth (i = 0), point)
    | .sign "~" :: rest =>
      (primary fuel counts { point with left := rest }).map fun (i, point) => (-i - 1, point)
    | .sign "(" :: rest =>
      match assignment fuel counts { point with left := rest } with
      | .error problem => .error problem
      | .ok (i, point) =>
        match point.left with
        | .sign ")" :: rest => .ok (i, { point with left := rest })
        | _ => .error .noParenthesis
    | _ => .error .noPrimary

/-- What follows a number, as far as its signs bind at least as closely as a rank. -/
def joined : Nat → Bool → Nat → Int → Point → Result Int
  | 0, _, _, _, _ => .error .noPrimary
  | fuel + 1, counts, rank, first, point =>
    match point.left with
    | .sign sign :: rest =>
      match rank? sign with
      | none => .ok (first, point)
      | some bond =>
        if bond < rank then .ok (first, point)
        else match primary fuel counts { point with left := rest } with
          | .error problem => .error problem
          | .ok (second, point) =>
            match joined fuel counts (bond + 1) second point with
            | .error problem => .error problem
            | .ok (second, point) =>
              match counted counts sign first second with
              | .error problem => .error problem
              | .ok i => joined fuel counts rank i point
    | _ => .ok (first, point)

def both : Nat → Bool → Point → Result Int
  | 0, _, _ => .error .noPrimary
  | fuel + 1, counts, point =>
    match primary fuel counts point with
    | .error problem => .error problem
    | .ok (first, point) =>
      match joined fuel counts 3 first point with
      | .error problem => .error problem
      | .ok (first, point) =>
        match point.left with
        | .sign "&&" :: rest =>
          (both fuel (counts && first != 0) { point with left := rest }).map fun (second, point) =>
            (truth (first != 0 && second != 0), point)
        | _ => .ok (first, point)

def either : Nat → Bool → Point → Result Int
  | 0, _, _ => .error .noPrimary
  | fuel + 1, counts, point =>
    match both fuel counts point with
    | .error problem => .error problem
    | .ok (first, point) =>
      match point.left with
      | .sign "||" :: rest =>
        (either fuel (counts && first == 0) { point with left := rest }).map fun (second, point) =>
          (truth (first != 0 || second != 0), point)
      | _ => .ok (first, point)

def chosen : Nat → Bool → Point → Result Int
  | 0, _, _ => .error .noPrimary
  | fuel + 1, counts, point =>
    match either fuel counts point with
    | .error problem => .error problem
    | .ok (first, point) =>
      match point.left with
      | .sign "?" :: rest =>
        match assignment fuel (counts && first != 0) { point with left := rest } with
        | .error problem => .error problem
        | .ok (yes, point) =>
          match point.left with
          | .sign ":" :: rest =>
            (chosen fuel (counts && first == 0) { point with left := rest }).map fun (no, point) =>
              (if first = 0 then no else yes, point)
          | _ => .error .noColon
      | _ => .ok (first, point)

def assignment : Nat → Bool → Point → Result Int
  | 0, _, _ => .error .noPrimary
  | fuel + 1, counts, point =>
    match point.left with
    | .name name :: .sign sign :: rest =>
      match changes.lookup sign with
      | none => chosen fuel counts point
      | some change =>
        match assignment fuel counts { point with left := rest } with
        | .error problem => .error problem
        | .ok (second, point) =>
          if !counts then .ok (second, point)
          else
            let before := if change = "" then .ok 0 else valueOf known point.given name
            match before.bind fun first => result change first second with
            | .error problem => .error problem
            | .ok i => .ok (i, { point with given := (name, i) :: point.given })
    | _ => chosen fuel counts point

end

/-- The value of an expression, and the values that it gives to variables, last first. -/
def evaluate (expression : String) : Except Problem (Int × Given) :=
  let chars := expression.toList
  let tokens := tokens (chars.length + 1) chars
  match assignment known (8 * tokens.length + 8) true ⟨tokens, []⟩ with
  | .error problem => .error problem
  | .ok (i, ⟨[], given⟩) => .ok (i, given)
  | .ok _ => .error .noEnd

end Emplace.Shell.Arithmetic

import Emplace.Shell.Pattern
import Emplace.Text.Digits

/-!
Regular expressions in their two notations: the basic one, where signs have a backslash in front to
mean something, and the extended one, where they have it to mean nothing. Of all that fits at a
place, the longest counts.
-/
namespace Emplace.Shell

inductive Regex where
  | empty
  | one (atom : Pattern.Atom)
  | front
  | back
  | border
  /-- A place with no part of a word before it, or behind it. -/
  | apart (before : Bool)
  | both (first second : Regex)
  | either (first second : Regex)
  | repeated (least : Nat) (most : Option Nat) (inner : Regex)
  | group (number : Nat) (inner : Regex)
  /-- What a group has stood for. -/
  | again (number : Nat)
  deriving Inhabited

namespace Regex

inductive Sign where
  | char (c : Char)
  | any
  | left
  | right
  | bar
  | star
  | plus
  | perhaps
  | braces
  | hat
  | dollar
  | bracket
  | escaped (c : Char)
  deriving DecidableEq, Repr

/-- The signs that the two notations write with and without a backslash. -/
def turning (c : Char) : Option Sign :=
  [('(', .left), (')', .right), ('|', .bar), ('+', .plus), ('?', .perhaps),
    ('\x7b', .braces)].lookup c

def sign (extended : Bool) : List Char → Option (Sign × List Char)
  | [] => none
  | '\\' :: c :: rest =>
    match if extended then none else turning c with
    | some sign => some (sign, rest)
    | none => some (.escaped c, rest)
  | '.' :: rest => some (.any, rest)
  | '*' :: rest => some (.star, rest)
  | '[' :: rest => some (.bracket, rest)
  | '^' :: rest => some (.hat, rest)
  | '$' :: rest => some (.dollar, rest)
  | c :: rest =>
    match if extended then turning c else none with
    | some sign => some (sign, rest)
    | none => some (.char c, rest)

def word : List Pattern.Range := [⟨'a', 'z'⟩, ⟨'A', 'Z'⟩, ⟨'0', '9'⟩, ⟨'_', '_'⟩]

def blank : List Pattern.Range := [⟨'\t', '\r'⟩, ⟨' ', ' '⟩]

def ofEscaped (c : Char) : Regex :=
  match c with
  | 'n' => .one (.exactly '\n')
  | 't' => .one (.exactly '\t')
  | 'w' => .one (.among false word)
  | 'W' => .one (.among true word)
  | 's' => .one (.among false blank)
  | 'S' => .one (.among true blank)
  | 'b' => .border
  | '<' => .both .border (.apart true)
  | '>' => .both .border (.apart false)
  | c => if c.isDigit ∧ c ≠ '0' then .again (c.toNat - 48) else .one (.exactly c)

/-- The brackets behind the first of them; there is no other way to write a caret in front. -/
def bracket? (chars : List Char) : Option (Regex × List Char) :=
  let marks := chars.map fun c => (⟨c, false⟩ : Mark)
  let (negated, marks) := match marks with
    | ⟨'^', _⟩ :: rest => (true, rest)
    | rest => (false, rest)
  (Pattern.ranges? (marks.length + 1) true marks).map fun (ranges, rest) =>
    (.one (.among negated ranges), rest.map Mark.char)

def bounds? (extended : Bool) (chars : List Char) : Option (Nat × Option Nat × List Char) :=
  let least := chars.takeWhile Char.isDigit
  let rest := chars.drop least.length
  let n := (Text.number? 10 least).getD 0
  let close (n : Nat) (most : Option Nat) (rest : List Char) :
      Option (Nat × Option Nat × List Char) :=
    match extended, rest with
    | true, '\x7d' :: rest => some (n, most, rest)
    | false, '\\' :: '\x7d' :: rest => some (n, most, rest)
    | _, _ => none
  match rest with
  | ',' :: rest =>
    let most := rest.takeWhile Char.isDigit
    close n (if most.isEmpty then none else Text.number? 10 most) (rest.drop most.length)
  | rest => if least.isEmpty then none else close n (some n) rest

def repetitions (extended : Bool) : Nat → Regex → List Char → Regex × List Char
  | 0, inner, chars => (inner, chars)
  | fuel + 1, inner, chars =>
    match sign extended chars with
    | some (.star, rest) => repetitions extended fuel (.repeated 0 none inner) rest
    | some (.plus, rest) => repetitions extended fuel (.repeated 1 none inner) rest
    | some (.perhaps, rest) => repetitions extended fuel (.repeated 0 (some 1) inner) rest
    | some (.braces, rest) =>
      match bounds? extended rest with
      | some (least, most, rest) =>
        repetitions extended fuel (.repeated least most inner) rest
      | none => (inner, chars)
    | _ => (inner, chars)

/-- Whether a dollar sign with these characters behind it stands at an end. -/
def endsHere (extended : Bool) (rest : List Char) : Bool :=
  extended || match sign false rest with
    | none => true
    | some (.right, _) => true
    | some (.bar, _) => true
    | _ => false

mutual

def alternatives (extended : Bool) : Nat → Nat → List Char → Regex × Nat × List Char
  | 0, groups, chars => (.empty, groups, chars)
  | fuel + 1, groups, chars =>
    let (first, groups, rest) := sequence extended fuel groups true chars
    match sign extended rest with
    | some (.bar, rest) =>
      let (second, groups, rest) := alternatives extended fuel groups rest
      (.either first second, groups, rest)
    | _ => (first, groups, rest)

def sequence (extended : Bool) : Nat → Nat → Bool → List Char → Regex × Nat × List Char
  | 0, groups, _, chars => (.empty, groups, chars)
  | fuel + 1, groups, atFront, chars =>
    let go (inner : Regex) (groups : Nat) (rest : List Char) : Regex × Nat × List Char :=
      let (part, rest) := repetitions extended fuel inner rest
      let (others, groups, rest) := sequence extended fuel groups false rest
      (.both part others, groups, rest)
    match sign extended chars with
    | none => (.empty, groups, [])
    | some (.bar, _) => (.empty, groups, chars)
    | some (.right, rest) =>
      if extended ∧ groups = 0 then go (.one (.exactly ')')) groups rest
      else (.empty, groups, chars)
    | some (.left, rest) =>
      let number := groups + 1
      let (inner, groups, rest) := alternatives extended fuel number rest
      match sign extended rest with
      | some (.right, rest) => go (.group number inner) groups rest
      | _ => go (.group number inner) groups rest
    | some (.hat, rest) =>
      if extended ∨ atFront then
        let (others, groups, rest) := sequence extended fuel groups true rest
        (.both .front others, groups, rest)
      else go (.one (.exactly '^')) groups rest
    | some (.dollar, rest) =>
      if endsHere extended rest then go .back groups rest
      else go (.one (.exactly '$')) groups rest
    | some (.bracket, rest) =>
      match bracket? rest with
      | some (inner, rest) => go inner groups rest
      | none => go (.one (.exactly '[')) groups rest
    | some (.any, rest) => go (.one .one) groups rest
    | some (.star, rest) => go (.one (.exactly '*')) groups rest
    | some (.escaped c, rest) => go (ofEscaped c) groups rest
    | some (.char c, rest) => go (.one (.exactly c)) groups rest
    | some (.plus, rest) => go (.one (.exactly '+')) groups rest
    | some (.perhaps, rest) => go (.one (.exactly '?')) groups rest
    | some (.braces, rest) => go (.one (.exactly '\x7b')) groups rest

end

def ofText (extended : Bool) (text : String) : Regex :=
  (alternatives extended (4 * text.length + 4) 0 text.toList).1

/-- What is wrong with a text as an expression, by its signs: so many groups have begun before it,
and so many of them are open. -/
def problemFrom (extended : Bool) : Nat → Nat → Nat → List Char → Option String
  | 0, _, _, _ => none
  | fuel + 1, groups, depth, chars =>
    match sign extended chars with
    | none =>
      if chars = ['\\'] then some "Trailing backslash"
      else if depth = 0 then none else some "Unmatched ( or \\("
    | some (.left, rest) => problemFrom extended fuel (groups + 1) (depth + 1) rest
    | some (.right, rest) =>
      if depth = 0 then some "Unmatched ) or \\)"
      else problemFrom extended fuel groups (depth - 1) rest
    | some (.bracket, rest) =>
      match bracket? rest with
      | some (_, rest) => problemFrom extended fuel groups depth rest
      | none => some "Unmatched [, [^, [:, [., or [="
    | some (.escaped c, rest) =>
      if c.isDigit ∧ c ≠ '0' ∧ groups < c.toNat - 48 then some "Invalid back reference"
      else problemFrom extended fuel groups depth rest
    | some (_, rest) => problemFrom extended fuel groups depth rest

def problem? (extended : Bool) (text : String) : Option String :=
  if text = "\\" then some "Trailing backslash"
  else problemFrom extended (text.length + 1) 0 0 text.toList

def groups : Regex → Nat
  | both first second => first.groups + second.groups
  | either first second => first.groups + second.groups
  | repeated _ _ inner => inner.groups
  | group _ inner => inner.groups + 1
  | _ => 0

def literally (text : String) : Regex :=
  text.toList.foldr (fun c rest => .both (.one (.exactly c)) rest) .empty

/-- A place in a text: what is before it, last character first, and what is behind it, with what
groups have stood for. -/
structure Spot where
  before : List Char
  after : List Char
  groups : List (Nat × List Char)

def isWord (c : Char) : Bool := c.isAlphanum || c = '_'

def fitsFolded (fold : Bool) (atom : Pattern.Atom) (c : Char) : Bool :=
  atom.fits c || (fold && (atom.fits c.toUpper || atom.fits c.toLower))

def ends (fold : Bool) : Nat → Regex → Spot → List Spot
  | 0, _, _ => []
  | fuel + 1, regex, spot =>
    match regex with
    | .empty => [spot]
    | .front => if spot.before.isEmpty then [spot] else []
    | .back => if spot.after.isEmpty then [spot] else []
    | .border =>
      if spot.before.head?.any isWord != spot.after.head?.any isWord then [spot] else []
    | .apart before =>
      if (if before then spot.before else spot.after).head?.any isWord then [] else [spot]
    | .one atom =>
      match spot.after with
      | [] => []
      | c :: rest =>
        if fitsFolded fold atom c then [{ spot with before := c :: spot.before, after := rest }]
        else []
    | .both first second => (ends fold fuel first spot).flatMap (ends fold fuel second)
    | .either first second => ends fold fuel first spot ++ ends fold fuel second spot
    | .repeated least most inner =>
      let more := if most = some 0 then [] else
        (ends fold fuel inner spot).flatMap fun next =>
          if next.after.length = spot.after.length then (if least = 0 then [] else [next])
          else ends fold fuel (.repeated (least - 1) (most.map (· - 1)) inner) next
      more ++ if least = 0 then [spot] else []
    | .group number inner =>
      (ends fold fuel inner spot).map fun next =>
        let text := spot.after.take (spot.after.length - next.after.length)
        { next with groups := (number, text) :: next.groups }
    | .again number =>
      let text := (spot.groups.lookup number).getD []
      if text.isPrefixOf spot.after then
        [{ spot with
            before := text.reverse ++ spot.before, after := spot.after.drop text.length }]
      else []

def longest (spots : List Spot) : Option Spot :=
  spots.foldl (fun best spot => match best with
    | none => some spot
    | some other => if spot.after.length < other.after.length then some spot else best) none

/-- What an expression stands for in a text: what is before it, itself, and its end. -/
structure Found where
  before : List Char
  text : List Char
  spot : Spot

/-- The first place from a place on where an expression fits, with what was passed over, last
character first. -/
def find? (fold : Bool) (regex : Regex) (fuel : Nat) :
    List Char → List Char → List Char → Option Found
  | passed, before, after =>
    match longest (ends fold fuel regex ⟨before, after, []⟩) with
    | some spot => some ⟨passed.reverse, after.take (after.length - spot.after.length), spot⟩
    | none =>
      match after with
      | [] => none
      | c :: rest => find? fold regex fuel (c :: passed) (c :: before) rest

def depth (text : List Char) : Nat := 4 * text.length + 1000

def search (fold : Bool) (regex : Regex) (text : List Char) : Option Found :=
  find? fold regex (depth text) [] [] text

end Regex
end Emplace.Shell

/-!
Patterns of the shell: a star stands for any text, a question mark for any character, brackets for
one of several. A character that is quoted stands for itself.
-/
namespace Emplace.Shell

/-- A character of a word, and whether it is quoted. -/
structure Mark where
  char : Char
  quoted : Bool
  deriving DecidableEq, Repr

namespace Pattern

structure Range where
  least : Char
  most : Char
  deriving DecidableEq, Repr

inductive Atom where
  | exactly (c : Char)
  | one
  | many
  | among (negated : Bool) (ranges : List Range)
  deriving DecidableEq, Repr

def classes : List (String × List Range) := [
  ("alpha", [⟨'a', 'z'⟩, ⟨'A', 'Z'⟩]), ("digit", [⟨'0', '9'⟩]), ("lower", [⟨'a', 'z'⟩]),
  ("alnum", [⟨'a', 'z'⟩, ⟨'A', 'Z'⟩, ⟨'0', '9'⟩]), ("upper", [⟨'A', 'Z'⟩]),
  ("space", [⟨'\t', '\r'⟩, ⟨' ', ' '⟩]), ("blank", [⟨'\t', '\t'⟩, ⟨' ', ' '⟩]),
  ("punct", [⟨'!', '/'⟩, ⟨':', '@'⟩, ⟨'[', '\x60'⟩, ⟨'\x7b', '~'⟩]), ("print", [⟨' ', '~'⟩]),
  ("graph", [⟨'!', '~'⟩]), ("cntrl", [⟨'\x00', '\x1f'⟩, ⟨'\x7f', '\x7f'⟩]),
  ("xdigit", [⟨'0', '9'⟩, ⟨'a', 'f'⟩, ⟨'A', 'F'⟩])]

/-- The class that characters behind a bracket and a colon name, and what follows it. -/
def class? (marks : List Mark) : Option (List Range × List Mark) :=
  let name := marks.takeWhile fun mark => mark.char.isAlpha
  match marks.drop name.length with
  | ⟨':', _⟩ :: ⟨']', _⟩ :: rest =>
    (classes.lookup (String.ofList (name.map Mark.char))).map fun ranges => (ranges, rest)
  | _ => none

/-- The ranges up to the closing bracket, which does not close them at their front. -/
def ranges? : Nat → Bool → List Mark → Option (List Range × List Mark)
  | 0, _, _ => none
  | _, _, [] => none
  | fuel + 1, front, mark :: rest =>
    if mark.char = ']' ∧ !mark.quoted ∧ !front then some ([], rest)
    else
      let named := match mark, rest with
        | ⟨'[', false⟩, ⟨':', false⟩ :: rest => class? rest
        | _, _ => none
      match named with
      | some (ranges, rest) =>
        (ranges? fuel false rest).map fun (others, rest) => (ranges ++ others, rest)
      | none =>
        let (range, rest) : Range × List Mark := match rest with
          | ⟨'-', false⟩ :: most :: behind =>
            if most.char = ']' ∧ !most.quoted then (⟨mark.char, mark.char⟩, rest)
            else (⟨mark.char, most.char⟩, behind)
          | _ => (⟨mark.char, mark.char⟩, rest)
        (ranges? fuel false rest).map fun (others, rest) => (range :: others, rest)

def among? (marks : List Mark) : Option (Atom × List Mark) :=
  match marks with
  | ⟨'!', false⟩ :: rest =>
    (ranges? (rest.length + 1) true rest).map fun (ranges, rest) => (.among true ranges, rest)
  | rest =>
    (ranges? (rest.length + 1) true rest).map fun (ranges, rest) => (.among false ranges, rest)

def atoms : Nat → List Mark → List Atom
  | 0, _ => []
  | _, [] => []
  | fuel + 1, ⟨c, quoted⟩ :: rest =>
    if quoted then .exactly c :: atoms fuel rest
    else if c = '*' then .many :: atoms fuel rest
    else if c = '?' then .one :: atoms fuel rest
    else if c = '[' then
      match among? rest with
      | some (atom, rest) => atom :: atoms fuel rest
      | none => .exactly '[' :: atoms fuel rest
    else .exactly c :: atoms fuel rest

def ofMarks (marks : List Mark) : List Atom := atoms (marks.length + 1) marks

def Atom.fits (c : Char) : Atom → Bool
  | .exactly d => c = d
  | .one => true
  | .many => false
  | .among negated ranges =>
    (ranges.any fun range => range.least ≤ c && c ≤ range.most) != negated

def tails : List Char → List (List Char)
  | [] => [[]]
  | c :: rest => (c :: rest) :: tails rest

def fits : List Atom → List Char → Bool
  | [], text => text.isEmpty
  | .many :: rest, text => (tails text).any (fits rest)
  | atom :: rest, c :: text => atom.fits c && fits rest text
  | _ :: _, [] => false

def isOpen (marks : List Mark) : Bool :=
  marks.any fun mark => !mark.quoted && ['*', '?', '['].contains mark.char

/-- The numbers up to a limit, largest first where the longest is wanted. -/
def lengths (longest : Bool) (limit : Nat) : List Nat :=
  if longest then (List.range (limit + 1)).reverse else List.range (limit + 1)

def withoutFront (longest : Bool) (pattern : List Atom) (text : List Char) : List Char :=
  match (lengths longest text.length).find? fun n => fits pattern (text.take n) with
  | some n => text.drop n
  | none => text

def withoutBack (longest : Bool) (pattern : List Atom) (text : List Char) : List Char :=
  match (lengths longest text.length).find? fun n =>
      fits pattern (text.drop (text.length - n)) with
  | some n => text.take (text.length - n)
  | none => text

end Pattern
end Emplace.Shell

import Emplace.Number.Rounded
import Emplace.Text.Pieces
import Emplace.Text.Quoted

/-!
JSON documents as text: two spaces for each level, one entry a line, and nothing but ASCII. A
character beyond ASCII is written as the escapes of its UTF-16 units.
-/
namespace Emplace

/-- A number in decimal. There need not be digits behind the point, nor a power of ten. -/
structure Numeral where
  negative : Bool
  whole : Nat
  fraction : List (Fin 10)
  power : Option Int
  deriving DecidableEq, Repr

namespace Numeral

def ofNat (n : Nat) : Numeral := ⟨false, n, [], none⟩

instance (n : Nat) : OfNat Numeral n := ⟨ofNat n⟩

def fractionChars : List (Fin 10) → List Char
  | [] => []
  | digits => '.' :: digits.map fun digit => Text.digitChar digit.val

def powerChars : Option Int → List Char
  | none => []
  | some power => Number.Rounded.powerOf power

def chars (n : Numeral) : List Char :=
  (if n.negative then ['-'] else []) ++ Text.digits n.whole ++ fractionChars n.fraction
    ++ powerChars n.power

end Numeral

inductive Json where
  | null
  | bool (b : Bool)
  | number (n : Numeral)
  | text (s : String)
  | array (items : List Json)
  | object (fields : List (String × Json))

namespace Json

def unitEscape (unit : Nat) : List Char :=
  '\\' :: 'u' :: Text.hex 4 unit

def escaped (c : Char) : List Char :=
  if c = '"' then ['\\', '"']
  else if c = '\\' then ['\\', '\\']
  else if c = '\n' then ['\\', 'n']
  else if c = '\r' then ['\\', 'r']
  else if c = '\t' then ['\\', 't']
  else if c = '\x0c' then ['\\', 'f']
  else if c = '\x08' then ['\\', 'b']
  else if 32 ≤ c.toNat ∧ c.toNat < 127 then [c]
  else if c.toNat < 0x10000 then unitEscape c.toNat
  else
    let rest := c.toNat - 0x10000
    unitEscape (0xd800 + rest / 0x400) ++ unitEscape (0xdc00 + rest % 0x400)

def quoted (s : String) : List Char :=
  '"' :: s.toList.flatMap escaped ++ ['"']

def newline (level : Nat) : List Char :=
  '\n' :: List.replicate (2 * level) ' '

mutual

def chars (level : Nat) : Json → List Char
  | null => ['n', 'u', 'l', 'l']
  | bool true => ['t', 'r', 'u', 'e']
  | bool false => ['f', 'a', 'l', 's', 'e']
  | number n => n.chars
  | text s => quoted s
  | array [] => ['[', ']']
  | array (item :: rest) =>
    '[' :: newline (level + 1) ++ chars (level + 1) item ++ itemChars (level + 1) rest
      ++ newline level ++ [']']
  | object [] => ['\x7b', '\x7d']
  | object ((key, value) :: rest) =>
    '\x7b' :: newline (level + 1) ++ quoted key ++ [':', ' '] ++ chars (level + 1) value
      ++ fieldChars (level + 1) rest ++ newline level ++ ['\x7d']

def itemChars (level : Nat) : List Json → List Char
  | [] => []
  | item :: rest => ',' :: newline level ++ chars level item ++ itemChars level rest

def fieldChars (level : Nat) : List (String × Json) → List Char
  | [] => []
  | (key, value) :: rest =>
    ',' :: newline level ++ quoted key ++ [':', ' '] ++ chars level value
      ++ fieldChars level rest

end

def render (json : Json) : String :=
  String.ofList (chars 0 json)

end Json
end Emplace

import Emplace.Number.Decimal
import Emplace.Text.Lower
import Emplace.Text.Pieces

/-!
The numbers that scalars write. Underscores may stand anywhere. A number may be cut by colons into
parts of which each counts sixty of the next.
-/
namespace Emplace.Yaml.Numeral

open Text (Letter)

def compact (text : List Letter) : List Letter :=
  text.filter (· ≠ .char '_')

def allOf {α : Type} : List (Except Fault α) → Except Fault (List α)
  | [] => .ok []
  | .error fault :: _ => .error fault
  | .ok first :: rest => (allOf rest).map (first :: ·)

/-- The value of parts of which each counts sixty of the next, the last part first. -/
def sixtieths : Int → List Int → Int
  | _, [] => 0
  | unit, part :: more => part * unit + sixtieths (unit * 60) more

def wholeSize (digits : List Letter) : Except Fault Int :=
  match digits with
  | [] => .error .missingCharacter
  | [.char '0'] => .ok 0
  | .char '0' :: .char 'b' :: rest => Number.readInteger 2 rest
  | .char '0' :: .char 'x' :: rest => Number.readInteger 16 rest
  | .char '0' :: _ => Number.readInteger 8 digits
  | _ =>
    if digits.contains (.char ':') then
      (allOf ((Text.pieces (.char ':') digits).map (Number.readInteger 10))).map fun parts =>
        sixtieths 1 parts.reverse
    else Number.readInteger 10 digits

def whole (text : List Letter) : Except Fault Int :=
  match compact text with
  | .char '-' :: digits => (wholeSize digits).map fun size => -1 * size
  | .char '+' :: digits => wholeSize digits
  | digits => wholeSize digits

/-- The sum of parts of which each counts sixty of the next, the last part first. -/
def sixtiethsOf (sum : Number.Double) (unit : Nat) : List Number.Double → Except Fault Number.Double
  | [] => .ok sum
  | part :: more =>
    match Number.Double.ofInt unit with
    | .infinite _ => .error .tooLarge
    | size => sixtiethsOf (sum.add (part.multiply size)) (unit * 60) more

def letters (word : String) : List Letter := word.toList.map .char

/-- The size of a floating-point number behind its sign; the word for what is no number gives
none. -/
def floatSize (size : List Letter) : Except Fault (Option Number.Double) :=
  if size = letters ".inf" then .ok (some (.infinite false))
  else if size = letters ".nan" then .ok none
  else if size.contains (.char ':') then
    match allOf ((Text.pieces (.char ':') size).map Number.readDouble) with
    | .error fault => .error fault
    | .ok parts => (sixtiethsOf (.zero false) 1 parts.reverse).map some
  else (Number.readDouble size).map some

def float (text : List Letter) : Except Fault (Option Number.Double) :=
  match Text.lower (compact text) with
  | [] => .error .missingCharacter
  | .char '-' :: size => (floatSize size).map (Option.map Number.Double.negate)
  | .char '+' :: size => floatSize size
  | size => floatSize size

end Emplace.Yaml.Numeral

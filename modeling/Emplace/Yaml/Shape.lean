import Emplace.Text.Lines
import Emplace.Yaml.Tag
import Emplace.Yaml.Time

/-!
What a plain scalar without a tag stands for: its text alone decides. Words for truth and for
nothing, whole numbers in four bases, numbers with a point, numbers of hours, minutes and seconds,
and points in time are known by their shapes; everything else is text. A line feed at the end does
not change the shape of a text that is not empty.
-/
namespace Emplace.Yaml.Shape

def isDigit (c : Char) : Bool := (Text.digitValue? c).isSome

def isSpacedDigit (c : Char) : Bool := isDigit c || c = '_'

def unsigned : List Char → List Char
  | '+' :: rest => rest
  | '-' :: rest => rest
  | chars => chars

def isWhole : List Char → Bool
  | c :: rest => isDigit c && rest.all isSpacedDigit
  | [] => false

def isPlainWhole (chars : List Char) : Bool :=
  isWhole chars && chars.head? ≠ some '0'

def isSixtieth : List Char → Bool
  | [a] => isDigit a
  | [a, b] => '0' ≤ a && a ≤ '5' && isDigit b
  | _ => false

def isInt (chars : List Char) : Bool :=
  match unsigned chars with
  | '0' :: 'b' :: digits => digits ≠ [] && digits.all fun c => c = '0' || c = '1' || c = '_'
  | '0' :: 'x' :: digits => digits ≠ [] && digits.all fun c =>
      c = '_' || (Text.baseDigit? c).any (· < 16)
  | ['0'] => true
  | '0' :: digits => digits.all fun c => c = '_' || ('0' ≤ c && c ≤ '7')
  | plain =>
    match Text.pieces ':' plain with
    | first :: later => isPlainWhole first && later.all isSixtieth
    | [] => false

def isPower : List Char → Bool
  | [] => true
  | e :: sign :: digits =>
    (e = 'e' || e = 'E') && (sign = '+' || sign = '-') && digits ≠ [] && digits.all isDigit
  | _ => false

def isFraction (chars : List Char) : Bool :=
  isPower (chars.dropWhile isSpacedDigit)

def isSixtiethsWithPoint (chars : List Char) : Bool :=
  match Text.pieces '.' chars with
  | [whole, fraction] =>
    fraction.all isSpacedDigit &&
      match Text.pieces ':' whole with
      | first :: second :: later => isWhole first && (second :: later).all isSixtieth
      | _ => false
  | _ => false

def isPointed (chars : List Char) : Bool :=
  match chars.dropWhile isSpacedDigit with
  | '.' :: fraction => isWhole (chars.takeWhile isSpacedDigit) && isFraction fraction
  | _ => false

/-- A number with a point, or one of the words for what is no finite number. -/
def isFloat (chars : List Char) : Bool :=
  let size := unsigned chars
  isPointed size || isSixtiethsWithPoint size
    || (match chars with
      | '.' :: digit :: fraction => isDigit digit && isFraction fraction
      | _ => false)
    || [".inf", ".Inf", ".INF"].contains (String.ofList size)
    || [".nan", ".NaN", ".NAN"].contains (String.ofList chars)

def truthWords : List String := [
  "yes", "Yes", "YES", "no", "No", "NO", "true", "True", "TRUE", "false", "False", "FALSE", "on",
  "On", "ON", "off", "Off", "OFF"]

def nullWords : List String := ["~", "null", "Null", "NULL"]

def tagOfLine (chars : List Char) : Tag :=
  let word := String.ofList chars
  if truthWords.contains word then .bool
  else if isFloat chars then .float
  else if isInt chars then .int
  else if word = "<<" then .merge
  else if nullWords.contains word then .null
  else if (Stamp.ofText? chars).any Stamp.isFull then .timestamp
  else if word = "=" then .default
  else if ["!", "&", "*"].contains word then .other (Tag.standard ++ "yaml")
  else .text

def tagOf (text : String) : Tag :=
  match text.toList with
  | [] => .null
  | chars => match Text.withoutFinalFeed chars with
    | [] => .text
    | line => tagOfLine line

end Emplace.Yaml.Shape

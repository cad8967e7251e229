import Emplace.Fault
import Emplace.Number.Power
import Emplace.Text.Blank
import Emplace.Text.Letters

/-!
Whole numbers read from text: white space around, a sign, a mark of the base, and digits of any
script. A number of more than a few thousand digits is refused unless its base is a power of two.
-/
namespace Emplace.Number

/-- The most digits that a number may be read from or written with. -/
def digitLimit : Nat := 4300

def tooManyDigits (count : Nat) : Fault :=
  .badValue ("Exceeds the limit (" ++ Text.natural digitLimit
    ++ " digits) for integer string conversion: value has " ++ Text.natural count
    ++ " digits; use sys.set_int_max_str_digits() to increase the limit")

def tooManyDigitsWritten : Fault :=
  .badValue ("Exceeds the limit (" ++ Text.natural digitLimit
    ++ " digits) for integer string conversion; "
    ++ "use sys.set_int_max_str_digits() to increase the limit")

def shownLimit : Nat := 200

def notInteger (base : Nat) (text : List Text.Letter) : Fault :=
  .badValue ("invalid literal for int() with base " ++ Text.natural base ++ ": "
    ++ String.ofList ((Text.quotedLetters text).toList.take shownLimit))

def isMargin (c : Char) : Bool :=
  if c.toNat < 128 then c = ' ' || (9 ≤ c.toNat && c.toNat ≤ 13) else Text.isBlank c

def withoutMargin (text : List Char) : List Char :=
  ((text.dropWhile isMargin).reverse.dropWhile isMargin).reverse

def usualDigit (c : Char) : Char :=
  if c.toNat < 128 then c
  else match Text.scriptDigit? c with
    | some n => Text.digitChar n
    | none => '?'

def cutSign : List Char → Bool × List Char
  | '-' :: rest => (true, rest)
  | '+' :: rest => (false, rest)
  | chars => (false, chars)

def withoutMark (base : Nat) : List Char → List Char
  | '0' :: mark :: rest =>
    if (base = 16 && (mark = 'x' || mark = 'X')) || (base = 8 && (mark = 'o' || mark = 'O'))
        || (base = 2 && (mark = 'b' || mark = 'B')) then rest
    else '0' :: mark :: rest
  | chars => chars

def isDigitOf (base : Nat) (c : Char) : Bool :=
  (Text.baseDigit? c).any (· < base)

def readInteger (base : Nat) (text : List Text.Letter) : Except Fault Int :=
  let (negative, rest) := cutSign ((withoutMargin (text.map Text.Letter.shape)).map usualDigit)
  let chars := withoutMark base rest
  let digits := chars.takeWhile (isDigitOf base)
  if base = 10 ∧ digitLimit < digits.length then .error (tooManyDigits digits.length)
  else if digits = [] ∨ digits.length < chars.length then .error (notInteger base text)
  else match Text.number? base digits with
    | none => .error (notInteger base text)
    | some n => .ok (if negative then -(n : Int) else n)

end Emplace.Number

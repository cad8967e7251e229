import Emplace.Number.Double
import Emplace.Number.Whole

/-!
Floating-point numbers read from text: white space around, a sign, a decimal with or without a point
and a power of ten, or one of the words for what is no finite number.
-/
namespace Emplace.Number

def notFloat (text : List Text.Letter) : Fault :=
  .badValue ("could not convert string to float: " ++ Text.quotedLetters text)

/-- The power of ten that a text writes behind a number; nothing is the power zero. -/
def power? : List Char → Option Int
  | [] => some 0
  | e :: rest =>
    if e = 'e' ∨ e = 'E' then
      let (negative, digits) := cutSign rest
      if digits = [] then none
      else (Text.number? 10 digits).map fun n => if negative then -(n : Int) else n
    else none

/-- The number nearest to `coefficient * 10 ^ power`, where the coefficient has `count` digits at
most; far from the numbers that there are, the power is not worked out. -/
def nearest (negative : Bool) (coefficient count : Nat) (power : Int) : Double :=
  if coefficient = 0 then .zero negative
  else if 400 + (count : Int) < power then .infinite negative
  else if power < -400 - (count : Int) then .zero negative
  else .ofDecimal negative coefficient power

def decimal? (negative : Bool) (chars : List Char) : Option Double := do
  let whole := chars.takeWhile (isDigitOf 10)
  let rest := chars.dropWhile (isDigitOf 10)
  let (fraction, rest) := match rest with
    | '.' :: rest => (rest.takeWhile (isDigitOf 10), rest.dropWhile (isDigitOf 10))
    | _ => ([], rest)
  let digits := whole ++ fraction
  if digits = [] then none
  else do
    let coefficient ← Text.number? 10 digits
    let power ← power? rest
    some (nearest negative coefficient digits.length (power - fraction.length))

def readDouble (text : List Text.Letter) : Except Fault Double :=
  let (negative, chars) := cutSign ((withoutMargin (text.map Text.Letter.shape)).map usualDigit)
  let word := String.ofList (chars.map Char.toLower)
  if word = "inf" ∨ word = "infinity" then .ok (.infinite negative)
  else if word = "nan" then .ok .nan
  else match decimal? negative chars with
    | some number => .ok number
    | none => .error (notFloat text)

end Emplace.Number

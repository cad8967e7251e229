import Emplace.Number.Power
import Emplace.Text.Digits

/-!
Binary floating-point numbers of 64 bits, exactly. A finite number is a sign, a whole mantissa and
a power of two. Ratios round to the nearest number, ties to the even mantissa; numbers print with
the fewest digits that read back.
-/
namespace Emplace.Number

/-- A floating-point number; `finite` stands for plus or minus `mantissa * 2 ^ exponent`. -/
inductive Double where
  | finite (negative : Bool) (mantissa : Nat) (exponent : Int)
  | infinite (negative : Bool)
  | nan
  deriving DecidableEq, Repr

namespace Double

def leastExponent : Int := -1074

def zero (negative : Bool) : Double :=
  .finite negative 0 leastExponent

/-- The quotient rounded to a whole number, halves to the even neighbour. -/
def divideEven (num den : Nat) : Nat :=
  let quotient := num / den
  let twice := 2 * (num % den)
  if twice < den then quotient
  else if den < twice then quotient + 1
  else quotient + quotient % 2

def scaled (num den : Nat) (exponent : Int) : Nat × Nat :=
  match exponent with
  | .ofNat n => (num, den * twoTo n)
  | .negSucc n => (num * twoTo (n + 1), den)

def ofRatio (negative : Bool) (num den : Nat) : Double :=
  if num = 0 then zero negative
  else
    let guess : Int := (num.log2 : Int) - den.log2 - 53
    let low := max guess leastExponent
    let exponent :=
      let part := scaled num den low
      if part.1 / part.2 < twoTo 53 then low else low + 1
    let part := scaled num den exponent
    let mantissa := divideEven part.1 part.2
    let (mantissa, exponent) :=
      if mantissa = twoTo 53 then (twoTo 52, exponent + 1) else (mantissa, exponent)
    if 971 < exponent then .infinite negative else .finite negative mantissa exponent

def ofDecimal (negative : Bool) (coefficient : Nat) (power : Int) : Double :=
  match power with
  | .ofNat n => ofRatio negative (coefficient * tenTo n) 1
  | .negSucc n => ofRatio negative coefficient (tenTo (n + 1))

def ofInt (i : Int) : Double :=
  ofRatio (i < 0) i.natAbs 1

def isNegative : Double → Bool
  | .finite negative _ _ => negative
  | .infinite negative => negative
  | .nan => false

def isZero : Double → Bool
  | .finite _ 0 _ => true
  | _ => false

def negate : Double → Double
  | .finite negative mantissa exponent => .finite (!negative) mantissa exponent
  | .infinite negative => .infinite (!negative)
  | .nan => .nan

/-- The signed mantissa of a finite number in units of `2 ^ unit`, for a `unit` not above its own
exponent. -/
def inUnits (negative : Bool) (mantissa : Nat) (exponent unit : Int) : Int :=
  let size : Int := mantissa * twoTo (exponent - unit).toNat
  if negative then -size else size

/-- The number nearest to `size * 2 ^ unit`; a zero takes the sign `zeroSign`. -/
def ofUnits (zeroSign : Bool) (size unit : Int) : Double :=
  if size = 0 then zero zeroSign
  else match unit with
    | .ofNat n => ofRatio (size < 0) (size.natAbs * twoTo n) 1
    | .negSucc n => ofRatio (size < 0) size.natAbs (twoTo (n + 1))

def add : Double → Double → Double
  | .nan, _ => .nan
  | _, .nan => .nan
  | .infinite a, .infinite b => if a = b then .infinite a else .nan
  | .infinite a, _ => .infinite a
  | _, .infinite b => .infinite b
  | .finite a m p, .finite b n q =>
    let unit := min p q
    ofUnits (a && b) (inUnits a m p unit + inUnits b n q unit) unit

def multiply : Double → Double → Double
  | .nan, _ => .nan
  | _, .nan => .nan
  | .infinite a, x => if x.isZero then .nan else .infinite (a != x.isNegative)
  | x, .infinite b => if x.isZero then .nan else .infinite (x.isNegative != b)
  | .finite a m p, .finite b n q =>
    let size : Int := m * n
    ofUnits (a != b) (if a != b then -size else size) (p + q)

def equalsInt : Double → Int → Bool
  | .finite negative mantissa exponent, i =>
    let unit := min exponent 0
    inUnits negative mantissa exponent unit == i * twoTo (0 - unit).toNat
  | _, _ => false

/-- Equality of values: the two zeros are one, and a NaN counts as itself. -/
def sameValue : Double → Double → Bool
  | .finite a m p, .finite b n q =>
    let unit := min p q
    inUnits a m p unit == inUnits b n q unit
  | x, y => x == y

/-- The exact bounds within which a decimal reads back as `mantissa * 2 ^ exponent`, in units of a
quarter of `2 ^ exponent`. -/
def bounds (mantissa : Nat) (exponent : Int) : Nat × Nat :=
  -- Below a power of two the next number is half as far away.
  let below := if mantissa = twoTo 52 ∧ leastExponent < exponent then 1 else 2
  (4 * mantissa - below, 4 * mantissa + 2)

def compareScaled (a : Nat) (power : Int) (b : Nat) (exponent : Int) : Ordering :=
  let left := a * tenTo power.toNat * twoTo (-exponent).toNat
  let right := b * twoTo exponent.toNat * tenTo (-power).toNat
  compare left right

/-- Whether the decimal `a * 10 ^ power` reads back as `mantissa * 2 ^ exponent`. -/
def readsBack (mantissa : Nat) (exponent : Int) (a : Nat) (power : Int) : Bool :=
  let (low, high) := bounds mantissa exponent
  let ends := mantissa % 2 = 0
  let above := match compareScaled a power low (exponent - 2) with
    | .gt => true
    | .eq => ends
    | .lt => false
  let below := match compareScaled a power high (exponent - 2) with
    | .lt => true
    | .eq => ends
    | .gt => false
  above && below

def wholePart (mantissa : Nat) (exponent power : Int) : Nat :=
  (mantissa * twoTo exponent.toNat * tenTo (-power).toNat)
    / (twoTo (-exponent).toNat * tenTo power.toNat)

/-- Of the two neighbours of the value on the grid `10 ^ power` those that read back, and of two
such the nearer. -/
def onGrid? (mantissa : Nat) (exponent power : Int) : Option Nat :=
  let floor := wholePart mantissa exponent power
  let lower := readsBack mantissa exponent floor power
  let upper := readsBack mantissa exponent (floor + 1) power
  match lower, upper with
  | true, true =>
    match compareScaled (2 * floor + 1) power (2 * mantissa) exponent with
    | .gt => some floor
    | .lt => some (floor + 1)
    | .eq => some (floor + floor % 2)
  | true, false => some floor
  | false, true => some (floor + 1)
  | false, false => none

/-- How many decimal digits the whole part of `mantissa * 2 ^ exponent` has, or minus the zeros that
follow the point: the value lies below `10` to this power and not below a tenth of it. -/
def magnitude (mantissa : Nat) (exponent : Int) : Int :=
  let guess : Int := ((mantissa.log2 : Int) + exponent) * 30103 / 100000
  let rec raise : Nat → Int → Int
    | 0, power => power
    | fuel + 1, power =>
      match compareScaled 1 power mantissa exponent with
      | .gt => power
      | _ => raise fuel (power + 1)
  raise 4 (guess - 1)

/-- The shortest digits from `count` places on, and the power of ten of their last place. -/
def shortestFrom (mantissa : Nat) (exponent top : Int) : Nat → Nat → Nat × Int
  | 0, count => (wholePart mantissa exponent (top - count), top - count)
  | fuel + 1, count =>
    match onGrid? mantissa exponent (top - count) with
    | some digits => (digits, top - count)
    | none => shortestFrom mantissa exponent top fuel (count + 1)

/-- The shortest decimal that reads back as `mantissa * 2 ^ exponent`, as a whole number and the
power of ten of its last place. -/
def shortest (mantissa : Nat) (exponent : Int) : Nat × Int :=
  shortestFrom mantissa exponent (magnitude mantissa exponent) 17 1

def withoutTrailingZeros (digits : List Char) : List Char :=
  (digits.reverse.dropWhile (· == '0')).reverse

/-- The digits of a positive number with the place of the point: the value is `0.d₁d₂…` times ten to
the power that is given. -/
def places (digits : List Char) (point : Int) : List Char :=
  let count : Int := digits.length
  if -4 < point ∧ point ≤ 16 then
    if point ≤ 0 then
      ['0', '.'] ++ List.replicate (-point).toNat '0' ++ digits
    else if count ≤ point then
      digits ++ List.replicate (point - count).toNat '0' ++ ['.', '0']
    else digits.take point.toNat ++ '.' :: digits.drop point.toNat
  else
    let power := point - 1
    let sign := if power < 0 then '-' else '+'
    let size := Text.digits power.natAbs
    let size := if size.length < 2 then '0' :: size else size
    let tail := 'e' :: sign :: size
    match digits with
    | [] => tail
    | [d] => d :: tail
    | d :: more => d :: '.' :: more ++ tail

/-- The number as text: positional from a ten-thousandth up to below `10 ^ 16`, else with an
exponent of two digits or more. -/
def text : Double → String
  | .nan => "nan"
  | .infinite negative => if negative then "-inf" else "inf"
  | .finite negative mantissa exponent =>
    let body :=
      if mantissa = 0 then ['0', '.', '0']
      else
        let (digits, power) := shortest mantissa exponent
        let all := Text.digits digits
        places (withoutTrailingZeros all) (power + all.length)
    String.ofList (if negative then '-' :: body else body)

end Double
end Emplace.Number

import Emplace.Number.Decimal

/-!
Finite floating-point numbers written with a number of digits that is asked for: with so many places
behind the point, or with so many behind the first digit and a power of ten. All of it works on the
exact value, so the digits are rounded once, halves to the even neighbour.
-/
namespace Emplace.Number.Rounded

def whole (mantissa : Nat) (exponent power : Int) : Nat :=
  Double.divideEven (mantissa * twoTo exponent.toNat * tenTo power.toNat)
    (twoTo (-exponent).toNat * tenTo (-power).toNat)

def padded (count n : Nat) : List Char :=
  let digits := Text.digits n
  List.replicate (count - digits.length) '0' ++ digits

/-- Digits with a point in front of the last so many; a point that nothing follows is only written
where it is asked for. -/
def pointed (pointAlways : Bool) (places : Nat) (digits : List Char) : List Char :=
  let (before, behind) := digits.splitAt (digits.length - places)
  if places = 0 ∧ !pointAlways then before else before ++ '.' :: behind

/-- Digits behind a point without the zeros at their end, and without a point that nothing
follows. -/
def trimmed (chars : List Char) : List Char :=
  if !chars.contains '.' then chars
  else
    match chars.reverse.dropWhile (· = '0') with
    | '.' :: rest => rest.reverse
    | rest => rest.reverse

def fixed (pointAlways : Bool) (places mantissa : Nat) (exponent : Int) : List Char :=
  pointed pointAlways places (padded (places + 1) (whole mantissa exponent places))

/-- The digits of a number, so many behind the first, and the power of ten of the first. -/
def leading (places mantissa : Nat) (exponent : Int) : Nat × Int :=
  if mantissa = 0 then (0, 0)
  else
    let top := Double.magnitude mantissa exponent - 1
    let digits := whole mantissa exponent (places - top)
    if digits = tenTo (places + 1) then (tenTo places, top + 1) else (digits, top)

def powerOf (power : Int) : List Char :=
  'e' :: (if power < 0 then '-' else '+') :: padded 2 power.natAbs

def scientific (pointAlways : Bool) (places mantissa : Nat) (exponent : Int) : List Char :=
  let (digits, power) := leading places mantissa exponent
  pointed pointAlways places (padded (places + 1) digits) ++ powerOf power

/-- A number with so many digits at most, with a power of ten where it is far from one; zeros at the
end are only written where that is asked for. -/
def general (zerosAlways : Bool) (count mantissa : Nat) (exponent : Int) : List Char :=
  let count := max count 1
  let (digits, power) := leading (count - 1) mantissa exponent
  let tidy (chars : List Char) : List Char := if zerosAlways then chars else trimmed chars
  if power < -4 ∨ (count : Int) ≤ power then
    tidy (pointed zerosAlways (count - 1) (padded count digits)) ++ powerOf power
  else tidy (fixed zerosAlways ((count : Int) - 1 - power).toNat mantissa exponent)

end Emplace.Number.Rounded

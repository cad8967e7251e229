import Emplace.Fault
import Emplace.Value

/-!
Points in time: a calendar date, with the time of day and the distance from universal time behind it
if they are known.
-/
namespace Emplace.Yaml

structure Clock where
  hour : Nat
  minute : Nat
  second : Nat
  fraction : List Char
  offset : Option Int

structure Stamp where
  year : Nat
  month : List Char
  day : List Char
  clock : Option Clock

namespace Stamp

def isDigit (c : Char) : Bool := (Text.digitValue? c).isSome

def value (digits : List Char) : Nat := (Text.number? 10 digits).getD 0

def digits? (count : Nat) (chars : List Char) : Option (List Char × List Char) :=
  let taken := chars.take count
  if taken.length = count ∧ taken.all isDigit then some (taken, chars.drop count) else none

def fewDigits? (chars : List Char) : Option (List Char × List Char) :=
  (digits? 2 chars).orElse fun _ => digits? 1 chars

def after? (c : Char) : List Char → Option (List Char)
  | d :: rest => if d = c then some rest else none
  | [] => none

def isBlank (c : Char) : Bool := c = ' ' || c = '\t'

/-- The distance from universal time that a text writes, if it writes one. -/
def offset? (chars : List Char) : Option (Option Int) :=
  match chars with
  | [] => some none
  | c :: _ =>
    match chars.dropWhile isBlank with
    | ['Z'] => some (some 0)
    | sign :: rest =>
      if sign = '+' ∨ sign = '-' then do
        let (hours, rest) ← fewDigits? rest
        let minutes ← match rest with
          | [] => some []
          | _ => do
            let (minutes, rest) ← digits? 2 (← after? ':' rest)
            if rest = [] then some minutes else none
        let total : Int := value hours * 60 + value minutes
        some (some (if sign = '-' then -total else total))
      else none
    | [] => if isBlank c then none else some none

def fraction (chars : List Char) : List Char × List Char :=
  match chars with
  | '.' :: rest => (rest.takeWhile isDigit, rest.dropWhile isDigit)
  | _ => ([], chars)

def clock? (chars : List Char) : Option Clock := do
  let (hour, rest) ← fewDigits? chars
  let (minute, rest) ← digits? 2 (← after? ':' rest)
  let (second, rest) ← digits? 2 (← after? ':' rest)
  let (fraction, rest) := fraction rest
  let offset ← offset? rest
  some ⟨value hour, value minute, value second, fraction, offset⟩

/-- What stands between the date and the time of day is a letter or white space. -/
def afterGap? : List Char → Option (List Char)
  | 'T' :: rest => some rest
  | 't' :: rest => some rest
  | c :: rest => if isBlank c then some (rest.dropWhile isBlank) else none
  | [] => none

def ofText? (chars : List Char) : Option Stamp := do
  let (year, rest) ← digits? 4 chars
  let (month, rest) ← fewDigits? (← after? '-' rest)
  let (day, rest) ← fewDigits? (← after? '-' rest)
  match rest with
  | [] => some ⟨value year, month, day, none⟩
  | _ => do
    let clock ← clock? (← afterGap? rest)
    some ⟨value year, month, day, some clock⟩

/-- Whether a stamp is written in full: with two digits for month and day, or with a time. -/
def isFull (stamp : Stamp) : Bool :=
  stamp.clock.isSome || (stamp.month.length = 2 && stamp.day.length = 2)

def toDate (stamp : Stamp) : Except Fault Date :=
  let month := value stamp.month
  let day := value stamp.day
  if stamp.year = 0 then .error (.badValue "year 0 is out of range")
  else if month < 1 ∨ 12 < month then .error (.badValue "month must be in 1..12")
  else if day < 1 ∨ Date.monthLength stamp.year month < day then
    .error (.badValue "day is out of range for month")
  else .ok ⟨stamp.year, month, day⟩

def spanText (minutes : Int) : String :=
  let seconds := minutes.fmod Moment.dayMinutes * 60
  "datetime.timedelta(days=" ++ Text.integer (minutes.fdiv Moment.dayMinutes)
    ++ (if seconds = 0 then "" else ", seconds=" ++ Text.integer seconds) ++ ")"

def offsetTooLarge (minutes : Int) : Fault :=
  .badValue ("offset must be a timedelta strictly between -timedelta(hours=24) and "
    ++ "timedelta(hours=24), not " ++ spanText minutes ++ ".")

def microseconds (fraction : List Char) : Nat :=
  let digits := fraction.take 6
  value digits * Number.tenTo (6 - digits.length)

def toMoment (stamp : Stamp) (clock : Clock) : Except Fault Moment :=
  if (clock.offset.any fun minutes => Moment.dayMinutes ≤ minutes.natAbs) then
    .error (offsetTooLarge (clock.offset.getD 0))
  else match stamp.toDate with
    | .error fault => .error fault
    | .ok date =>
      if 23 < clock.hour then .error (.badValue "hour must be in 0..23")
      else if 59 < clock.minute then .error (.badValue "minute must be in 0..59")
      else if 59 < clock.second then .error (.badValue "second must be in 0..59")
      else .ok
        ⟨date, clock.hour, clock.minute, clock.second, microseconds clock.fraction, clock.offset⟩

def toValue (stamp : Stamp) : Except Fault Value :=
  match stamp.clock with
  | none => stamp.toDate.map .date
  | some clock => (stamp.toMoment clock).map .moment

end Stamp
end Emplace.Yaml

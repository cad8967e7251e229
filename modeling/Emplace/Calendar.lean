/-!
Days of the calendar and moments in them. Two moments whose distance from universal time is known
are the same when they are the same instant, wherever they are written.
-/
namespace Emplace

structure Date where
  year : Nat
  month : Nat
  day : Nat
  deriving DecidableEq, Repr

namespace Date

def isLeap (year : Nat) : Bool :=
  year % 4 = 0 && (year % 100 ≠ 0 || year % 400 = 0)

def monthLength (year month : Nat) : Nat :=
  if month = 2 then (if isLeap year then 29 else 28)
  else if month = 4 ∨ month = 6 ∨ month = 9 ∨ month = 11 then 30
  else 31

def daysBefore (year : Nat) : Nat → Nat
  | 0 => 0
  | 1 => 0
  | month + 2 => daysBefore year (month + 1) + monthLength year (month + 1)

/-- The number of a day; the first day of the first year is one. -/
def number (date : Date) : Nat :=
  let years := date.year - 1
  365 * years + years / 4 - years / 100 + years / 400
    + daysBefore date.year date.month + date.day

end Date

/-- A day and a time of day, with the distance from universal time in minutes where it is known. -/
structure Moment where
  date : Date
  hour : Nat
  minute : Nat
  second : Nat
  microsecond : Nat
  offset : Option Int
  deriving DecidableEq, Repr

namespace Moment

def dayMinutes : Nat := 1440

/-- The minute of universal time that a moment at some distance from it lies in. -/
def minuteAt (m : Moment) (offset : Int) : Int :=
  (m.date.number * dayMinutes + m.hour * 60 + m.minute : Nat) - offset

def same (a b : Moment) : Bool :=
  match a.offset, b.offset with
  | some x, some y =>
    a.minuteAt x == b.minuteAt y && a.second == b.second && a.microsecond == b.microsecond
  | _, _ => a == b

end Moment
end Emplace

/-!
Dates of the Gregorian calendar, extended to all years, and their day numbers, which count from the
first of January 1970. `Date.ofDay` and `Date.day` are inverse to each other on valid dates.
-/

namespace ChatRooms.Time

/-- A date. Months and days count from one; the year before year one is year zero. -/
structure Date where
  year : Int
  month : Nat
  day : Nat
deriving DecidableEq, Repr

def isLeapYear (year : Int) : Bool := year % 4 = 0 && (year % 100 ≠ 0 || year % 400 = 0)

def daysInMonth (leap : Bool) : Nat → Nat
  | 2 => if leap then 29 else 28
  | 4 | 6 | 9 | 11 => 30
  | _ => 31

/-- The number of days of a year before the first of a month. -/
def daysBeforeMonth (leap : Bool) : Nat → Nat
  | 0 => 0
  | 1 => 0
  | month + 1 => daysBeforeMonth leap month + daysInMonth leap month

/-- The number of days from the first of January of year zero to that of the given year. -/
def daysBeforeYear (year : Int) : Int :=
  let y := year - 1
  365 * year + y / 4 - y / 100 + y / 400 + 1

/-- The number of days from the first of January of year zero to that of 1970. -/
def epoch : Int := daysBeforeYear 1970

def minYear : Int := -262143

def maxYear : Int := 262142

namespace Date

/-- The date exists and its year can be represented. -/
def isValid (d : Date) : Bool :=
  minYear ≤ d.year && d.year ≤ maxYear && 1 ≤ d.month && d.month ≤ 12 && 1 ≤ d.day &&
    d.day ≤ daysInMonth (isLeapYear d.year) d.month

/-- The number of days from the first of January 1970 to a date. -/
def toDay (d : Date) : Int :=
  daysBeforeYear d.year + daysBeforeMonth (isLeapYear d.year) d.month + (d.day - 1 : Nat) - epoch

/-- The month and the day of the month of a day of a year, which counts from zero. The search goes
from month `month` down. -/
def monthAndDay (leap : Bool) (dayOfYear : Nat) : (month : Nat) → Nat × Nat
  | 0 => (1, dayOfYear + 1)
  | month + 1 =>
    if daysBeforeMonth leap (month + 1) ≤ dayOfYear then
      (month + 1, dayOfYear - daysBeforeMonth leap (month + 1) + 1)
    else monthAndDay leap dayOfYear month

/-- The year of a day, given by its distance from the first of January of year zero. The average
length of a year leads to the year or to one beside it. -/
def yearOf (n : Int) : Int :=
  let y := n * 400 / 146097
  if n < daysBeforeYear y then y - 1
  else if daysBeforeYear (y + 1) ≤ n then y + 1
  else y

def ofDay (day : Int) : Date :=
  let n := day + epoch
  let year := yearOf n
  let (month, dayOfMonth) := monthAndDay (isLeapYear year) (n - daysBeforeYear year).toNat 12
  ⟨year, month, dayOfMonth⟩

end Date

end ChatRooms.Time

import ChatRooms.Time.Instant

/-!
Instants as text: `2024-05-06T07:08:09.123Z`. The fraction has no, three, six or nine digits, as few
as are needed. Years of other than four digits have a sign. A leap second is written as second 60.
-/

namespace ChatRooms.Time

/-- The digits of a number, with zeros in front up to the width. -/
def padded (width n : Nat) : List Char :=
  let digits := Nat.toDigits 10 n
  List.replicate (width - digits.length) '0' ++ digits

/-- A year: four digits, or a sign and at least four digits. -/
def yearText (year : Int) : List Char :=
  if 0 ≤ year ∧ year ≤ 9999 then padded 4 year.toNat
  else (if year < 0 then '-' else '+') :: padded 4 year.natAbs

/-- The fraction of a second, with its point. -/
def fractionText (nanos : Nat) : List Char :=
  if nanos = 0 then []
  else if nanos % 1000000 = 0 then '.' :: padded 3 (nanos / 1000000)
  else if nanos % 1000 = 0 then '.' :: padded 6 (nanos / 1000)
  else '.' :: padded 9 nanos

/-- The zone at the end of a time stamp, always that of universal time. -/
inductive Zone where
  /-- written `Z` -/
  | letter
  /-- written `+00:00` -/
  | offset
deriving DecidableEq, Repr

def Zone.text : Zone → List Char
  | .letter => ['Z']
  | .offset => ['+', '0', '0', ':', '0', '0']

namespace Instant

/-- The date and the second of the day of an instant. -/
def date (t : Instant) : Date := Date.ofDay (t.seconds / secondsPerDay)

/-- The second of the day, which counts from zero. -/
def secondOfDay (t : Instant) : Nat := (t.seconds % secondsPerDay).toNat

def chars (zone : Zone) (t : Instant) : List Char :=
  let d := t.date
  let s := t.secondOfDay
  yearText d.year ++ '-' :: padded 2 d.month ++ '-' :: padded 2 d.day ++ 'T' ::
    padded 2 (s / 3600) ++ ':' :: padded 2 (s / 60 % 60) ++ ':' ::
    padded 2 (s % 60 + t.nanos / nanosPerSecond) ++ fractionText (t.nanos % nanosPerSecond) ++
    zone.text

/-- The text of an instant that ends in `Z`. -/
def text (t : Instant) : String := String.ofList (t.chars .letter)

/-- The text of an instant that ends in `+00:00`, as rows of the data base hold it. -/
def storedText (t : Instant) : String := String.ofList (t.chars .offset)

end Instant

end ChatRooms.Time

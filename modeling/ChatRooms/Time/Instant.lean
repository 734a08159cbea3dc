import ChatRooms.Time.Date

/-!
Instants: seconds since the beginning of 1970 in universal time, and nanoseconds. A second may hold
more than its own nanoseconds: those from `10 ^ 9` on lie in a leap second behind it. Clocks put
leap seconds at the end of a minute alone, and so do texts; but whoever sets the nanoseconds of an
instant on their own can put one behind any second.
-/

namespace ChatRooms.Time

def nanosPerSecond : Nat := 1000000000

def secondsPerDay : Int := 86400

/-- The first second that can be represented. -/
def minSeconds : Int := (⟨minYear, 1, 1⟩ : Date).toDay * secondsPerDay

/-- The last second that can be represented. -/
def maxSeconds : Int := (⟨maxYear, 12, 31⟩ : Date).toDay * secondsPerDay + (secondsPerDay - 1)

/-- An instant that can be represented. -/
@[ext]
structure Instant where
  seconds : Int
  nanos : Nat
  inRange : minSeconds ≤ seconds ∧ seconds ≤ maxSeconds
  nanos_lt : nanos < 2 * nanosPerSecond
deriving DecidableEq

def nanosPerMilli : Int := 1000000

namespace Instant

/-- A leap second, if the instant lies in one, follows the last second of a minute. -/
def IsRegular (t : Instant) : Prop := nanosPerSecond ≤ t.nanos → t.seconds % 60 = 59

instance (t : Instant) : Decidable t.IsRegular := inferInstanceAs (Decidable (_ → _))

/-- The instant with these parts, if each is within its bounds. -/
def withParts? (seconds : Int) (nanos : Nat) : Option Instant :=
  if h : (minSeconds ≤ seconds ∧ seconds ≤ maxSeconds) ∧ nanos < 2 * nanosPerSecond then
    some ⟨seconds, nanos, h.1, h.2⟩
  else none

/-- The regular instant with these parts. -/
def ofParts? (seconds : Int) (nanos : Nat) : Option Instant :=
  if nanosPerSecond ≤ nanos → seconds % 60 = 59 then withParts? seconds nanos else none

def zero : Instant := ⟨0, 0, by decide, by decide⟩

/-- The order of instants: a leap second comes after the second that it follows. -/
def before (a b : Instant) : Bool :=
  a.seconds < b.seconds || (a.seconds == b.seconds && a.nanos < b.nanos)

def notAfter (a b : Instant) : Bool := !b.before a

/-- The instant so many nanoseconds later, or earlier if the number is negative, if it can be
represented. A span that leaves a leap second does not count the leap second's own length. -/
def addNanos? (a : Instant) (span : Int) : Option Instant :=
  let wholeSeconds := Int.tdiv span nanosPerSecond
  let restNanos := Int.tmod span nanosPerSecond
  let inLeap := nanosPerSecond ≤ a.nanos
  if inLeap && wholeSeconds = 0 &&
      !(0 < restNanos && 2 * (nanosPerSecond : Int) ≤ a.nanos + restNanos) then
    ofSum a.seconds (a.nanos + restNanos)
  else if inLeap && (0 < wholeSeconds || (wholeSeconds = 0 && 0 < restNanos)) then
    carry (a.seconds + wholeSeconds) ((a.nanos : Int) - nanosPerSecond + restNanos)
  else if inLeap then
    carry (a.seconds + 1 + wholeSeconds) ((a.nanos : Int) - nanosPerSecond + restNanos)
  else carry (a.seconds + wholeSeconds) (a.nanos + restNanos)
where
  ofSum (seconds nanos : Int) : Option Instant := withParts? seconds nanos.toNat
  /-- The instant with these parts, of which the nanoseconds may be negative or a second or more. -/
  carry (seconds nanos : Int) : Option Instant :=
    withParts? (seconds + nanos / nanosPerSecond) (nanos % nanosPerSecond).toNat

/-- The instant so many milliseconds later, if it can be represented. -/
def addMillis? (a : Instant) (millis : Int) : Option Instant := a.addNanos? (millis * nanosPerMilli)

/-- The number of whole milliseconds from `a` to `b`, leap seconds apart. -/
def millisUntil (a b : Instant) : Int :=
  ((b.seconds - a.seconds) * nanosPerSecond + ((b.nanos : Int) - a.nanos)) / nanosPerMilli

end Instant

/-- What a clock says. -/
structure ClockTime extends Instant where
  isRegular : toInstant.IsRegular
deriving DecidableEq

instance : Coe ClockTime Instant := ⟨ClockTime.toInstant⟩

def ClockTime.zero : ClockTime := ⟨.zero, by decide⟩

end ChatRooms.Time

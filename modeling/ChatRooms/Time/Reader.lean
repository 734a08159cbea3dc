import ChatRooms.Text.Blank
import ChatRooms.Time.Instant

/-!
Reading an instant. More is accepted than is written: blanks between the parts, single digits, a
`t` or a blank between date and time, any number of decimals, and offsets from universal time.
-/

namespace ChatRooms.Time

open ChatRooms.Text

/-- Why a text is no instant. -/
inductive ReadError where
  | tooShort
  | invalid
  | outOfRange
  | tooLong
  | impossible
deriving DecidableEq, Repr

def ReadError.message : ReadError → String
  | .tooShort => "premature end of input"
  | .invalid => "input contains invalid characters"
  | .outOfRange => "input is out of range"
  | .tooLong => "trailing input"
  | .impossible => "no possible date and time matching input"

/-- What was read, and what is left. -/
abbrev Parsed (α : Type) := Except ReadError (α × List Char)

def digit? (c : Char) : Option Nat :=
  if '0' ≤ c && c ≤ '9' then some (c.toNat - '0'.toNat) else none

/-- One more than the greatest number that is read. -/
def numberLimit : Nat := Nat.pow 2 63

/-- The number written by the digits at the beginning, of which at most `width` are taken. -/
def digitsOnto (n : Nat) : (width : Nat) → List Char → Parsed Nat
  | 0, s => .ok (n, s)
  | _, [] => .ok (n, [])
  | width + 1, c :: rest =>
    match digit? c with
    | none => .ok (n, c :: rest)
    | some d =>
      if n * 10 + d < numberLimit then digitsOnto (n * 10 + d) width rest else .error .outOfRange

/-- A number of at least one and at most `width` digits. -/
def readNumber (width : Nat) (s : List Char) : Parsed Nat :=
  match s with
  | [] => .error .tooShort
  | c :: _ => if (digit? c).isSome then digitsOnto 0 width s else .error .invalid

/-- A number after blanks, within bounds. -/
def readField (width lo hi : Nat) (s : List Char) : Parsed Nat :=
  match readNumber width (trimStart s) with
  | .error e => .error e
  | .ok (n, rest) => if lo ≤ n ∧ n ≤ hi then .ok (n, rest) else .error .outOfRange

/-- A year after blanks: up to four digits, or any number of digits after a sign. -/
def readYear (s : List Char) : Parsed Int :=
  let s := trimStart s
  let signed : Parsed Int :=
    match s with
    | '-' :: rest => (readNumber rest.length rest).map fun (n, r) => (-(n : Int), r)
    | '+' :: rest => (readNumber rest.length rest).map fun (n, r) => ((n : Int), r)
    | _ => (readNumber 4 s).map fun (n, r) => ((n : Int), r)
  match signed with
  | .error e => .error e
  | .ok (y, rest) =>
    if -2147483648 ≤ y ∧ y ≤ 2147483647 then .ok (y, rest) else .error .outOfRange

/-- A fixed character after blanks. -/
def readMark (c : Char) (s : List Char) : Parsed Unit :=
  match trimStart s with
  | [] => .error .tooShort
  | d :: rest => if d = c then .ok ((), rest) else .error .invalid

/-- The decimals of a second as nanoseconds: at most nine digits count, the others are dropped. -/
def readDecimals (s : List Char) : Parsed Nat :=
  match readNumber 9 s with
  | .error e => .error e
  | .ok (n, rest) =>
    .ok (n * Nat.pow 10 (9 - (s.length - rest.length)), rest.dropWhile fun c => (digit? c).isSome)

/-- The decimals of a second, if there are any. -/
def readFraction (s : List Char) : Parsed Nat :=
  match s with
  | '.' :: rest => readDecimals rest
  | _ => .ok (0, s)

def readTwo (s : List Char) : Parsed (Nat × Nat) :=
  match s with
  | [] => .error .tooShort
  | [c] => if c.utf8Size = 1 then .error .tooShort else .error .invalid
  | c :: d :: rest =>
    match digit? c, digit? d with
    | some x, some y => .ok ((x, y), rest)
    | _, _ => .error .invalid

/-- The hours and minutes of an offset, in seconds. -/
def readOffsetSize (s : List Char) : Parsed Int :=
  match readTwo s with
  | .error e => .error e
  | .ok ((h₁, h₂), rest) =>
    match readTwo (rest.dropWhile fun c => c == ':' || isBlank c) with
    | .error e => .error e
    | .ok ((m₁, m₂), rest) =>
      if m₁ ≤ 5 then .ok (((h₁ * 10 + h₂) * 3600 + (m₁ * 10 + m₂) * 60 : Nat), rest)
      else .error .outOfRange

def isUtc : List Char → Bool
  | u :: t :: c :: _ => u.toLower == 'u' && t.toLower == 't' && c.toLower == 'c'
  | _ => false

/-- The offset of a local time from universal time, in seconds. -/
def readOffset (s : List Char) : Parsed Int :=
  if isUtc s then .ok (0, s.drop 3)
  else
    match s with
    | [] => .error .tooShort
    | c :: rest =>
      if c = 'Z' ∨ c = 'z' then .ok (0, rest)
      else if c = '+' then readOffsetSize rest
      else if c = '-' ∨ c = '−' then (readOffsetSize rest).map fun (n, r) => (-n, r)
      else .error .invalid

structure Stamp where
  date : Date
  hour : Nat
  minute : Nat
  second : Nat
  nanos : Nat
  offset : Int
deriving DecidableEq, Repr

def readDate (s : List Char) : Except ReadError (Date × List Char) := do
  let (year, s) ← readYear s
  let ((), s) ← readMark '-' s
  let (month, s) ← readField 2 1 12 s
  let ((), s) ← readMark '-' s
  let (day, s) ← readField 2 1 31 s
  pure (⟨year, month, day⟩, s)

/-- The character between date and time. -/
def readSeparator (s : List Char) : Parsed Unit :=
  match s with
  | [] => .error .tooShort
  | c :: rest => if c = 't' ∨ c = 'T' ∨ c = ' ' then .ok ((), rest) else .error .invalid

/-- A time stamp with nothing behind it but blanks. -/
def readStamp (s : List Char) : Except ReadError Stamp := do
  let (date, s) ← readDate s
  let ((), s) ← readSeparator s
  let (hour, s) ← readField 2 0 23 s
  let ((), s) ← readMark ':' s
  let (minute, s) ← readField 2 0 59 s
  let ((), s) ← readMark ':' s
  let (second, s) ← readField 2 0 60 s
  let (nanos, s) ← readFraction s
  let (offset, s) ← readOffset (trimStart s)
  if (trimStart s).isEmpty then pure ⟨date, hour, minute, second, nanos, offset⟩
  else throw .tooLong

/-- The instant of a time stamp. Second 60 is a leap second of the second before. -/
def Stamp.instant (p : Stamp) : Except ReadError Instant :=
  if !p.date.isValid then .error .outOfRange
  else if p.offset ≤ -86400 ∨ 86400 ≤ p.offset then .error .outOfRange
  else
    let leap := p.second = 60
    let second := if leap then 59 else p.second
    let nanos := if leap then p.nanos + nanosPerSecond else p.nanos
    let local' := p.date.toDay * secondsPerDay + (p.hour * 3600 + p.minute * 60 + second : Nat)
    match Instant.ofParts? (local' - p.offset) nanos with
    | some t => .ok t
    | none => .error .impossible

def Instant.read (s : List Char) : Except ReadError Instant := do
  (← readStamp s).instant

/-- The instant that a text writes, if it writes one. -/
def Instant.read? (s : String) : Option Instant :=
  match Instant.read s.toList with
  | .ok t => some t
  | .error _ => none

end ChatRooms.Time

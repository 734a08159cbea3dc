import ChatRooms.Json.Skip
import ChatRooms.Decimal.Shortest

/-!
Number tokens with their values. Integers that fit into 64 bits are exact. All other numbers are
doubles: the first nineteen or twenty digits, as far as they fit into 64 bits, are turned into a
double, which is then multiplied or divided by a power of ten, so that the last bit may differ from
the nearest double.
-/

namespace ChatRooms.Json

open ChatRooms.Text

/-- The value of a number token. -/
inductive Numeral where
  | natural (n : Nat)
  | negative (n : Int)
  | real (x : Float)

namespace Numeral

def found : Numeral → Found
  | .natural n => .integer n
  | .negative n => .integer n
  | .real x => .real (Decimal.ofFloat x)

/-- One more than the greatest natural number of 64 bits. -/
def limit : Nat := Nat.pow 2 64

/-- Scales `f` by a power of ten in steps of at most `10 ^ 308`; nothing means that the result is
too great. Five steps reach zero from any double, and any exponent from there. -/
def scale (f : Float) : (steps : Nat) → (exponent : Int) → Option Float
  | 0, _ => some f
  | steps + 1, exponent =>
    if exponent.natAbs ≤ 308 then
      let power := Float.ofScientific 1 false exponent.natAbs
      if 0 ≤ exponent then
        let g := f * power
        if g.isInf then none else some g
      else some (f / power)
    else if f == 0 then some f
    else if 0 ≤ exponent then none
    else scale (f / Float.ofScientific 1 false 308) steps (exponent + 308)

/-- The double `significand · 10 ^ exponent`. -/
def ofParts (negative : Bool) (significand : Nat) (exponent : Int) : Option Float :=
  (scale (Float.ofNat significand) 8 exponent).map fun f => if negative then -f else f

end Numeral

def digitValue : Symbol → Nat
  | .char c => c.toNat - '0'.toNat
  | .stray _ => 0

/-- Takes digits as long as the number that they write stays below `limit`. The result is the
number, how many digits were taken, and what is left. -/
def takeDigits (limit : Nat) (n taken : Nat) : List Symbol → Nat × Nat × List Symbol
  | [] => (n, taken, [])
  | x :: rest =>
    if isDigit x && n * 10 + digitValue x < limit then
      takeDigits limit (n * 10 + digitValue x) (taken + 1) rest
    else (n, taken, x :: rest)

/-- The double of a number whose parts are read. -/
def readParts (negative : Bool) (significand : Nat) (exponent : Int) (s : List Symbol) :
    Reading Numeral :=
  match Numeral.ofParts negative significand exponent with
  | some x => .ok (.real x, s)
  | none => .error (.behind .numberOutOfRange s)

/-- Whether the sign of an exponent is a minus, and what is left behind it. -/
def readSign (s : List Symbol) : Bool × List Symbol :=
  match s with
  | x :: rest => if x.is '+' then (false, rest) else if x.is '-' then (true, rest) else (false, s)
  | [] => (false, s)

/-- The exponent of a number, behind its letter. An exponent of more than 31 bits makes zero, or is
too great. -/
def readExponent (negative : Bool) (significand : Nat) (exponent : Int) (s : List Symbol) :
    Reading Numeral :=
  let (minus, s) := readSign s
  match s with
  | [] => .error (.behind .endInValue [])
  | x :: _ =>
    if isDigit x then
      let (e, _, rest) := takeDigits (Nat.pow 2 31) 0 0 s
      match rest with
      | y :: _ =>
        if isDigit y then
          if significand ≠ 0 && !minus then .error (.behind .numberOutOfRange (rest.drop 1))
          else .ok (.real (if negative then -0.0 else 0.0), skipDigits rest)
        else readParts negative significand (if minus then exponent - e else exponent + e) rest
      | [] => readParts negative significand (if minus then exponent - e else exponent + e) rest
    else .error (.atNext .invalidNumber s)

/-- The exponent of a number, if one follows. -/
def readExponent? (negative : Bool) (significand : Nat) (exponent : Int) (s : List Symbol) :
    Reading Numeral :=
  match s with
  | x :: rest =>
    if x.is 'e' || x.is 'E' then readExponent negative significand exponent rest
    else readParts negative significand exponent s
  | [] => readParts negative significand exponent s

/-- The decimals of a number, behind its point. Digits that no longer fit are left out. -/
def readFraction (negative : Bool) (significand : Nat) (exponent : Int) (s : List Symbol) :
    Reading Numeral :=
  match s with
  | [] => .error (.atNext .endInValue [])
  | x :: _ =>
    if isDigit x then
      let (n, taken, rest) := takeDigits Numeral.limit significand 0 s
      readExponent? negative n (exponent - taken) (skipDigits rest)
    else .error (.atNext .invalidNumber s)

/-- What follows the digits of an integer. -/
def readTail (negative : Bool) (n : Nat) (s : List Symbol) : Reading Numeral :=
  let integer : Numeral :=
    if !negative then .natural n
    else if n = 0 || Nat.pow 2 63 < n then .real (-Float.ofNat n)
    else .negative (-(n : Int))
  match s with
  | [] => .ok (integer, [])
  | x :: rest =>
    if x.is '.' then readFraction negative n 0 rest
    else if x.is 'e' || x.is 'E' then readExponent negative n 0 rest
    else .ok (integer, s)

/-- What follows the digits that fit when there are more digits. -/
def readLongTail (negative : Bool) (n : Nat) (s : List Symbol) : Reading Numeral :=
  let rest := skipDigits s
  let exponent : Int := s.length - rest.length
  match rest with
  | x :: rest' =>
    if x.is '.' then readFraction negative n exponent rest'
    else readExponent? negative n exponent rest
  | [] => readParts negative n exponent []

def readUnsigned (negative : Bool) (s : List Symbol) : Reading Numeral :=
  match s with
  | [] => .error (.behind .endInValue [])
  | x :: rest =>
    if x.is '0' then
      match rest with
      | y :: _ =>
        if isDigit y then .error (.atNext .invalidNumber rest) else readTail negative 0 rest
      | [] => readTail negative 0 []
    else if isDigit x then
      let (n, _, rest') := takeDigits Numeral.limit 0 0 s
      match rest' with
      | y :: _ =>
        if isDigit y then readLongTail negative n rest' else readTail negative n rest'
      | [] => readTail negative n []
    else .error (.atNext .invalidNumber s)

/-- A number token that begins with the symbol `x`. -/
def readNumber (x : Symbol) (rest : List Symbol) : Reading Numeral :=
  if x.is '-' then readUnsigned true rest else readUnsigned false (x :: rest)

end ChatRooms.Json

import ChatRooms.Json.StringToken

/-!
Values that are not wanted. Only their grammar is checked: a number by its digits, a string by the
shape of its escapes. The brackets that are open stand on a stack, so values may nest to any depth.
-/

namespace ChatRooms.Json

open ChatRooms.Text

/-- What is left behind the decimal digits at the beginning. -/
def skipDigits (s : List Symbol) : List Symbol := s.dropWhile isDigit

/-- What is left behind the sign of an exponent, if it has one. -/
def skipSign (s : List Symbol) : List Symbol :=
  match s with
  | x :: rest => if x.is '+' || x.is '-' then rest else s
  | [] => s

/-- The exponent of a number, behind its letter. -/
def skipExponent (s : List Symbol) : Reading Unit :=
  let s := skipSign s
  match s with
  | [] => .error (.behind .invalidNumber [])
  | x :: rest => if isDigit x then .ok ((), skipDigits rest) else .error (.atNext .invalidNumber s)

/-- The exponent of a number, if one follows. -/
def skipExponent? (s : List Symbol) : Reading Unit :=
  match s with
  | x :: rest => if x.is 'e' || x.is 'E' then skipExponent rest else .ok ((), s)
  | [] => .ok ((), [])

/-- The decimals and the exponent of a number, if they follow. -/
def skipFraction (s : List Symbol) : Reading Unit :=
  match s with
  | x :: rest =>
    if x.is '.' then
      match rest with
      | y :: rest' =>
        if isDigit y then skipExponent? (skipDigits rest') else .error (.atNext .invalidNumber rest)
      | [] => .error (.atNext .invalidNumber [])
    else skipExponent? s
  | [] => .ok ((), [])

def skipUnsigned (s : List Symbol) : Reading Unit :=
  match s with
  | [] => .error (.behind .invalidNumber [])
  | x :: rest =>
    if x.is '0' then
      match rest with
      | y :: _ => if isDigit y then .error (.atNext .invalidNumber rest) else skipFraction rest
      | [] => .ok ((), [])
    else if isDigit x then skipFraction (skipDigits rest)
    else .error (.atNext .invalidNumber s)

inductive Bracket where
  | list
  | object
deriving DecidableEq, Repr

namespace Bracket

def closing : Bracket → Char
  | .list => ']'
  | .object => '\x7d'

/-- What is wrong when neither a comma nor the closing character follows a value. -/
def expectedCommaOrEnd : Bracket → Cause
  | .list => .expectedListCommaOrEnd
  | .object => .expectedObjectCommaOrEnd

/-- What is wrong when the text ends inside. -/
def endInside : Bracket → Cause
  | .list => .endInList
  | .object => .endInObject

end Bracket

def skipKey (s : List Symbol) : Reading Unit :=
  let s := skipSpace s
  match s with
  | [] => .error (.atNext .endInObject [])
  | x :: rest =>
    if x.is '"' then
      match skipString rest with
      | .error f => .error f
      | .ok ((), rest') =>
        let rest' := skipSpace rest'
        match rest' with
        | [] => .error (.atNext .endInObject [])
        | y :: rest'' =>
          if y.is ':' then .ok ((), rest'') else .error (.atNext .expectedColon rest')
    else .error (.atNext .keyNotString s)

/-- What to look for next. -/
inductive Want where
  /-- a value -/
  | value
  /-- the first entry of the innermost bracket, or its end -/
  | first
  /-- a comma, or the end of the innermost bracket -/
  | next
  /-- an entry of the innermost bracket -/
  | entry
deriving DecidableEq, Repr

def skipScalar (x : Symbol) (rest : List Symbol) : Reading Unit :=
  if x.is 'n' then readWord ['u', 'l', 'l'] rest
  else if x.is 't' then readWord ['r', 'u', 'e'] rest
  else if x.is 'f' then readWord ['a', 'l', 's', 'e'] rest
  else if x.is '-' then skipUnsigned rest
  else if isDigit x then skipUnsigned (x :: rest)
  else if x.is '"' then skipString rest
  else .error (.atNext .expectedValue (x :: rest))

/-- One step, with the open brackets on a stack, the innermost first: what to look for then, unless
everything is closed, and what is left. -/
def skipStep : Want → List Bracket → List Symbol →
    Except Fault (Option (Want × List Bracket) × List Symbol)
  | .value, open', s =>
    let s := skipSpace s
    match s with
    | [] => .error (.atNext .endInValue [])
    | x :: rest =>
      if x.is '[' then .ok (some (.first, .list :: open'), rest)
      else if x.is '\x7b' then .ok (some (.first, .object :: open'), rest)
      else
        match skipScalar x rest with
        | .error f => .error f
        | .ok ((), rest') => .ok (some (.next, open'), rest')
  | .first, [], s => .ok (none, s)
  | .first, b :: open', s =>
    let s := skipSpace s
    match s with
    | [] => .error (.atNext b.endInside [])
    | x :: rest =>
      if x.is b.closing then .ok (some (.next, open'), rest)
      else .ok (some (.entry, b :: open'), s)
  | .next, [], s => .ok (none, s)
  | .next, b :: open', s =>
    let s := skipSpace s
    match s with
    | [] => .error (.atNext b.endInside [])
    | x :: rest =>
      if x.is ',' then .ok (some (.entry, b :: open'), rest)
      else if x.is b.closing then .ok (some (.next, open'), rest)
      else .error (.atNext b.expectedCommaOrEnd s)
  | .entry, .object :: open', s =>
    match skipKey s with
    | .error f => .error f
    | .ok ((), rest) => .ok (some (.value, .object :: open'), rest)
  | .entry, open', s => .ok (some (.value, open'), s)

/-- Skips values. Of three steps one takes a symbol at least, so three times the length of the text
and three more steps are enough. -/
def skipFrom : (steps : Nat) → Want → List Bracket → List Symbol → Reading Unit
  | 0, _, _, s => .error (.atNext .expectedValue s)
  | steps + 1, want, open', s =>
    match skipStep want open' s with
    | .error f => .error f
    | .ok (none, rest) => .ok ((), rest)
    | .ok (some (want', open''), rest) => skipFrom steps want' open'' rest

/-- What is left behind one value. Only a list or an object needs the stack. -/
def skipValue (s : List Symbol) : Reading Unit :=
  let s := skipSpace s
  match s with
  | [] => .error (.atNext .endInValue [])
  | x :: rest =>
    if x.is '[' || x.is '\x7b' then skipFrom (3 * s.length + 3) .value [] s else skipScalar x rest

end ChatRooms.Json

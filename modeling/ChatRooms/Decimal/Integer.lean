/-!
Integers in decimal: an optional sign and one digit or more, within the bounds of a type.
-/

namespace ChatRooms.Decimal

def digit? (c : Char) : Option Nat :=
  if '0' ≤ c && c ≤ '9' then some (c.toNat - '0'.toNat) else none

/-- The number written by digits alone, of which `n` are the leading ones. -/
def digitsFrom (n : Nat) : List Char → Option Nat
  | [] => some n
  | c :: rest =>
    match digit? c with
    | some d => digitsFrom (n * 10 + d) rest
    | none => none

/-- The number written by one digit or more. -/
def readDigits? (s : List Char) : Option Nat := if s.isEmpty then none else digitsFrom 0 s

/-- A natural number below `limit`, perhaps with a plus sign. -/
def readNat? (limit : Nat) (s : List Char) : Option Nat :=
  let digits :=
    match s with
    | '+' :: rest => rest
    | _ => s
  match readDigits? digits with
  | some n => if n < limit then some n else none
  | none => none

/-- An integer from `-limit` to below `limit`, perhaps with a sign. -/
def readInt? (limit : Nat) (s : List Char) : Option Int :=
  match s with
  | '-' :: rest =>
    match readDigits? rest with
    | some n => if n ≤ limit then some (-(n : Int)) else none
    | none => none
  | _ => (readNat? limit s).map Int.ofNat

/-- More digits make no smaller number. -/
theorem le_ofDigitChars (n : Nat) (ds : List Char) : n ≤ Nat.ofDigitChars 10 ds n := by
  have h := @Nat.ofDigitChars_eq_ofDigitChars_zero ds n
  have hp : n ≤ 10 ^ ds.length * n := Nat.le_mul_of_pos_left n (Nat.pow_pos (by decide))
  omega

end ChatRooms.Decimal

/-!
Bytes in hexadecimal. Reading takes digits of either case, writing gives lower case.
-/

namespace ChatRooms.Text.Hex

def digit? (c : Char) : Option Nat :=
  if '0' ≤ c && c ≤ '9' then some (c.toNat - '0'.toNat)
  else if 'a' ≤ c && c ≤ 'f' then some (c.toNat - 'a'.toNat + 10)
  else if 'A' ≤ c && c ≤ 'F' then some (c.toNat - 'A'.toNat + 10)
  else none

def digit (n : Nat) : Char :=
  if n < 10 then Char.ofNat ('0'.toNat + n) else Char.ofNat ('a'.toNat + (n - 10))

/-- The lower-case hexadecimal text of a number, without leading zeros. -/
def ofNat (n : Nat) : String := String.ofList (Nat.toDigits 16 n)

/-- Two digits for each byte. -/
def encode (bytes : List UInt8) : String :=
  String.ofList (bytes.flatMap fun b => [digit (b.toNat / 16), digit (b.toNat % 16)])

private def decodeOnto (acc : List UInt8) : List Char → Option (List UInt8)
  | [] => some acc.reverse
  | [_] => none
  | a :: b :: rest =>
    match digit? a, digit? b with
    | some x, some y => decodeOnto (UInt8.ofNat (x * 16 + y) :: acc) rest
    | _, _ => none

def decode? (s : String) : Option (List UInt8) := decodeOnto [] s.toList

end ChatRooms.Text.Hex

/-!
Base64 with padding.
-/

namespace ChatRooms.Text.Base64

/-- The digits, in the order of their values. -/
def alphabet : String := "ABCDEFGHIJKLMNOPQRSTUVWXYZabcdefghijklmnopqrstuvwxyz0123456789+/"

/-- The digit of a value below sixty-four. -/
def digit (n : Nat) : Char := (alphabet.toList[n]?).getD '='

/-- Four characters for each three bytes; the last ones are filled up with `=`. -/
def encodeList : List UInt8 → List Char
  | a :: b :: c :: rest =>
    let n := (a.toNat * 256 + b.toNat) * 256 + c.toNat
    digit (n / 262144) :: digit (n / 4096 % 64) :: digit (n / 64 % 64) :: digit (n % 64) ::
      encodeList rest
  | [a, b] =>
    let n := (a.toNat * 256 + b.toNat) * 256
    [digit (n / 262144), digit (n / 4096 % 64), digit (n / 64 % 64), '=']
  | [a] =>
    let n := a.toNat * 65536
    [digit (n / 262144), digit (n / 4096 % 64), '=', '=']
  | [] => []

/-- The text of some bytes. -/
def encode (bytes : List UInt8) : String := String.ofList (encodeList bytes)

end ChatRooms.Text.Base64

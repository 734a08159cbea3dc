/-!
The binary digits of π behind the point, by π = 16 · arctan (1/5) - 4 · arctan (1/239). The series
of the arctangents are summed up in units of a small power of one half, with more digits than are
wanted.
-/

namespace ChatRooms.Digest.Pi

/-- The rest of the series of arctan (1/x), in some unit: `power` is 1/x to the power `n`. -/
def arctanFrom (x : Nat) : (terms : Nat) → (n power : Nat) → (isAdded : Bool) → Int
  | 0, _, _, _ => 0
  | terms + 1, n, power, isAdded =>
    if power = 0 then 0
    else
      (if isAdded then ((power / n : Nat) : Int) else -((power / n : Nat) : Int)) +
        arctanFrom x terms (n + 2) (power / (x * x)) !isAdded

/-- The value of arctan (1/x) in units of `2 ^ -bits`. The powers shrink by a factor of `x * x`, so
for `x` above one the series ends within so many terms. -/
def arctan (x bits : Nat) : Int := arctanFrom x bits 1 (Nat.pow 2 bits / x) true

/-- Digits that are dropped in the end. -/
def guardBits : Nat := 64

/-- The first binary digits of π behind the point, as a number. -/
def fraction (bits : Nat) : Nat :=
  let fine := bits + guardBits
  (16 * arctan 5 fine - 4 * arctan 239 fine - 3 * Int.pow 2 fine).toNat / Nat.pow 2 guardBits

/-- The first binary digits of π behind the point, in words of thirty-two. -/
def words (count : Nat) : List UInt32 :=
  let digits := fraction (32 * count)
  (List.range count).map fun i => UInt32.ofNat (digits >>> (32 * (count - 1 - i)) % Nat.pow 2 32)

end ChatRooms.Digest.Pi

/-!
The shortest decimal that reads back as a given double. Among the decimals with the fewest digits
that lie between the double's rounding bounds it is the one nearest to it. All arithmetic is exact.
-/

namespace ChatRooms.Decimal

/-- A decimal `digits · 10 ^ exponent`. -/
structure Scaled where
  digits : Nat
  exponent : Int
deriving DecidableEq, Repr

/-- A finite positive double `mantissa · 2 ^ exponent`; `tight` tells that the next smaller double
is only half as far away as the next greater one. -/
structure Binary where
  mantissa : Nat
  exponent : Int
  tight : Bool
deriving DecidableEq, Repr

namespace Binary

/-- The parts of a double, given by its bits without the sign. -/
def ofBits (bits : Nat) : Binary :=
  let fraction : Nat := bits % Nat.pow 2 52
  let exponent : Nat := bits / Nat.pow 2 52 % Nat.pow 2 11
  if exponent = 0 then ⟨fraction, -1074, false⟩
  else ⟨fraction + Nat.pow 2 52, (exponent : Int) - 1075, fraction = 0 && 1 < exponent⟩

/-- Numerator and denominator of a quarter of the double's last place. -/
def quarter (b : Binary) : Nat × Nat :=
  let e := b.exponent - 2
  if 0 ≤ e then (Nat.pow 2 e.toNat, 1) else (1, Nat.pow 2 (-e).toNat)

/-- The multiple `n · 10 ^ e` reads back as the double: it lies between the points half-way to the
double's neighbours, which belong to the double when its mantissa is even. -/
def reads (b : Binary) (n : Nat) (e : Int) : Bool :=
  let (unit, den) := b.quarter
  let value := n * (if 0 ≤ e then Nat.pow 10 e.toNat else 1) * den
  let scale := if 0 ≤ e then 1 else Nat.pow 10 (-e).toNat
  let lo := (4 * b.mantissa - (if b.tight then 1 else 2)) * unit * scale
  let hi := (4 * b.mantissa + 2) * unit * scale
  if b.mantissa % 2 = 0 then lo ≤ value && value ≤ hi else lo < value && value < hi

/-- The greatest `n` with `n · 10 ^ e` not above the double, and whether the next multiple is
nearer to the double than this one. -/
def grid (b : Binary) (e : Int) : Nat × Bool :=
  let (unit, den) := b.quarter
  let num := 4 * b.mantissa * unit * (if 0 ≤ e then 1 else Nat.pow 10 (-e).toNat)
  let step := den * (if 0 ≤ e then Nat.pow 10 e.toNat else 1)
  let n := num / step
  (n, step < 2 * (num - n * step) || (2 * (num - n * step) == step && n % 2 == 1))

/-- Tries the grids with steps `10 ^ e`, `10 ^ (e - 1)` and so on. -/
def search (b : Binary) : (tries : Nat) → (e : Int) → Scaled
  | 0, e => ⟨(b.grid e).1, e⟩
  | tries + 1, e =>
    let (n, up) := b.grid e
    let low := b.reads n e && n ≠ 0
    let high := b.reads (n + 1) e
    if low && high then ⟨if up then n + 1 else n, e⟩
    else if low then ⟨n, e⟩
    else if high then ⟨n + 1, e⟩
    else search b tries (e - 1)

/-- A power of ten that is not below the double. -/
def topExponent (b : Binary) : Int := (b.exponent + (Nat.log2 b.mantissa + 1)) * 30103 / 100000 + 1

/-- The shortest decimal of a double that is not zero. -/
def shortest (b : Binary) : Scaled := b.search 20 b.topExponent

end Binary

/-- Drops zeros at the end of the digits. -/
def Scaled.reduced : (steps : Nat) → Scaled → Scaled
  | 0, d => d
  | steps + 1, d =>
    if d.digits ≠ 0 && d.digits % 10 = 0 then Scaled.reduced steps ⟨d.digits / 10, d.exponent + 1⟩
    else d

/-- A decimal in words of the usual kind: positional from `10 ^ -5` to below `10 ^ 16` and with one
digit before the point and an exponent otherwise; integral values end in `.0`. -/
def Scaled.text (d : Scaled) : String :=
  let d := Scaled.reduced 20 d
  let digits := (toString d.digits).toList
  let length : Int := digits.length
  let point := length + d.exponent
  if 0 ≤ d.exponent && point ≤ 16 then
    String.ofList (digits ++ List.replicate d.exponent.toNat '0' ++ ['.', '0'])
  else if 0 < point && point ≤ 16 then
    String.ofList (digits.take point.toNat ++ '.' :: digits.drop point.toNat)
  else if -5 < point && point ≤ 0 then
    String.ofList ('0' :: '.' :: (List.replicate (-point).toNat '0' ++ digits))
  else
    let mantissa :=
      match digits with
      | [] => []
      | [c] => [c]
      | c :: rest => c :: '.' :: rest
    let exponent := point - 1
    String.ofList mantissa ++ (if 0 ≤ exponent then s!"e+{exponent}" else s!"e{exponent}")

/-- The shortest text that reads back as a finite double. -/
def ofFloat (x : Float) : String :=
  let bits := x.toBits.toNat
  let sign := if bits / Nat.pow 2 63 = 1 then "-" else ""
  let magnitude := bits % Nat.pow 2 63
  if magnitude = 0 then sign ++ "0.0"
  else sign ++ ((Binary.ofBits magnitude).shortest).text

end ChatRooms.Decimal

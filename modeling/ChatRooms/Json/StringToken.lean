import ChatRooms.Json.Space
import ChatRooms.Text.Hex

/-!
String tokens. `readString` gives the characters that a token stands for and refuses escapes of
surrogates without a partner and stray bytes; `skipString` only finds the token's end. Both start
behind the opening quote. `quoteOnto` writes a token.
-/

namespace ChatRooms.Json

open ChatRooms.Text

/-- The character that a one-letter escape stands for. -/
def shortEscape? : Char → Option Char
  | '"' => some '"'
  | '\\' => some '\\'
  | '/' => some '/'
  | 'b' => some '\x08'
  | 'f' => some '\x0c'
  | 'n' => some '\n'
  | 'r' => some '\r'
  | 't' => some '\t'
  | _ => none

def hexValue? : Symbol → Option Nat
  | .char c => Hex.digit? c
  | .stray _ => none

/-- The number that four hexadecimal digits write. -/
def hex4? (a b c d : Symbol) : Option Nat := do
  let a ← hexValue? a
  let b ← hexValue? b
  let c ← hexValue? c
  let d ← hexValue? d
  pure (((a * 16 + b) * 16 + c) * 16 + d)

/-- The four digits of a numeric escape. -/
def readHex4 (s : List Symbol) : Reading Nat :=
  if 4 ≤ Symbol.bytes (s.take 4) then
    match s with
    | a :: b :: c :: d :: rest =>
      match hex4? a b c d with
      | some n => .ok (n, rest)
      | none => .error ⟨.invalidEscape, some ⟨s, 4⟩, none⟩
    | _ => .error ⟨.invalidEscape, some ⟨s, 4⟩, none⟩
  else .error (.behind .endInString [])

def isHighSurrogate (n : Nat) : Bool := 0xD800 ≤ n && n < 0xDC00

def isLowSurrogate (n : Nat) : Bool := 0xDC00 ≤ n && n < 0xE000

/-- The character whose two halves are a high surrogate and an escape of a low one; the escape
takes six symbols. -/
def readLowSurrogate (high : Nat) (s : List Symbol) : Except Fault Char :=
  match s with
  | [] => .error (.behind .endInString [])
  | x :: rest =>
    if x.is '\\' then
      match rest with
      | [] => .error (.behind .endInString [])
      | y :: rest' =>
        if y.is 'u' then
          match readHex4 rest' with
          | .error f => .error f
          | .ok (low, rest'') =>
            if isLowSurrogate low then
              .ok (Char.ofNat (0x10000 + (high - 0xD800) * 0x400 + (low - 0xDC00)))
            else .error (.behind .loneSurrogate rest'')
        else .error (.atNext .unexpectedEndOfEscape rest)
    else .error (.atNext .unexpectedEndOfEscape s)

/-- The character of an escape, and the number of symbols that the escape takes behind its
backslash. -/
def readEscape (s : List Symbol) : Except Fault (Char × Nat) :=
  match s with
  | [] => .error (.behind .endInString [])
  | .stray _ :: _ => .error (.atNext .invalidEscape s)
  | .char e :: rest =>
    match shortEscape? e with
    | some c => .ok (c, 1)
    | none =>
      if e = 'u' then
        match readHex4 rest with
        | .error f => .error f
        | .ok (n, rest') =>
          if isLowSurrogate n then .error (.behind .loneSurrogate rest')
          else if isHighSurrogate n then (readLowSurrogate n rest').map (·, 11)
          else .ok (Char.ofNat n, 5)
      else .error (.atNext .invalidEscape s)

/-- The rest of a string token whose characters begin at `start`. The characters read so far stand
in reverse in `acc`, and the next `skip` symbols belong to an escape that is read. Stray bytes are
noticed at the closing quote: `spoilt` is the number of bytes that the characters take from the
first stray byte on. The place of the fault is found from there: so many bytes before the quote,
where an escape counts as much as the character that it writes. -/
def readStringOnto (start : List Symbol) (acc : List Char) (spoilt : Nat) :
    Nat → List Symbol → Reading (List Char)
  | _, [] => .error (.behind .endInString [])
  | skip + 1, _ :: rest => readStringOnto start acc spoilt skip rest
  | 0, .stray _ :: rest => readStringOnto start acc (spoilt + 1) 0 rest
  | 0, .char c :: rest =>
    let spoiltBy (d : Char) : Nat := if spoilt = 0 then 0 else spoilt + d.utf8Size
    if c = '"' then
      if spoilt = 0 then .ok (acc.reverse, rest)
      else
        let size := Symbol.bytes start - Symbol.bytes (.char c :: rest)
        .error ⟨.invalidCodePoint, some ⟨start, size - spoilt + 1⟩, none⟩
    else if c = '\\' then
      match readEscape rest with
      | .error f => .error f
      | .ok (d, size) => readStringOnto start (d :: acc) (spoiltBy d) size rest
    else if c.toNat < 0x20 then .error (.behind .controlCharacter rest)
    else readStringOnto start (c :: acc) (spoiltBy c) 0 rest

def readString (s : List Symbol) : Reading (List Char) := readStringOnto s [] 0 0 s

def readText (s : List Symbol) : Reading String :=
  match readString s with
  | .ok (t, rest) => .ok (String.ofList t, rest)
  | .error f => .error f

/-- What is left behind a string token of which only the shape counts; the next `skip` symbols
belong to an escape. -/
def skipStringFrom : Nat → List Symbol → Reading Unit
  | _, [] => .error (.behind .endInString [])
  | skip + 1, _ :: rest => skipStringFrom skip rest
  | 0, .stray _ :: rest => skipStringFrom 0 rest
  | 0, .char c :: rest =>
    if c = '"' then .ok ((), rest)
    else if c = '\\' then
      match rest with
      | [] => .error (.behind .endInString [])
      | .stray _ :: _ => .error (.atNext .invalidEscape rest)
      | .char e :: rest' =>
        if (shortEscape? e).isSome then skipStringFrom 1 rest
        else if e = 'u' then
          match readHex4 rest' with
          | .error f => .error f
          | .ok _ => skipStringFrom 5 rest
        else .error (.atNext .invalidEscape rest)
    else if c.toNat < 0x20 then .error (.behind .controlCharacter (.char c :: rest))
    else skipStringFrom 0 rest

/-- What is left behind a string token of which only the shape counts. -/
def skipString (s : List Symbol) : Reading Unit := skipStringFrom 0 s

/-! ### Writing -/

/-- How a character is written inside a string token: quotes, backslashes and control characters are
escaped, everything else stands for itself. -/
def escapeChar (c : Char) : List Char :=
  if c = '"' then ['\\', '"']
  else if c = '\\' then ['\\', '\\']
  else if c = '\x08' then ['\\', 'b']
  else if c = '\t' then ['\\', 't']
  else if c = '\n' then ['\\', 'n']
  else if c = '\x0c' then ['\\', 'f']
  else if c = '\r' then ['\\', 'r']
  else if c.toNat < 0x20 then
    ['\\', 'u', '0', '0', Hex.digit (c.toNat / 16), Hex.digit (c.toNat % 16)]
  else [c]

def quoteChars (s : List Char) : List Char := '"' :: (s.flatMap escapeChar ++ ['"'])

end ChatRooms.Json

import ChatRooms.Json.Number

/-!
The grammar of JSON, on characters. A phrase is the list of the characters that write it; a string
token also has a value. The space that may stand between tokens belongs to the entries of brackets.
-/

namespace ChatRooms.Json

open ChatRooms.Text

def Bracket.opening : Bracket → Char
  | .list => '['
  | .object => '\x7b'

namespace Grammar

/-! ### Space -/

/-- Space between tokens, perhaps none. -/
def Space (t : List Char) : Prop := ∀ c ∈ t, isSpace c = true

theorem Space.append {t u : List Char} (ht : Space t) (hu : Space u) : Space (t ++ u) :=
  List.forall_mem_append.mpr ⟨ht, hu⟩

/-! ### String tokens -/

/-- Four hexadecimal digits and their number. -/
inductive Code : List Char → Nat → Prop
  | digits {a b c d : Char} {n : Nat} (h : hex4? (.char a) (.char b) (.char c) (.char d) = some n) :
    Code [a, b, c, d] n

/-- One character of a string token, as it is written and as it is meant. -/
inductive Letter : List Char → Char → Prop
  | plain {c : Char} (hquote : c ≠ '"') (hescape : c ≠ '\\') (hcontrol : 0x20 ≤ c.toNat) :
    Letter [c] c
  | short {e c : Char} (h : shortEscape? e = some c) : Letter ['\\', e] c
  | code {t : List Char} {n : Nat} (h : Code t n) (hhigh : isHighSurrogate n = false)
      (hlow : isLowSurrogate n = false) : Letter ('\\' :: 'u' :: t) (Char.ofNat n)
  | pair {t u : List Char} {high low : Nat} {c : Char} (ht : Code t high) (hu : Code u low)
      (hhigh : isHighSurrogate high = true) (hlow : isLowSurrogate low = true)
      (hc : c = Char.ofNat (0x10000 + (high - 0xD800) * 0x400 + (low - 0xDC00))) :
    Letter ('\\' :: 'u' :: (t ++ '\\' :: 'u' :: u)) c

/-- The characters of a string token between its quotes, and what they stand for. -/
inductive Letters : List Char → List Char → Prop
  | nil : Letters [] []
  | cons {t u s : List Char} {c : Char} (h : Letter t c) (hs : Letters u s) :
    Letters (t ++ u) (c :: s)

/-- A string token and its value. -/
inductive Text : List Char → String → Prop
  | quoted {u s : List Char} (h : Letters u s) : Text ('"' :: (u ++ ['"'])) (String.ofList s)

/-- One character or escape of a string token of which only the shape counts: escapes of surrogates
need no partner. -/
inductive Shape : List Char → Prop
  | plain {c : Char} (hquote : c ≠ '"') (hescape : c ≠ '\\') (hcontrol : 0x20 ≤ c.toNat) :
    Shape [c]
  | short {e : Char} (h : (shortEscape? e).isSome) : Shape ['\\', e]
  | code {t : List Char} {n : Nat} (h : Code t n) : Shape ('\\' :: 'u' :: t)

inductive Shapes : List Char → Prop
  | nil : Shapes []
  | cons {t u : List Char} (h : Shape t) (hs : Shapes u) : Shapes (t ++ u)

/-- A string token of which only the shape counts. -/
inductive Token : List Char → Prop
  | quoted {u : List Char} (h : Shapes u) : Token ('"' :: (u ++ ['"']))

/-! ### Numbers -/

/-- Digits, perhaps none. -/
def Digits (t : List Char) : Prop := ∀ c ∈ t, c.isDigit = true

theorem Digits.cons {c : Char} {t : List Char} (hc : c.isDigit = true) (h : Digits t) :
    Digits (c :: t) :=
  List.forall_mem_cons.mpr ⟨hc, h⟩

theorem Digits.tail {c : Char} {t : List Char} (h : Digits (c :: t)) : Digits t :=
  (List.forall_mem_cons.mp h).2

/-- The digits of an integer: a zero stands alone. -/
inductive Whole : List Char → Prop
  | zero : Whole ['0']
  | digits {c : Char} {t : List Char} (hc : c.isDigit = true) (hzero : c ≠ '0') (h : Digits t) :
    Whole (c :: t)

inductive Fraction : List Char → Prop
  | none : Fraction []
  | digits {t : List Char} (hne : t ≠ []) (h : Digits t) : Fraction ('.' :: t)

inductive Sign : List Char → Prop
  | none : Sign []
  | plus : Sign ['+']
  | minus : Sign ['-']

inductive Exponent : List Char → Prop
  | none : Exponent []
  | digits {e : Char} {sign t : List Char} (he : e = 'e' ∨ e = 'E') (hsign : Sign sign)
      (hne : t ≠ []) (h : Digits t) : Exponent (e :: (sign ++ t))

/-- A number without its sign. -/
inductive Unsigned : List Char → Prop
  | parts {whole fraction exponent : List Char} (hw : Whole whole) (hf : Fraction fraction)
      (he : Exponent exponent) : Unsigned (whole ++ (fraction ++ exponent))

inductive Number : List Char → Prop
  | unsigned {t : List Char} (h : Unsigned t) : Number t
  | negative {t : List Char} (h : Unsigned t) : Number ('-' :: t)

/-- The text does not go on with a digit. -/
def EndsDigits (t : List Char) : Prop := ∀ c ∈ t.head?, c.isDigit = false

/-- The text does not go on with a number that ends before it. -/
def EndsNumber (t : List Char) : Prop :=
  ∀ c ∈ t.head?, c.isDigit = false ∧ c ≠ '.' ∧ c ≠ 'e' ∧ c ≠ 'E'

theorem EndsNumber.endsDigits {t : List Char} (h : EndsNumber t) : EndsDigits t :=
  fun c hc => (h c hc).1

/-! ### Values -/

/-- What a value is made of. -/
inductive Phrase where
  | value
  /-- an element of a list, or a member of an object -/
  | entry (b : Bracket)
  /-- one entry or more, with commas between them -/
  | entries (b : Bracket)

inductive Derives : Phrase → List Char → Prop
  | null : Derives .value ['n', 'u', 'l', 'l']
  | true : Derives .value ['t', 'r', 'u', 'e']
  | false : Derives .value ['f', 'a', 'l', 's', 'e']
  | number {t : List Char} (h : Number t) : Derives .value t
  | string {t : List Char} (h : Token t) : Derives .value t
  | empty (b : Bracket) {w : List Char} (hw : Space w) :
    Derives .value (b.opening :: (w ++ [b.closing]))
  | bracket {b : Bracket} {t : List Char} (h : Derives (.entries b) t) :
    Derives .value (b.opening :: (t ++ [b.closing]))
  | element {t : List Char} (h : Derives .value t) : Derives (.entry .list) t
  | member {k w x v : List Char} (hk : Token k) (hw : Space w) (hx : Space x)
      (hv : Derives .value v) : Derives (.entry .object) (k ++ (w ++ ':' :: (x ++ v)))
  | last {b : Bracket} {w t z : List Char} (hw : Space w) (ht : Derives (.entry b) t)
      (hz : Space z) : Derives (.entries b) (w ++ (t ++ z))
  | more {b : Bracket} {w t z u : List Char} (hw : Space w) (ht : Derives (.entry b) t)
      (hz : Space z) (hu : Derives (.entries b) u) :
    Derives (.entries b) (w ++ (t ++ (z ++ ',' :: u)))

/-- A value, nested to any depth. -/
abbrev Value : List Char → Prop := Derives .value

/-! ### Objects and lists with their entries -/

/-- Entries of a kind, one or more, with commas between them. -/
inductive Separated {α : Type} (P : α → List Char → Prop) : List α → List Char → Prop
  | last {a : α} {t : List Char} (h : P a t) : Separated P [a] t
  | more {a : α} {as : List α} {t u : List Char} (h : P a t) (hs : Separated P as u) :
    Separated P (a :: as) (t ++ ',' :: u)

/-- A member of an object: its key as it is meant, and its value as it is written. -/
inductive Member : String × List Char → List Char → Prop
  | entry {w k x y v z : List Char} {key : String} (hw : Space w) (hk : Text k key) (hx : Space x)
      (hy : Space y) (hv : Value v) (hz : Space z) :
    Member (key, v) (w ++ (k ++ (x ++ ':' :: (y ++ (v ++ z)))))

/-- An element of a list. -/
inductive Element : List Char → List Char → Prop
  | entry {w v z : List Char} (hw : Space w) (hv : Value v) (hz : Space z) :
    Element v (w ++ (v ++ z))

/-- An object with its members in their order. -/
inductive Object : List (String × List Char) → List Char → Prop
  | empty {w : List Char} (hw : Space w) : Object [] ('\x7b' :: (w ++ ['\x7d']))
  | members {ms : List (String × List Char)} {t : List Char} (h : Separated Member ms t) :
    Object ms ('\x7b' :: (t ++ ['\x7d']))

/-- A list with its elements in their order. -/
inductive Sequence : List (List Char) → List Char → Prop
  | empty {w : List Char} (hw : Space w) : Sequence [] ('[' :: (w ++ [']']))
  | elements {vs : List (List Char)} {t : List Char} (h : Separated Element vs t) :
    Sequence vs ('[' :: (t ++ [']']))

end Grammar

end ChatRooms.Json

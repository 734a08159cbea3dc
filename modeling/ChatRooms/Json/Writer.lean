import ChatRooms.Json.StringToken

/-!
Writing JSON without space between the tokens: members in the given order, strings with the escapes
of `escapeChar`.
-/

namespace ChatRooms.Json

/-- The characters of a value that is written. -/
abbrev Written := List Char

def writeText (s : String) : Written := quoteChars s.toList

def writeNat (n : Nat) : Written := Nat.toDigits 10 n

def writeNull : Written := ['n', 'u', 'l', 'l']

/-- A value, or `null` for none. -/
def writeOptional {α : Type} (write : α → Written) : Option α → Written
  | none => writeNull
  | some v => write v

def commaSeparated : List Written → Written
  | [] => []
  | [v] => v
  | v :: w :: rest => v ++ ',' :: commaSeparated (w :: rest)

def writeList (values : List Written) : Written := '[' :: (commaSeparated values ++ [']'])

/-- A member of an object. -/
def writeMember (m : String × Written) : Written := writeText m.1 ++ ':' :: m.2

/-- An object with its members in the given order. -/
def writeObject (members : List (String × Written)) : Written :=
  '\x7b' :: (commaSeparated (members.map writeMember) ++ ['\x7d'])

end ChatRooms.Json

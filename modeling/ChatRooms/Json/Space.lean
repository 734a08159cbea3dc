import ChatRooms.Json.Fault

/-!
The space between the tokens of a JSON text, and the fixed words.
-/

namespace ChatRooms.Json

open ChatRooms.Text

/-- Space between tokens is made of blank, tab, line feed and carriage return only. -/
def isSpace (c : Char) : Bool := c == ' ' || c == '\n' || c == '\t' || c == '\r'

/-- The symbol is space between tokens. -/
def isSpaceSymbol : Symbol → Bool
  | .char c => isSpace c
  | .stray _ => false

/-- The text without the space at its beginning. -/
def skipSpace (s : List Symbol) : List Symbol := s.dropWhile isSpaceSymbol

/-- The symbol is a decimal digit. -/
def isDigit : Symbol → Bool
  | .char c => '0' ≤ c && c ≤ '9'
  | .stray _ => false

/-- The rest of a fixed word, of which the first letter is taken. -/
def readWord : List Char → List Symbol → Reading Unit
  | [], s => .ok ((), s)
  | _ :: _, [] => .error (.behind .endInValue [])
  | c :: word, x :: s =>
    if x.is c then readWord word s else .error (.atNext .expectedIdent (x :: s))

end ChatRooms.Json

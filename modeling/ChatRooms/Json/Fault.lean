import ChatRooms.Text.Utf8
import ChatRooms.Text.Quoted

/-!
What can be wrong with a JSON text, and where. A fault has a cause and, once it is known, a mark:
the part of the text that was left when it was found. Its message ends in the line and the column of
that place, both counted from the beginning of the text, columns in bytes.
-/

namespace ChatRooms.Json

open ChatRooms.Text

/-- A value of the wrong kind, as a message names it. -/
inductive Found where
  | null
  | bool (b : Bool)
  | integer (n : Int)
  | real (text : String)
  | string (s : String)
  | sequence
  | map
deriving DecidableEq, Repr

def Found.name : Found → String
  | .null => "null"
  | .bool b => s!"boolean `{b}`"
  | .integer n => s!"integer `{n}`"
  | .real text => s!"floating point `{text}`"
  | .string s => "string " ++ Quoted.quote s
  | .sequence => "sequence"
  | .map => "map"

/-- Why a text could not be read. -/
inductive Cause where
  | endInValue
  | endInString
  | endInObject
  | endInList
  | expectedColon
  | expectedListCommaOrEnd
  | expectedObjectCommaOrEnd
  | expectedIdent
  | expectedValue
  | invalidEscape
  | invalidNumber
  | numberOutOfRange
  | invalidCodePoint
  | controlCharacter
  | keyNotString
  | loneSurrogate
  | unexpectedEndOfEscape
  | trailingComma
  | trailingCharacters
  | recursionLimit
  | invalidType (found : Found) (expected : String)
  | invalidValue (found : Found) (expected : String)
  | invalidLength (length : Nat) (expected : String)
  | duplicateField (name : String)
  | missingField (name : String)
  | unknownVariant (name : String) (expected : String)
  | refused (reason : String)
deriving DecidableEq, Repr

def Cause.message : Cause → String
  | .endInValue => "EOF while parsing a value"
  | .endInString => "EOF while parsing a string"
  | .endInObject => "EOF while parsing an object"
  | .endInList => "EOF while parsing a list"
  | .expectedColon => "expected `:`"
  | .expectedListCommaOrEnd => "expected `,` or `]`"
  | .expectedObjectCommaOrEnd => "expected `,` or `\x7d`"
  | .expectedIdent => "expected ident"
  | .expectedValue => "expected value"
  | .invalidEscape => "invalid escape"
  | .invalidNumber => "invalid number"
  | .numberOutOfRange => "number out of range"
  | .invalidCodePoint => "invalid unicode code point"
  | .controlCharacter => "control character (\\u0000-\\u001F) found while parsing a string"
  | .keyNotString => "key must be a string"
  | .loneSurrogate => "lone leading surrogate in hex escape"
  | .unexpectedEndOfEscape => "unexpected end of hex escape"
  | .trailingComma => "trailing comma"
  | .trailingCharacters => "trailing characters"
  | .recursionLimit => "recursion limit exceeded"
  | .invalidType found expected => s!"invalid type: {found.name}, expected {expected}"
  | .invalidValue found expected => s!"invalid value: {found.name}, expected {expected}"
  | .invalidLength length expected => s!"invalid length {length}, expected {expected}"
  | .duplicateField name => s!"duplicate field `{name}`"
  | .missingField name => s!"missing field `{name}`"
  | .unknownVariant name expected => s!"unknown variant `{name}`, expected {expected}"
  | .refused reason => reason

/-- The text is JSON, or could be the beginning of one, but does not hold the wanted data. -/
def Cause.isAboutData : Cause → Bool
  | .invalidType .. | .invalidValue .. | .invalidLength .. | .duplicateField .. | .missingField ..
  | .unknownVariant .. | .refused .. => true
  | _ => false

/-- A place in a text: what was left of it, and so many bytes further on, but not beyond its end. -/
structure Mark where
  rest : List Symbol
  ahead : Nat
deriving DecidableEq, Repr

/-- A step into the value where a fault was found. -/
inductive Step where
  | member (key : String)
  | element (index : Nat)
deriving DecidableEq, Repr

/-- What is wrong with a text, where, and in which member or element of the wanted record. A fault
of the record as a whole has no mark until its reading ends. -/
structure Fault where
  cause : Cause
  mark : Option Mark
  step : Option Step
deriving DecidableEq, Repr

namespace Fault

/-- A fault behind what has been taken. -/
def behind (cause : Cause) (rest : List Symbol) : Fault := ⟨cause, some ⟨rest, 0⟩, none⟩

/-- A fault at the next byte, which has been looked at and is counted. -/
def atNext (cause : Cause) (rest : List Symbol) : Fault := ⟨cause, some ⟨rest, 1⟩, none⟩

/-- A fault whose place is not known yet. -/
def unplaced (cause : Cause) : Fault := ⟨cause, none, none⟩

/-- Gives a fault without a place the place behind what has been taken. -/
def place (rest : List Symbol) (f : Fault) : Fault :=
  { f with mark := f.mark <|> some ⟨rest, 0⟩ }

/-- Notes the member or element in which a fault arose, unless it is noted already. -/
def within (step : Step) (f : Fault) : Fault := { f with step := f.step <|> some step }

end Fault

/-- A line and a column. Lines count from one; the column is the number of bytes since the last
line feed. -/
structure Position where
  line : Nat
  column : Nat
deriving DecidableEq, Repr

namespace Position

/-- Walks on by `n` bytes. -/
def walk (p : Position) : Nat → List Symbol → Position
  | _, [] => p
  | n, x :: rest =>
    if n = 0 then p
    else if n < x.width then ⟨p.line, p.column + n⟩
    else
      let next : Position := if x.is '\n' then ⟨p.line + 1, 0⟩ else ⟨p.line, p.column + x.width⟩
      next.walk (n - x.width) rest

/-- The position of a mark in the text that it belongs to. -/
def ofMark (text : List Symbol) (m : Mark) : Position :=
  (⟨1, 0⟩ : Position).walk (Symbol.bytes text - Symbol.bytes m.rest + m.ahead) text

end Position

namespace Fault

def message (text : List Symbol) (f : Fault) : String :=
  match f.mark with
  | none => f.cause.message
  | some m =>
    let p := Position.ofMark text m
    s!"{f.cause.message} at line {p.line} column {p.column}"

end Fault

/-- The outcome of reading the beginning of a text: what was read, and what is left. -/
abbrev Reading (α : Type) := Except Fault (α × List Symbol)

end ChatRooms.Json

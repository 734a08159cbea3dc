import ChatRooms.Json.Number
import ChatRooms.Time.Reader

/-!
Reading records. A record is described by the names and kinds of its fields; its value is a row of
the kinds' values. A record is written as an object, in which fields may come in any order and
unknown members are skipped, or as a list of the fields in their order.
-/

namespace ChatRooms.Json

open ChatRooms.Text ChatRooms.Time

/-- What a field of a record holds. -/
inductive Kind where
  | text
  | optionalText
  | instant
  | optionalInstant
  | count
deriving DecidableEq, Repr

abbrev Kind.Carrier : Kind → Type
  | .text => String
  | .optionalText => Option String
  | .instant => Instant
  | .optionalInstant => Option Instant
  | .count => Nat

/-- The value of a field that is left out of an object. -/
def Kind.absent? : (k : Kind) → Option k.Carrier
  | .text => none
  | .optionalText => some none
  | .instant => none
  | .optionalInstant => some none
  | .count => none

structure Field where
  name : String
  kind : Kind
deriving DecidableEq, Repr

/-- A record: its name and its fields in their order. -/
structure Schema where
  name : String
  fields : List Field
deriving DecidableEq, Repr

/-- A value for each field. -/
abbrev Row : List Field → Type
  | [] => Unit
  | f :: fs => f.kind.Carrier × Row fs

/-- A value for some of the fields. -/
abbrev Slots : List Field → Type
  | [] => Unit
  | f :: fs => Option f.kind.Carrier × Slots fs

namespace Slots

def empty : (fs : List Field) → Slots fs
  | [] => ()
  | _ :: fs => (none, empty fs)

/-- The row, if each field has a value or may be left out; otherwise the first missing name. -/
def row? : (fs : List Field) → Slots fs → Except String (Row fs)
  | [], () => .ok ()
  | f :: fs, (slot, slots) =>
    match slot <|> f.kind.absent? with
    | none => .error f.name
    | some v =>
      match row? fs slots with
      | .error name => .error name
      | .ok row => .ok (v, row)

end Slots

/-! ### Single values -/

/-- The fault of a value of the wrong kind that begins with `x`. -/
def wrongKind (expected : String) (x : Symbol) (rest : List Symbol) : Fault :=
  let s := x :: rest
  let word (letters : List Char) (found : Found) : Fault :=
    match readWord letters rest with
    | .error f => f
    | .ok ((), rest') => .behind (.invalidType found expected) rest'
  if x.is 'n' then word ['u', 'l', 'l'] .null
  else if x.is 't' then word ['r', 'u', 'e'] (.bool true)
  else if x.is 'f' then word ['a', 'l', 's', 'e'] (.bool false)
  else if x.is '-' || isDigit x then
    match readNumber x rest with
    | .error f => f
    | .ok (n, rest') => .behind (.invalidType n.found expected) rest'
  else if x.is '"' then
    match readText rest with
    | .error f => f
    | .ok (t, rest') => .behind (.invalidType (.string t) expected) rest'
  else if x.is '[' then .behind (.invalidType .sequence expected) s
  else if x.is '\x7b' then .behind (.invalidType .map expected) s
  else .atNext .expectedValue s

def readTextValue (expected : String) (s : List Symbol) : Reading String :=
  let s := skipSpace s
  match s with
  | [] => .error (.atNext .endInValue [])
  | x :: rest => if x.is '"' then readText rest else .error (wrongKind expected x rest)

def readInstantValue (s : List Symbol) : Reading Instant :=
  match readTextValue "an RFC 3339 formatted date and time string" s with
  | .error f => .error f
  | .ok (t, rest) =>
    match Instant.read t.toList with
    | .error e => .error (.behind (.refused e.message) rest)
    | .ok i => .ok (i, rest)

/-- A natural number of 64 bits. -/
def readCountValue (s : List Symbol) : Reading Nat :=
  let s := skipSpace s
  match s with
  | [] => .error (.atNext .endInValue [])
  | x :: rest =>
    if x.is '-' || isDigit x then
      match readNumber x rest with
      | .error f => .error f
      | .ok (.natural n, rest') => .ok (n, rest')
      | .ok (.negative n, rest') => .error (.behind (.invalidValue (.integer n) "usize") rest')
      | .ok (.real r, rest') =>
        .error (.behind (.invalidType (Numeral.real r).found "usize") rest')
    else .error (wrongKind "usize" x rest)

/-- A value, or `null` for none. -/
def readOptional {α : Type} (read : List Symbol → Reading α) (s : List Symbol) :
    Reading (Option α) :=
  match skipSpace s with
  | x :: rest =>
    if x.is 'n' then
      match readWord ['u', 'l', 'l'] rest with
      | .error f => .error f
      | .ok ((), rest') => .ok (none, rest')
    else
      match read (x :: rest) with
      | .error f => .error f
      | .ok (v, rest') => .ok (some v, rest')
  | [] =>
    match read [] with
    | .error f => .error f
    | .ok (v, rest') => .ok (some v, rest')

def readKind : (k : Kind) → List Symbol → Reading k.Carrier
  | .text, s => readTextValue "a string" s
  | .optionalText, s => readOptional (readTextValue "a string") s
  | .instant, s => readInstantValue s
  | .optionalInstant, s => readOptional readInstantValue s
  | .count, s => readCountValue s

/-! ### Objects -/

def readColon (s : List Symbol) : Reading Unit :=
  let s := skipSpace s
  match s with
  | [] => .error (.atNext .endInObject [])
  | x :: rest => if x.is ':' then .ok ((), rest) else .error (.atNext .expectedColon s)

/-- The value of the member `key`: it fills the slot of its field, which must be empty, or is
skipped if no field has this name. A fault behind the colon is noted as one of the member. A fault
comes with what was left when it arose. -/
def readMember (key : String) (s : List Symbol) :
    (fs : List Field) → Slots fs → Except (Fault × List Symbol) (Slots fs × List Symbol)
  | [], () =>
    match readColon s with
    | .error f => .error (f, s)
    | .ok ((), rest) =>
      match skipValue rest with
      | .error f => .error (f.within (.member key), rest)
      | .ok ((), rest') => .ok ((), rest')
  | f :: fs, (slot, slots) =>
    if key = f.name then
      match slot with
      | some _ => .error (.unplaced (.duplicateField f.name), s)
      | none =>
        match readColon s with
        | .error e => .error (e, s)
        | .ok ((), rest) =>
          match readKind f.kind rest with
          | .error e => .error (e.within (.member key), rest)
          | .ok (v, rest') => .ok ((some v, slots), rest')
    else
      match readMember key s fs slots with
      | .error e => .error e
      | .ok (slots', rest) => .ok ((slot, slots'), rest)

/-- What stands where a member may begin. -/
inductive MemberStart where
  /-- the end of the object, not yet taken -/
  | stop (rest : List Symbol)
  /-- a key, of which the quote is taken -/
  | key (rest : List Symbol)

/-- Looks for a key or the end of an object. -/
def memberStart (first : Bool) (s : List Symbol) : Except Fault MemberStart :=
  let s := skipSpace s
  match s with
  | [] => .error (.atNext .endInObject [])
  | x :: rest =>
    if x.is '\x7d' then .ok (.stop s)
    else if first then
      if x.is '"' then .ok (.key rest) else .error (.atNext .keyNotString s)
    else if x.is ',' then
      let s' := skipSpace rest
      match s' with
      | [] => .error (.atNext .endInValue [])
      | y :: rest' =>
        if y.is '"' then .ok (.key rest')
        else if y.is '\x7d' then .error (.atNext .trailingComma s')
        else .error (.atNext .keyNotString s')
    else .error (.atNext .expectedObjectCommaOrEnd s)

/-- The members of an object. Each takes a symbol at least, so the length of the text is enough
steps. The result stands before the closing brace. -/
def readMembers (fs : List Field) : (steps : Nat) → (first : Bool) → Slots fs → List Symbol →
    Except (Fault × List Symbol) (Slots fs × List Symbol)
  | 0, _, _, s => .error (.atNext .endInObject [], s)
  | steps + 1, first, slots, s =>
    match memberStart first s with
    | .error f => .error (f, s)
    | .ok (.stop rest) => .ok (slots, rest)
    | .ok (.key rest) =>
      match readText rest with
      | .error f => .error (f, rest)
      | .ok (key, rest') =>
        match readMember key rest' fs slots with
        | .error e => .error e
        | .ok (slots', rest'') => readMembers fs steps false slots' rest''

/-- The end of an object, and what is left behind it. If there is none, the place of the fault that
follows is behind the space. -/
def endObject (s : List Symbol) : Except Fault Unit × List Symbol :=
  let s := skipSpace s
  match s with
  | [] => (.error (.atNext .endInObject []), [])
  | x :: rest =>
    if x.is '\x7d' then (.ok (), rest)
    else if x.is ',' then (.error (.atNext .trailingComma s), s)
    else (.error (.atNext .trailingCharacters s), s)

/-- An object, behind its opening brace, as a row. -/
def readObject (fs : List Field) (s : List Symbol) : Reading (Row fs) :=
  let body : Except (Fault × List Symbol) (Row fs × List Symbol) :=
    match readMembers fs (s.length + 1) true (Slots.empty fs) s with
    | .error e => .error e
    | .ok (slots, rest) =>
      match slots.row? with
      | .error name => .error (.unplaced (.missingField name), rest)
      | .ok row => .ok (row, rest)
  match body with
  | .error (f, rest) => .error (f.place (endObject rest).2)
  | .ok (row, rest) =>
    match endObject rest with
    | (.ok (), rest') => .ok (row, rest')
    | (.error f, _) => .error f

/-! ### Lists -/

/-- Looks for an element or the end of a list. The text of an element begins without space. -/
def elementStart (first : Bool) (s : List Symbol) : Except Fault (Option (List Symbol)) :=
  let s := skipSpace s
  match s with
  | [] => .error (.atNext .endInList [])
  | x :: rest =>
    if x.is ']' then .ok none
    else if first then .ok (some s)
    else if x.is ',' then
      let s' := skipSpace rest
      match s' with
      | [] => .error (.atNext .endInValue [])
      | y :: _ => if y.is ']' then .error (.atNext .trailingComma s') else .ok (some s')
    else .error (.atNext .expectedListCommaOrEnd s)

/-- The number of elements of a record's list, in words. -/
def Schema.expectation (c : Schema) : String :=
  let n := c.fields.length
  s!"struct {c.name} with {n} element" ++ (if n = 1 then "" else "s")

/-- The elements of a list, of which `index` are read already. -/
def readElements (c : Schema) : (index : Nat) → (fs : List Field) → List Symbol →
    Except (Fault × List Symbol) (Row fs × List Symbol)
  | _, [], s => .ok ((), s)
  | index, f :: fs, s =>
    match elementStart (index = 0) s with
    | .error e => .error (e, s)
    | .ok none => .error (.unplaced (.invalidLength index c.expectation), skipSpace s)
    | .ok (some s') =>
      match readKind f.kind s' with
      | .error e => .error (e.within (.element index), s')
      | .ok (v, rest) =>
        match readElements c (index + 1) fs rest with
        | .error e => .error e
        | .ok (row, rest') => .ok ((v, row), rest')

/-- The end of a list, and what is left behind it. -/
def endList (s : List Symbol) : Except Fault Unit × List Symbol :=
  let s := skipSpace s
  match s with
  | [] => (.error (.atNext .endInList []), [])
  | x :: rest =>
    if x.is ']' then (.ok (), rest)
    else if x.is ',' then
      let s' := skipSpace rest
      match s' with
      | y :: _ =>
        (.error (.atNext (if y.is ']' then .trailingComma else .trailingCharacters) s'), s')
      | [] => (.error (.atNext .trailingCharacters []), [])
    else (.error (.atNext .trailingCharacters s), s)

/-- A list, behind its opening bracket, as a row. -/
def readList (c : Schema) (s : List Symbol) : Reading (Row c.fields) :=
  match readElements c 0 c.fields s with
  | .error (f, rest) => .error (f.place (endList rest).2)
  | .ok (row, rest) =>
    match endList rest with
    | (.ok (), rest') => .ok (row, rest')
    | (.error f, _) => .error f

/-! ### Whole texts -/

def readRecord (c : Schema) (s : List Symbol) : Reading (Row c.fields) :=
  let s := skipSpace s
  match s with
  | [] => .error (.atNext .endInValue [])
  | x :: rest =>
    if x.is '\x7b' then readObject c.fields rest
    else if x.is '[' then readList c rest
    else .error (wrongKind s!"struct {c.name}" x rest)

/-- A whole text that is read by `read`, with nothing but space behind it. -/
def readWhole {α : Type} (read : List Symbol → Reading α) (s : List Symbol) : Except Fault α :=
  match read s with
  | .error f => .error f
  | .ok (v, rest) =>
    let rest := skipSpace rest
    if rest.isEmpty then .ok v else .error (.atNext .trailingCharacters rest)

/-- The row of a record that a text writes. -/
def Schema.decode (c : Schema) (s : List Symbol) : Except Fault (Row c.fields) :=
  readWhole (readRecord c) s

/-- The row of a record that a text writes, or the message that tells what is wrong. -/
def Schema.decodeText (c : Schema) (s : String) : Except String (Row c.fields) :=
  let symbols := Symbol.ofChars s.toList
  match c.decode symbols with
  | .ok row => .ok row
  | .error f => .error (f.message symbols)

end ChatRooms.Json

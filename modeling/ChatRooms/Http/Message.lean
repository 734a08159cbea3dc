import ChatRooms.Http.Target
import ChatRooms.Error

/-!
Requests and responses. Names of headers are kept in lower case.
-/

namespace ChatRooms.Http

open ChatRooms.Text

/-- A header: its name in lower case, and the bytes of its value. -/
structure Header where
  name : String
  value : List UInt8
deriving DecidableEq, Repr

/-- The byte of an ASCII letter in lower case. -/
def lowerByte (b : UInt8) : UInt8 := if 0x41 ≤ b && b ≤ 0x5A then b + 0x20 else b

/-- The first value of a header. -/
def firstValue? (headers : List Header) (name : String) : Option (List UInt8) :=
  (headers.find? (·.name = name)).map Header.value

structure Request where
  method : String
  target : Target
  headers : List Header
  body : List UInt8
deriving DecidableEq, Repr

def isTokenChar (c : Char) : Bool :=
  c.isAlphanum || "!#$%&'*+-.^_`|~".toList.contains c

def isToken (s : String) : Bool := !s.isEmpty && s.toList.all isTokenChar

/-- The byte may stand in the value of a header. -/
def isValueByte (b : UInt8) : Bool := (0x20 ≤ b && b != 0x7F) || b == 0x09

/-- The header that a name and a value write. -/
def Header.ofTexts? (name value : String) : Option Header :=
  let bytes := Utf8.encode value.toList
  if isToken name && bytes.all isValueByte then some ⟨name.toLower, bytes⟩ else none

/-- The request that its parts write. -/
def Request.ofParts? (method target : String) (headers : List (String × String))
    (body : List UInt8) : Option Request := do
  let target ← Target.ofString? target
  let headers ← headers.mapM fun (name, value) => Header.ofTexts? name value
  if isToken method then some ⟨method, target, headers, body⟩ else none

structure Response where
  status : Nat
  headers : List (String × String)
  body : String
deriving DecidableEq, Repr

namespace Response

def plainText : String := "text/plain; charset=utf-8"

def jsonType : String := "application/json"

def empty (status : Nat) : Response := ⟨status, [], ""⟩

def text (status : Nat) (body : String) : Response := ⟨status, [("content-type", plainText)], body⟩

def json (status : Nat) (body : String) : Response := ⟨status, [("content-type", jsonType)], body⟩

def ofError (e : ChatError) : Response := json e.status e.body

def values (r : Response) (name : String) : List String :=
  (r.headers.filter (·.1 = name)).map Prod.snd

/-- Adds a header unless there is one of that name. -/
def withDefault (r : Response) (name value : String) : Response :=
  if (r.values name).isEmpty then { r with headers := r.headers ++ [(name, value)] } else r

end Response

end ChatRooms.Http

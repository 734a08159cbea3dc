import ChatRooms.Json.Record

/-!
Any JSON value, of which only the form is wanted. Strings and numbers are checked as if they were
kept, and containers may nest to a limited depth.
-/

namespace ChatRooms.Json

open ChatRooms.Text

/-- The number of containers that may be open at once, and one more. -/
def depthLimit : Nat := 128

/-- The elements of a list, up to its end, which is taken. -/
def checkElements (read : List Symbol → Reading Unit) :
    (steps : Nat) → (first : Bool) → List Symbol → Reading Unit
  | 0, _, s => .error (.atNext .endInList s)
  | steps + 1, first, s =>
    match elementStart first s with
    | .error f => .error f
    | .ok none =>
      match endList s with
      | (.ok (), rest) => .ok ((), rest)
      | (.error f, _) => .error f
    | .ok (some s') =>
      match read s' with
      | .error f => .error f
      | .ok ((), rest) => checkElements read steps false rest

def checkMember (read : List Symbol → Reading Unit) (s : List Symbol) :
    Except Fault (Unit × List Symbol) := do
  let (_, rest) ← readText s
  let ((), rest) ← readColon rest
  read rest

/-- The members of an object, up to its end, which is taken. -/
def checkMembers (read : List Symbol → Reading Unit) :
    (steps : Nat) → (first : Bool) → List Symbol → Reading Unit
  | 0, _, s => .error (.atNext .endInObject s)
  | steps + 1, first, s =>
    match memberStart first s with
    | .error f => .error f
    | .ok (.stop rest) =>
      match endObject rest with
      | (.ok (), rest') => .ok ((), rest')
      | (.error f, _) => .error f
    | .ok (.key rest) =>
      match checkMember read rest with
      | .error f => .error f
      | .ok ((), rest') => checkMembers read steps false rest'

/-- A value; `depth` is the number of containers that may still be opened, and one more. -/
def checkValue : (depth : Nat) → List Symbol → Reading Unit
  | depth, s =>
    let s := skipSpace s
    match s with
    | [] => .error (.atNext .endInValue [])
    | x :: rest =>
      if x.is '[' then
        match depth with
        | depth + 2 => checkElements (checkValue (depth + 1)) (rest.length + 1) true rest
        | _ => .error (.atNext .recursionLimit s)
      else if x.is '\x7b' then
        match depth with
        | depth + 2 => checkMembers (checkValue (depth + 1)) (rest.length + 1) true rest
        | _ => .error (.atNext .recursionLimit s)
      else if x.is '"' then (readText rest).map fun p => ((), p.2)
      else if x.is '-' || isDigit x then (readNumber x rest).map fun p => ((), p.2)
      else skipScalar x rest

/-- The fault of a text that is no JSON value. -/
def check (s : String) : Except String Unit :=
  let symbols := Symbol.ofChars s.toList
  match readWhole (checkValue depthLimit) symbols with
  | .ok () => .ok ()
  | .error f => .error (f.message symbols)

end ChatRooms.Json

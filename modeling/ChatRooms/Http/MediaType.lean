import ChatRooms.Http.Message

/-!
Media types: a type and a subtype with a slash between them, and parameters behind semicolons. The
part of a subtype behind its last plus sign names the syntax on which it is built.
-/

namespace ChatRooms.Http

/-- What is left behind the parameters of a media type, each a name, an equals sign and a value that
may stand in quotes, where it has at least one character, which may be a quote; nothing if they are
not well formed. -/
def readParameters : (steps : Nat) → List Char → Option Unit
  | 0, _ => none
  | _, [] => some ()
  | steps + 1, s =>
    let s := s.dropWhile (· == ' ')
    if s.isEmpty then some ()
    else
      let name := s.takeWhile isTokenChar
      match s.drop name.length with
      | '=' :: value =>
        if name.isEmpty then none
        else
          match value with
          | ['"'] => none
          | '"' :: first :: quoted =>
            let more := quoted.takeWhile fun c => c != '"'
            if !(first :: more).all (fun c => ' ' ≤ c) || quoted.length = more.length then none
            else
              match (quoted.drop (more.length + 1)).dropWhile (· == ' ') with
              | [] => some ()
              | ';' :: rest => readParameters steps rest
              | _ => none
          | _ =>
            let text := value.takeWhile isTokenChar
            match value.drop text.length with
            | [] => some ()
            | ';' :: rest => if text.isEmpty then none else readParameters steps rest
            | _ => none
      | _ => none

/-- A media type without its parameters, in lower case. -/
structure MediaType where
  type : String
  subtype : String
  /-- the syntax on which the subtype is built -/
  base : Option String
deriving DecidableEq, Repr

namespace MediaType

/-- Cuts a subtype at its last plus sign, which does not count at the beginning. -/
def splitBase (s : List Char) : List Char × Option (List Char) :=
  match s with
  | [] => ([], none)
  | first :: rest =>
    if rest.contains '+' then
      let base := (rest.reverse.takeWhile (· != '+')).reverse
      (first :: rest.take (rest.length - base.length - 1), some base)
    else (s, none)

/-- The media type that a text writes. -/
def ofString? (s : String) : Option MediaType :=
  let cs := s.toLower.toList
  let type := cs.takeWhile isTokenChar
  match cs.drop type.length with
  | '/' :: rest =>
    if type.isEmpty then none
    else
      let subtype := rest.takeWhile isTokenChar
      let (name, base) := splitBase subtype
      let result : MediaType := ⟨String.ofList type, String.ofList name, base.map String.ofList⟩
      match rest.drop subtype.length with
      | [] => some result
      | ';' :: parameters =>
        if subtype.isEmpty then none
        else (readParameters (parameters.length + 1) parameters).map fun () => result
      | _ => none
  | _ => none

def isJson (m : MediaType) : Bool :=
  m.type == "application" && (m.subtype == "json" || m.base == some "json")

end MediaType

end ChatRooms.Http

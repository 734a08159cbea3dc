import ChatRooms.Json.Record
import ChatRooms.Text.Percent

/-!
What a client asks for when it opens a socket: a token and a room, both in the query of the request.
-/

namespace ChatRooms

open ChatRooms.Json ChatRooms.Text

/-- The token and the room of a request for a socket. -/
structure ConnectParams where
  token : Option String
  roomId : Option String
deriving DecidableEq, Repr

namespace ConnectParams

abbrev schema : Schema := ⟨"ConnectParams", [⟨"token", .optionalText⟩, ⟨"room_id", .optionalText⟩]⟩

def ofRow : Row schema.fields → ConnectParams
  | (token, roomId, ()) => ⟨token, roomId⟩

/-- A query that names the field twice. -/
structure DuplicateField where
  name : String
deriving DecidableEq, Repr

def DuplicateField.message (e : DuplicateField) : String :=
  s!"Failed to deserialize query string: duplicate field `{e.name}`"

/-- Takes up one pair of a query. Other names do not count. -/
def insert (p : ConnectParams) (name value : String) : Except DuplicateField ConnectParams :=
  if name = "token" then
    if p.token.isSome then .error ⟨name⟩ else .ok { p with token := some value }
  else if name = "room_id" then
    if p.roomId.isSome then .error ⟨name⟩ else .ok { p with roomId := some value }
  else .ok p

/-- The parameters of a query. -/
def ofQuery (query : List UInt8) : Except DuplicateField ConnectParams :=
  (Percent.formPairs query).foldlM (fun p pair => p.insert pair.1 pair.2) ⟨none, none⟩

end ConnectParams

end ChatRooms

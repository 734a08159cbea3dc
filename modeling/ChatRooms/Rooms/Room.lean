import ChatRooms.Json.RowWriter

/-!
Rooms as they are listed, and the number of connections in one.
-/

namespace ChatRooms

open ChatRooms.Json ChatRooms.Time

structure Room where
  roomId : String
  createdBy : Option String
  createdAt : Instant
deriving DecidableEq

namespace Room

abbrev schema : Schema :=
  ⟨"Room", [⟨"room_id", .text⟩, ⟨"created_by", .optionalText⟩, ⟨"created_at", .instant⟩]⟩

def ofRow : Row schema.fields → Room
  | (roomId, createdBy, createdAt, ()) => ⟨roomId, createdBy, createdAt⟩

def toRow (r : Room) : Row schema.fields := (r.roomId, r.createdBy, r.createdAt, ())

def json (r : Room) : String := String.ofList (schema.write r.toRow)

end Room

/-- How many connections are in a room. -/
structure RoomPresence where
  roomId : String
  online : Nat
deriving DecidableEq, Repr

namespace RoomPresence

abbrev schema : Schema := ⟨"RoomPresence", [⟨"room_id", .text⟩, ⟨"online", .count⟩]⟩

def ofRow : Row schema.fields → RoomPresence
  | (roomId, online, ()) => ⟨roomId, online⟩

def toRow (p : RoomPresence) : Row schema.fields := (p.roomId, p.online, ())

def json (p : RoomPresence) : String := String.ofList (schema.write p.toRow)

end RoomPresence

end ChatRooms

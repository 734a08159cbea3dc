import ChatRooms.Json.RowWriter
import ChatRooms.Error

/-!
What is sent over a socket. A client sends frames: a room and the content of a message. The server
sends envelopes: the message with its sender and the time at which it was handled.
-/

namespace ChatRooms

open ChatRooms.Json ChatRooms.Time

/-- A message as a client sends it. -/
structure InboundFrame where
  roomId : String
  content : String
deriving DecidableEq, Repr

namespace InboundFrame

abbrev schema : Schema := ⟨"InboundFrame", [⟨"room_id", .text⟩, ⟨"content", .text⟩]⟩

def ofRow : Row schema.fields → InboundFrame
  | (roomId, content, ()) => ⟨roomId, content⟩

def toRow (f : InboundFrame) : Row schema.fields := (f.roomId, f.content, ())

def json (f : InboundFrame) : String := String.ofList (schema.write f.toRow)

/-- Reads a frame, which must name a room. -/
def parse (raw : String) : Except ChatError InboundFrame :=
  match schema.decodeText raw with
  | .error text => .error (.malformedMessage text)
  | .ok row =>
    let frame := ofRow row
    if frame.roomId.isEmpty then .error (.malformedMessage "empty room_id") else .ok frame

end InboundFrame

/-- Who a user is to the other members of a room. -/
structure Identity where
  userId : String
  displayName : String
deriving DecidableEq, Repr

namespace Identity

abbrev schema : Schema := ⟨"Identity", [⟨"user_id", .text⟩, ⟨"display_name", .text⟩]⟩

def ofRow : Row schema.fields → Identity
  | (userId, displayName, ()) => ⟨userId, displayName⟩

def toRow (i : Identity) : Row schema.fields := (i.userId, i.displayName, ())

def json (i : Identity) : String := String.ofList (schema.write i.toRow)

end Identity

/-- A message as it is delivered to the members of a room. -/
structure Envelope where
  roomId : String
  content : String
  userId : String
  displayName : String
  timestamp : Instant
deriving DecidableEq

namespace Envelope

abbrev schema : Schema :=
  ⟨"Envelope", [⟨"room_id", .text⟩, ⟨"content", .text⟩, ⟨"user_id", .text⟩, ⟨"display_name", .text⟩,
    ⟨"timestamp", .instant⟩]⟩

def ofRow : Row schema.fields → Envelope
  | (roomId, content, userId, displayName, timestamp, ()) =>
    ⟨roomId, content, userId, displayName, timestamp⟩

def toRow (e : Envelope) : Row schema.fields :=
  (e.roomId, e.content, e.userId, e.displayName, e.timestamp, ())

/-- An envelope as an outbound text frame. -/
def encode (e : Envelope) : String := String.ofList (schema.write e.toRow)

/-- The envelope of a message from a sender. -/
def ofSender (roomId : String) (sender : Identity) (content : String) (timestamp : Instant) :
    Envelope :=
  ⟨roomId, content, sender.userId, sender.displayName, timestamp⟩

end Envelope

end ChatRooms

import ChatRooms.Hub.Basic

/-!
The router takes the frames of a joined connection. A frame that names the connection's own room is
sent to the other members; any other frame breaks the rules and closes the connection.
-/

namespace ChatRooms.Hub

open ChatRooms.Time

/-- The frame that a connection sent, if it names the connection's room. -/
def validate (room raw : String) : Except ChatError InboundFrame :=
  match InboundFrame.parse raw with
  | .error e => .error e
  | .ok frame =>
    if frame.roomId = room then .ok frame else .error (.roomMismatch room frame.roomId)

/-- Handles a frame of a connection at an instant. The result is the number of members that the
message was queued for; a connection that has not joined, or is closed, sends nothing. -/
def handle (h : Hub) (id : Uuid) (raw : String) (now : Instant) : Except ChatError Nat × Hub :=
  match h.connection? id with
  | none => (.ok 0, h)
  | some c =>
    if c.state ≠ .joined then (.ok 0, h)
    else
      match validate c.room raw with
      | .error e => (.error e, (h.close id e.closeCode).2)
      | .ok frame =>
        let envelope := Envelope.ofSender frame.roomId c.identity frame.content now
        let (delivered, h) := h.broadcast c.room envelope (some id)
        (.ok delivered, h)

end ChatRooms.Hub

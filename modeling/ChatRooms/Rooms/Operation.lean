import ChatRooms.Rooms.Book

/-!
Calls on the book of rooms, one at a time, and runs of calls. The directory in memory takes over
what the calls create and delete.
-/

namespace ChatRooms

open ChatRooms.Time

namespace RoomBook

inductive Operation where
  | create (now : ClockTime) (room : String) (createdBy : Option String)
  | delete (room : String)
  | get (now : Instant) (room : String)
  | list (now : Instant)
  | contains (room : String)
  /-- a new process begins with the same table -/
  | restart
deriving DecidableEq

/-- The book after a call. -/
def step (b : RoomBook) : Operation → RoomBook
  | .create now room createdBy => (b.create now room createdBy).2
  | .delete room => (b.delete room).2
  | .get .. | .list _ | .contains _ => b
  | .restart => b.restart

/-- The book after calls in order. -/
def run (b : RoomBook) (ops : List Operation) : RoomBook := ops.foldl step b

end RoomBook

namespace RoomSet

/-- The directory after a call on the book. -/
def follow (d : RoomSet) : RoomBook.Operation → RoomSet
  | .create _ room _ => d.create room
  | .delete room => (d.delete room).2
  | .get .. | .list _ | .contains _ | .restart => d

/-- The directory after calls on the book in order. -/
def replay (d : RoomSet) (ops : List RoomBook.Operation) : RoomSet := ops.foldl follow d

end RoomSet

end ChatRooms

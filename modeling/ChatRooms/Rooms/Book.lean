import ChatRooms.Rooms.Room
import ChatRooms.Accounts.Basic

/-!
The book of rooms: a table with a row for each room, and a directory in memory that only knows which
rooms exist. Creating a room that exists changes nothing.
-/

namespace ChatRooms

open ChatRooms.Time

structure RoomRow where
  roomId : String
  createdBy : Option String
  createdAt : String
deriving DecidableEq, Repr

/-- The stored rooms, in the order in which their rows were written. -/
structure RoomBook where
  rows : List RoomRow
  /-- the table can be asked -/
  isOpen : Bool
deriving DecidableEq, Repr

/-- A query on a closed table. -/
inductive RoomBookError where
  | closed
deriving DecidableEq, Repr

def RoomBookError.message : RoomBookError → String
  | .closed => closedTablesMessage

namespace RoomBook

def empty : RoomBook := ⟨[], true⟩

def roomOfRow (now : Instant) (row : RoomRow) : Room :=
  ⟨row.roomId, row.createdBy, (Instant.read? row.createdAt).getD now⟩

def row? (b : RoomBook) (roomId : String) : Option RoomRow := b.rows.find? (·.roomId = roomId)

/-- The room with an identifier, if there is one. -/
def get (b : RoomBook) (now : Instant) (roomId : String) : Except RoomBookError (Option Room) :=
  if !b.isOpen then .error .closed else .ok ((b.row? roomId).map (roomOfRow now))

def contains (b : RoomBook) (roomId : String) : Except RoomBookError Bool :=
  if !b.isOpen then .error .closed else .ok (b.row? roomId).isSome

/-- Creates a room, or returns the one that exists. -/
def create (b : RoomBook) (now : Instant) (roomId : String) (createdBy : Option String) :
    Except RoomBookError Room × RoomBook :=
  if !b.isOpen then (.error .closed, b)
  else
    match b.row? roomId with
    | some row => (.ok (roomOfRow now row), b)
    | none =>
      (.ok ⟨roomId, createdBy, now⟩,
        { b with rows := b.rows ++ [⟨roomId, createdBy, now.storedText⟩] })

/-- Deletes a room. Tells whether it existed. -/
def delete (b : RoomBook) (roomId : String) : Except RoomBookError Bool × RoomBook :=
  if !b.isOpen then (.error .closed, b)
  else
    (.ok (b.row? roomId).isSome, { b with rows := b.rows.filter (·.roomId ≠ roomId) })

/-- The row `a` does not come after `b` in a list. -/
def rowNotAfter (a b : RoomRow) : Bool := !decide (b.createdAt < a.createdAt)

/-- All rooms, in the order of the texts of their creation times; rooms with the same text stand in
the order in which they were stored. -/
def list (b : RoomBook) (now : Instant) : Except RoomBookError (List Room) :=
  if !b.isOpen then .error .closed
  else .ok ((b.rows.mergeSort rowNotAfter).map (roomOfRow now))

/-- The same table under a new process. -/
def restart (b : RoomBook) : RoomBook := { b with isOpen := true }

/-- The table can no longer be asked. -/
def close (b : RoomBook) : RoomBook := { b with isOpen := false }

end RoomBook

/-- A directory in memory: the rooms that exist. -/
abbrev RoomSet := List String

namespace RoomSet

def create (d : RoomSet) (roomId : String) : RoomSet :=
  if d.contains roomId then d else d ++ [roomId]

def delete (d : RoomSet) (roomId : String) : Bool × RoomSet :=
  (d.contains roomId, d.filter (· ≠ roomId))

end RoomSet

end ChatRooms

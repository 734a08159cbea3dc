import ChatRooms.Table
import ChatRooms.Hub.Connection

/-!
The hub: all connections, and for each room the connections that are its members. A connection
counts as a member by its entry in the room, which is kept apart from the state of its life. A
broadcast reaches every member but the excluded one; a member that cannot take the envelope is
closed and removed. The entry of a room is made for the first who tries to join it and unlinked with
its last member; an entry that is unlinked is retired, so that nobody enters it any more.
-/

namespace ChatRooms

/-- The entry of a room: its members, in the order in which they joined, and whether it has been
given up for good. -/
structure RoomEntry where
  members : List Uuid
  retired : Bool
deriving DecidableEq, Repr

namespace RoomEntry

def empty : RoomEntry := ⟨[], false⟩

def adding (r : RoomEntry) (id : Uuid) : RoomEntry := { r with members := r.members ++ [id] }

def without (r : RoomEntry) (id : Uuid) : RoomEntry := { r with members := r.members.erase id }

/-- Gives the entry up if nobody is left in it. -/
def retireIfEmpty (r : RoomEntry) : RoomEntry := { r with retired := r.members.isEmpty }

end RoomEntry

/-- The connections, and the entries of the rooms. -/
structure Hub where
  connections : Table Uuid Connection
  rooms : Table String RoomEntry
deriving DecidableEq

namespace Hub

def empty : Hub := ⟨[], []⟩

def connection? (h : Hub) (id : Uuid) : Option Connection := h.connections.get? id

/-- The members of a room, in the order in which they joined. -/
def members (h : Hub) (room : String) : List Uuid :=
  ((h.rooms.get? room).map RoomEntry.members).getD []

def contains (h : Hub) (room : String) (id : Uuid) : Bool := (h.members room).contains id

def memberCount (h : Hub) (room : String) : Nat := (h.members room).length

def roomCount (h : Hub) : Nat := h.rooms.length

/-- The entry of a room has been given up. -/
def isRetired (h : Hub) (room : String) : Bool := (h.rooms.get? room).any RoomEntry.retired

def update (h : Hub) (id : Uuid) (f : Connection → Connection) : Hub :=
  { h with connections := h.connections.modify id f }

def openConnection (h : Hub) (id : Uuid) (identity : Identity) (room : String) (capacity : Nat) :
    Hub :=
  { h with connections := h.connections.insert id (.create identity room capacity) }

/-- The error of a connection that was closed before it could join. -/
def closedBeforeJoin (id : Uuid) : ChatError := .internal s!"connection {id} closed before join"

/-- Gives a room an entry if it has none. -/
def withEntry (h : Hub) (room : String) : Hub :=
  if h.rooms.has room then h else { h with rooms := h.rooms.insert room .empty }

/-- Enters a connection into a room, once the room is known to exist. The room gets an entry in any
case; only a connection that is still connecting becomes a member, and the handle of any other is
gone. An entry that has been given up is tried again; a join does not wait between its tries, so
that it never ends if its first try fails, and there is no result. -/
def enter (h : Hub) (room : String) (id : Uuid) : Option (Except ChatError Unit × Hub) :=
  let h := h.withEntry room
  if h.isRetired room then none
  else if (h.connection? id).any fun c => c.life.join?.isSome then
    some (.ok (), { h.update id .joined with rooms := h.rooms.modify room (·.adding id) })
  else some (.error (closedBeforeJoin id), h.update id .withoutSender)

/-- Joins a room, given whether the directory confirms it. The handle is used up in any case. -/
def join (h : Hub) (room : String) (id : Uuid) (exists' : Bool) :
    Option (Except ChatError Unit × Hub) :=
  if exists' then h.enter room id
  else some (.error .roomNotFound, h.update id .withoutSender)

/-- Unlinks the entry of a room if nobody is in it. -/
def prune (h : Hub) (room : String) : Hub :=
  let rooms := h.rooms.modify room .retireIfEmpty
  { h with rooms := if (rooms.get? room).any RoomEntry.retired then rooms.erase room else rooms }

/-- Takes a connection out of a room and closes it normally. Tells whether it was a member. -/
def leave (h : Hub) (room : String) (id : Uuid) : Bool × Hub :=
  if h.contains room id then
    let h := { h.update id fun c => (c.closed CloseCode.normal).withoutSender with
      rooms := h.rooms.modify room (·.without id) }
    (true, if (h.members room).isEmpty then h.prune room else h)
  else (false, h)

/-- Closes a connection and, if this is the first close, takes it out of its own room. -/
def close (h : Hub) (id : Uuid) (code : UInt16) : Bool × Hub :=
  match h.connection? id with
  | none => (false, h)
  | some c =>
    if c.state = .closed then (false, h)
    else (true, ((h.update id (·.closed code)).leave c.room id).2)

/-- What a delivery to the members of a room did: how many got the envelope, and which could not. -/
structure Delivery where
  hub : Hub
  delivered : Nat
  failed : List Uuid
deriving DecidableEq

/-- Puts an envelope into the queue of a member, unless it is excluded or closed already. -/
def deliver (e : Envelope) (exclude : Option Uuid) (d : Delivery) (id : Uuid) : Delivery :=
  match d.hub.connection? id with
  | none => d
  | some c =>
    if exclude = some id ∨ c.state = .closed then d
    else if c.accepts then
      { d with hub := d.hub.update id (·.push e), delivered := d.delivered + 1 }
    else { d with failed := d.failed ++ [id] }

/-- Closes a member that could not take an envelope and takes it out of the room, unless somebody
else closed it first. -/
def evict (room : String) (h : Hub) (id : Uuid) : Hub :=
  match h.connection? id with
  | none => h
  | some c =>
    if c.state = .closed then h
    else ((h.update id (·.closed CloseCode.tryAgainLater)).leave room id).2

/-- Sends an envelope to the members of a room in the given order. -/
def broadcastIn (h : Hub) (order : List Uuid) (room : String) (e : Envelope)
    (exclude : Option Uuid) : Nat × Hub :=
  let d := order.foldl (deliver e exclude) ⟨h, 0, []⟩
  (d.delivered, d.failed.foldl (evict room) d.hub)

/-- Sends an envelope to every member of a room but the excluded one. The result is the number of
members that it was queued for. -/
def broadcast (h : Hub) (room : String) (e : Envelope) (exclude : Option Uuid) : Nat × Hub :=
  h.broadcastIn (h.members room) room e exclude

/-- Removes all members of a room, and closes those that are not closed yet. The result is their
number. -/
def closeRoom (h : Hub) (room : String) : Nat × Hub :=
  let ids := h.members room
  (ids.length,
    { connections := (ids.foldl (fun h id =>
        h.update id fun c => (c.closed CloseCode.roomClosed).withoutSender) h).connections
      rooms := h.rooms.erase room })

def receive (h : Hub) (id : Uuid) : Option Connection.Received × Hub :=
  match h.connection? id with
  | none => (none, h)
  | some c => (some c.receive.1, h.update id fun c => c.receive.2)

def dropReceiver (h : Hub) (id : Uuid) : Hub := h.update id .withoutReceiver

end Hub

end ChatRooms

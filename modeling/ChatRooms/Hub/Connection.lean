import ChatRooms.Lifecycle
import ChatRooms.Wire.Frame

/-!
A connection: who is behind it, the room that it is bound to, its life, and the queue of envelopes
that wait to be sent. The queue is bounded, and it ends when its sending side is gone; the sending
side belongs to the handle with which the connection joins a room.
-/

namespace ChatRooms

/-- An authenticated connection that is bound to one room. -/
structure Connection where
  identity : Identity
  room : String
  life : Lifecycle
  /-- the envelopes that wait, the oldest first -/
  queue : List Envelope
  /-- how many envelopes may wait -/
  capacity : Nat
  /-- the handle that may put envelopes into the queue is still there -/
  hasSender : Bool
  /-- the side that takes envelopes from the queue is still there -/
  hasReceiver : Bool
deriving DecidableEq

namespace Connection

/-- The longest queue that can be made. -/
def queueLimit : Nat := Nat.pow 2 61 - 1

/-- A queue for so many envelopes can be made. -/
def isQueueSize (n : Nat) : Bool := 1 ≤ n && n ≤ queueLimit

/-- A connection can be opened; without a queue that can be made, opening one panics. -/
def canOpen (capacity : Nat) : Bool := isQueueSize (max 1 capacity)

/-- A connection that has not joined its room yet. At least one envelope may wait for it. -/
def create (identity : Identity) (room : String) (capacity : Nat) : Connection :=
  { identity, room, life := .fresh, queue := [], capacity := max 1 capacity,
    hasSender := true, hasReceiver := true }

def state (c : Connection) : ConnectionState := c.life.state

def closeCode (c : Connection) : UInt16 := c.life.closeCode

/-- An envelope can be put into the queue: somebody takes from it, and it is not full. -/
def accepts (c : Connection) : Bool := c.hasReceiver && c.queue.length < c.capacity

def push (c : Connection) (e : Envelope) : Connection := { c with queue := c.queue ++ [e] }

/-- Marks a connection as joined, if it is connecting. -/
def joined (c : Connection) : Connection := { c with life := c.life.join?.getD c.life }

/-- Closes a connection; the first code counts. -/
def closed (c : Connection) (code : UInt16) : Connection := { c with life := c.life.closed code }

/-- The handle is gone, and with it the sending side of the queue. -/
def withoutSender (c : Connection) : Connection := { c with hasSender := false }

/-- What is found at the front of a queue. -/
inductive Received where
  | envelope (e : Envelope)
  | empty
  | ended
deriving DecidableEq

def receive (c : Connection) : Received × Connection :=
  match c.queue with
  | e :: rest => (.envelope e, { c with queue := rest })
  | [] => (if c.hasSender then .empty else .ended, c)

/-- The taking side is gone, and what waits with it. -/
def withoutReceiver (c : Connection) : Connection := { c with hasReceiver := false, queue := [] }

end Connection

end ChatRooms

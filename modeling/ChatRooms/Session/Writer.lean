import ChatRooms.Hub.Basic

/-!
The writing side of a session. It sends what waits in the queue in order, pings between, and, once
the queue has ended, one close frame with the code of the connection.
-/

namespace ChatRooms.Session

/-- What the server sends. -/
inductive Outbound where
  | text (frame : String)
  | ping
  | close (code : UInt16)
deriving DecidableEq, Repr

/-- The writing side can begin: a timer for its pings needs some time between them, else making it
panics. -/
def canPing (intervalMillis : Nat) : Bool := 0 < intervalMillis

/-- What the writing side does next: it sends something, and perhaps ends with that, or it waits. -/
inductive WriterAction where
  | send (o : Outbound)
  | sendLast (o : Outbound)
  | wait
deriving DecidableEq, Repr

/-- What the writing side does next for a connection, and the connection after it has taken from the
queue. -/
def writerAction (c : Connection) : WriterAction × Connection :=
  match c.receive with
  | (.envelope e, c) => (.send (.text e.encode), c)
  | (.ended, c) => (.sendLast (.close c.closeCode), c)
  | (.empty, c) => (.wait, c)

/-- What the writing side of a connection does next, and the hub after it has taken from the queue.
-/
def takeNext (h : Hub) (id : Uuid) : Option (WriterAction × Hub) :=
  (h.connection? id).map fun c => ((writerAction c).1, h.update id fun c => (writerAction c).2)

end ChatRooms.Session

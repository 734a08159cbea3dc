import ChatRooms.Hub.Router

/-!
The reading side of a session. What comes in is handled one thing at a time; a message that breaks
the rules, the end of the stream, silence and the end of the writing side end the reading. However
it ends, the connection is closed, with the code of the first cause.
-/

namespace ChatRooms.Session

open ChatRooms.Time

/-- What the reading side sees. -/
inductive Event where
  /-- a text message -/
  | text (raw : String)
  /-- a binary message, a ping or a pong -/
  | other
  /-- a close frame of the client -/
  | closeFrame
  /-- the stream is over -/
  | streamEnd
  /-- the stream broke, or broke the rules -/
  | readError
  /-- nothing came for too long -/
  | idle
  /-- the writing side has ended -/
  | writerEnded
deriving DecidableEq, Repr

namespace Event

/-- The event is something that the client sent and that does not end the stream. -/
def isFrame : Event → Bool
  | .text _ | .other => true
  | _ => false

end Event

/-- Handles an event of a connection. The result tells whether the reading goes on. -/
def onEvent (h : Hub) (id : Uuid) (now : Instant) : Event → Bool × Hub
  | .text raw =>
    match h.handle id raw now with
    | (.error e, h) => (!e.isProtocolViolation, h)
    | (.ok _, h) => (true, h)
  | .other => (true, h)
  | .closeFrame | .streamEnd => (false, (h.close id CloseCode.normal).2)
  | .readError => (false, (h.close id CloseCode.internalError).2)
  | .idle => (false, (h.close id CloseCode.policyViolation).2)
  | .writerEnded => (false, (h.close id CloseCode.internalError).2)

/-- What is done when the reading has ended: the connection is closed if it still is not. -/
def finish (h : Hub) (id : Uuid) : Hub := (h.close id CloseCode.normal).2

/-- Handles an event, and finishes if the reading ends with it. -/
def read (h : Hub) (id : Uuid) (now : Instant) (e : Event) : Bool × Hub :=
  match onEvent h id now e with
  | (true, h) => (true, h)
  | (false, h) => (false, finish h id)

/-- What is done when the connection cannot join its room. -/
def refuse (h : Hub) (id : Uuid) (e : ChatError) : Hub := (h.close id e.closeCode).2

/-- Joins a connection to its room, given whether the directory confirms that. -/
def joinOrRefuse (h : Hub) (room : String) (id : Uuid) (exists' : Bool) :
    Option (Except ChatError Unit × Hub) :=
  match h.join room id exists' with
  | some (.error e, h) => some (.error e, refuse h id e)
  | r => r

/-- The time after which an idle connection is given up, counted from the last frame. -/
def idleDeadline (idleTimeout lastFrame : Nat) : Nat := lastFrame + idleTimeout

/-- What the reading side handles next: what has come, or, if nothing has come until the connection
is to be given up, that. Otherwise it waits. What has come counts however late it is looked at. -/
def nextEvent? (idleAt clock : Nat) (come : Option Event) : Option Event :=
  come.or (if idleAt ≤ clock then some .idle else none)

/-- Handles an event, and finishes if the reading ends with it. If the reading goes on, the result
is the time at which the connection will be given up, counted anew from the present. -/
def turn (h : Hub) (id : Uuid) (idleTimeout clock : Nat) (now : Instant) (e : Event) :
    Option Nat × Hub :=
  match read h id now e with
  | (true, h) => (some (idleDeadline idleTimeout clock), h)
  | (false, h) => (none, h)

end ChatRooms.Session

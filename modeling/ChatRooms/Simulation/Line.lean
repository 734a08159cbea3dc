import ChatRooms.Session.Reader
import ChatRooms.Session.Writer
import ChatRooms.Socket.Message

/-!
One socket of a simulation: the server's side of a session, a pipe in each direction, and a client
that reads what comes and answers pings. The pipes are bounded. While the client does not read, what
does not fit into the pipe holds up the server's writing side. While the server does not read, what
does not fit holds up the client, which then neither reads nor does what it is told next.
-/

namespace ChatRooms.Simulation

open ChatRooms.Session ChatRooms.Socket ChatRooms.Text

inductive Sight where
  | text (frame : String)
  | ping (payload : List UInt8)
  | pong (payload : List UInt8)
  | close (reason : Option (Nat × String))
  /-- the server has closed the pipe -/
  | ended
deriving DecidableEq, Repr

namespace Sight

def textLength (s : String) : Nat := (Utf8.encode s.toList).length

def size : Sight → Nat
  | .text s => Frame.plainSize (textLength s)
  | .ping p | .pong p => Frame.plainSize p.length
  | .close none => Frame.plainSize 0
  | .close (some (_, reason)) => Frame.plainSize (2 + textLength reason)
  | .ended => 0

/-- What a client sees of what the server sends. -/
def ofOutbound : Outbound → Sight
  | .text s => .text s
  | .ping => .ping []
  | .close code => .close (some (code.toNat, CloseCode.reason code))

end Sight

/-- Where a session stands. -/
inductive Stage where
  /-- the room is looked up again; the answer, or the end of its time, is due -/
  | joining (due : Nat) (runsOut : Bool)
  /-- frames are read; the connection is given up at an instant -/
  | reading (idleAt : Nat)
  /-- the reading has ended; the writing side is given up at an instant -/
  | draining (deadline : Nat)
  | ended
deriving DecidableEq, Repr

inductive Order where
  | send (bytes : List UInt8)
  /-- to stop reading -/
  | freeze
  /-- to read again -/
  | unfreeze
  /-- to send no more bytes -/
  | shutdown
  /-- to leave without a word -/
  | cut
deriving DecidableEq, Repr

/-- A socket with both of its sides. -/
structure Line where
  id : Uuid
  room : String
  /-- the run of the service that serves it -/
  run : Nat
  stage : Stage
  /-- when the next ping is due -/
  nextPing : Nat
  /-- the writing side has ended -/
  writerEnded : Bool
  /-- the writing side waits for room in the pipe -/
  isStuck : Bool
  /-- the transport still takes messages to send -/
  isSendable : Bool
  /-- an answer to a close frame that the transport would still send -/
  echo : Option Sight
  /-- what the client has not done yet of what it was told -/
  orders : List Order
  /-- bytes in the pipe from the client -/
  pipe : List UInt8
  /-- bytes from the client that the server has taken from the pipe and not handled yet -/
  inbox : List UInt8
  /-- the client sends no more bytes -/
  inboxEnded : Bool
  /-- the message of which more parts are to come -/
  pending : Option Fragments
  /-- frames that the client has not read yet -/
  outbox : List Sight
  /-- the client does not read -/
  isFrozen : Bool
  /-- the client is gone -/
  isGone : Bool
  /-- what the client has seen since it was last asked -/
  seen : List Sight
deriving DecidableEq, Repr

namespace Line

def pipeSize : Nat := 65536

def sizeOf (frames : List Sight) : Nat := (frames.map Sight.size).foldl (· + ·) 0

/-- A socket that has just been opened. -/
def opened (id : Uuid) (room : String) (run : Nat) (stage : Stage) : Line :=
  { id, room, run, stage, nextPing := 0, writerEnded := false, isStuck := false, isSendable := true,
    echo := none, orders := [], pipe := [], inbox := [], inboxEnded := false, pending := none,
    outbox := [], isFrozen := false, isGone := false, seen := [] }

def mask : List UInt8 := [0x37, 0xFA, 0x21, 0x3D]

def frameBytes (kind : Kind) (payload : List UInt8) : List UInt8 :=
  Frame.encodeMasked kind mask payload

/-- The server takes no more bytes. -/
def isDeaf (l : Line) : Bool := l.isGone || l.inboxEnded || l.stage == .ended

/-- The client puts bytes into the pipe. -/
def send (l : Line) (bytes : List UInt8) : Line :=
  if l.isDeaf then l else { l with pipe := l.pipe ++ bytes }

/-- The client sees a frame, and answers a ping. -/
def see (l : Line) (s : Sight) : Line :=
  let l := { l with seen := l.seen ++ [s] }
  match s with
  | .ping payload => l.send (frameBytes .pong payload)
  | _ => l

/-- The client reads all that has come, unless it does not read. -/
def flush (l : Line) : Line :=
  if l.isGone then { l with outbox := [] }
  else if l.isFrozen || !l.orders.isEmpty then l
  else l.outbox.foldl see { l with outbox := [] }

/-- The frames that are not read yet do not fit into the pipe. -/
def isBlocked (l : Line) : Bool := pipeSize < sizeOf l.outbox

def post (l : Line) (s : Sight) : Line := { l with outbox := l.outbox ++ [s] }.flush

/-- The writing side sends a message. It ends if the transport takes no more. -/
def write (l : Line) (o : Outbound) : Line :=
  if l.isGone || !l.isSendable then { l with writerEnded := true }
  else
    let l := l.post (Sight.ofOutbound o)
    { l with isStuck := l.isBlocked }

/-- The client reads again. A send that was held up is completed, or fails if the transport has
taken the client's close frame in the meantime. -/
def resume (l : Line) : Line :=
  let l := l.flush
  if l.isStuck then
    let l := { l with isStuck := false }
    if l.isSendable then l
    else
      let l := match l.echo with
        | some s => { l with echo := none }.post s
        | none => l
      { l with writerEnded := true }
  else l

def cut (l : Line) : Line :=
  { l with
    isGone := true, inboxEnded := true, outbox := [], seen := [], isStuck := false
    writerEnded := l.writerEnded || l.isStuck }

/-- The number of bytes that the client can put into the pipe at once. A server that reads takes as
many pipefuls as the message needs, since its parts do not tell the server anything. -/
def capacity (l : Line) (length : Nat) : Nat :=
  match l.pipe, l.stage with
  | [], .reading _ => length
  | [], _ => pipeSize
  | pipe, _ => (pipeSize - pipe.length % pipeSize) % pipeSize

/-- The client does what it is told, up to something to send for which the pipe has no room. -/
def carryOut : List Order → Line → Line
  | [], l => l
  | .send bytes :: more, l =>
    let n := l.capacity bytes.length
    if l.isDeaf || bytes.length ≤ n then carryOut more (l.send bytes)
    else { l.send (bytes.take n) with orders := .send (bytes.drop n) :: more }
  | .freeze :: more, l => carryOut more { l with isFrozen := true }
  | .unfreeze :: more, l => carryOut more { l with isFrozen := false }.resume
  | .shutdown :: more, l => carryOut more { l with inboxEnded := true }
  | .cut :: _, l => l.cut

/-- The client goes on with what it has been told, and reads if nothing holds it up. -/
def act (l : Line) : Line :=
  let l := carryOut l.orders { l with orders := [] }
  if l.isFrozen || !l.orders.isEmpty then l else l.resume

def tell (l : Line) (o : Order) : Line := { l with orders := l.orders ++ [o] }.act

def takeIn (l : Line) : Line :=
  match l.pipe with
  | [] => l
  | pipe => { l with pipe := [], inbox := l.inbox ++ pipe }

/-- The frames at the front that fit into a number of bytes. -/
def fitting (room : Nat) : List Sight → List Sight
  | [] => []
  | s :: rest => if s.size ≤ room then s :: fitting (room - s.size) rest else []

/-- The server closes the pipe. What the client has not read and fits into the pipe stays there. -/
def hangUp (l : Line) : Line :=
  let outbox := fitting pipeSize l.outbox ++ [Sight.ended]
  { l with stage := .ended, isStuck := false, outbox }.act

/-- What the transport answers to a close frame: its code, or that of a violation if the code must
not be sent. -/
def echoOf : Option (Nat × String) → Sight
  | none => .close none
  | some (code, reason) =>
    if (1000 ≤ code && code ≤ 1003) || (1007 ≤ code && code ≤ 1013) ||
        (3000 ≤ code && code ≤ 4999) then
      .close (some (code, reason))
    else .close (some (1002, "Protocol violation"))

end Line

end ChatRooms.Simulation

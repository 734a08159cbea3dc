import ChatRooms.Http.App
import ChatRooms.Settings
import ChatRooms.Simulation.Delay
import ChatRooms.Simulation.Line

/-!
A simulated world: the service, collaborators that answer as a script tells, sockets with their
clients, and a clock that moves only from one due time to the next. Everything that can happen at
one time happens before the clock moves on. The clock that dates messages and sessions is another
one: it moves a little with each reading.
-/

namespace ChatRooms.Simulation

open ChatRooms.Session ChatRooms.Time

/-- What answers questions about tokens and rooms. -/
inductive Backend where
  /-- a table of tokens, and a directory in memory -/
  | memory
  /-- the accounts and the book of rooms -/
  | tables
deriving DecidableEq, Repr

/-- A connection that is worked with by name. -/
structure Held where
  id : Uuid
  room : String
  /-- the run of the service in which it was opened -/
  run : Nat
  /-- the connection has not been dropped -/
  isAlive : Bool
  /-- its handle has not been used -/
  hasHandle : Bool
  /-- the receiving side of its queue has not been dropped -/
  hasReceiver : Bool
deriving DecidableEq, Repr

/-- A join that waits for the directory. -/
structure PendingJoin where
  id : Uuid
  room : String
  /-- the run of the service whose room is joined -/
  run : Nat
  due : Nat
  runsOut : Bool
  result : Option (Except ChatError Unit)

structure TokenEntry where
  identity : Identity
  delay : Delay
deriving DecidableEq, Repr

structure World where
  service : Service
  /-- the members of the rooms in each run of the service before the current one -/
  earlier : List (Table String RoomEntry)
  settings : Settings
  backend : Backend
  tokens : Table String TokenEntry
  directory : RoomSet
  /-- how the next calls of the directory are answered -/
  script : List Delay
  /-- the clock, in milliseconds -/
  now : Nat
  /-- how often the date has been read -/
  readings : Nat
  /-- how many identifiers have been given out -/
  issued : Nat
  held : Table String Held
  joins : List PendingJoin
  lines : List Line
  lineNames : Table String Nat
  /-- the rooms that have been named so far -/
  knownRooms : List String

namespace World

/-- A world in which nothing has happened yet. -/
def initial (settings : Settings) (hashCost : Nat) (backend : Backend)
    (tokens : Table String TokenEntry) (rooms : List String) : World :=
  { service := ⟨.empty settings.sessionNanos hashCost, .empty, .empty⟩
    earlier := []
    settings, backend, tokens
    directory := rooms.foldl RoomSet.create []
    script := [], now := 0, readings := 0, issued := 0, held := [], joins := [], lines := []
    lineNames := [], knownRooms := [] }

def firstDate : Instant := (Instant.ofParts? 1782900000 123456789).getD .zero

/-- The date after so many readings; each takes a microsecond. -/
def dateAt (readings : Nat) : Instant :=
  let nanos := firstDate.nanos + 1000 * readings
  (Instant.ofParts? (firstDate.seconds + (nanos / nanosPerSecond : Nat))
    (nanos % nanosPerSecond)).getD firstDate

def readDate (w : World) : Instant × World :=
  (dateAt (w.readings + 1), { w with readings := w.readings + 1 })

/-- The identifier that is given out after so many others. -/
def idAt (issued : Nat) : Uuid :=
  ⟨BitVec.ofNat 128 (0x7A3D9C510F244E868B17000000000000 + issued + 1)⟩

def freshId (w : World) : Uuid × World := (idAt w.issued, { w with issued := w.issued + 1 })

/-- Two readings of the date and an identifier. -/
def supply (w : World) : Http.Supply × World :=
  let (now, w) := w.readDate
  let (later, w) := w.readDate
  let (id, w) := w.freshId
  (⟨now, later, id.toString⟩, w)

def hub (w : World) : Hub := w.service.hub

def withHub (w : World) (hub : Hub) : World := { w with service := { w.service with hub } }

def run (w : World) : Nat := w.earlier.length

/-- The hub with the rooms of a run. -/
def hubOf (w : World) (run : Nat) : Hub :=
  match w.earlier[run]? with
  | some rooms => { w.hub with rooms }
  | none => w.hub

/-- Replaces the connections, and the rooms of a run. -/
def withHubOf (w : World) (run : Nat) (hub : Hub) : World :=
  if run < w.run then
    { w.withHub { w.hub with connections := hub.connections } with
      earlier := w.earlier.set run hub.rooms }
  else w.withHub hub

/-- Closes a connection of a run. -/
def close (w : World) (run : Nat) (id : Uuid) (code : UInt16) : Bool × World :=
  let (b, hub) := (w.hubOf run).close id code
  (b, w.withHubOf run hub)

def updateLine (w : World) (i : Nat) (f : Line → Line) : World :=
  { w with lines := w.lines.modify i f }

/-- Whether the directory knows a room. Closed tables know none. -/
def knowsRoom (w : World) (room : String) : Bool :=
  match w.backend with
  | .memory => w.directory.contains room
  | .tables => (w.service.book.contains room).toOption.getD false

/-- Begins a call of the directory: its course under a limit on time. -/
def beginLookup (w : World) (limit : Nat) : Course × World :=
  match w.backend with
  | .tables => (.answers 0, w)
  | .memory =>
    match w.script with
    | [] => (.answers 0, w)
    | d :: rest => (d.course limit, { w with script := rest })

/-! ### What happens at one time -/

/-- Settles a join whose answer, or whose end of time, is there, by what is to be done then. There
is no result if it does not end. -/
def settleJoin (w : World)
    (enter : Hub → String → Uuid → Bool → Option (Except ChatError Unit × Hub)) (run : Nat)
    (id : Uuid) (room : String) (runsOut : Bool) : Option (Except ChatError Unit) × World :=
  match enter (w.hubOf run) room id (!runsOut && w.knowsRoom room) with
  | some (r, hub) => (some r, w.withHubOf run hub)
  | none => (none, w)

/-- Settles the joins that are due. -/
def settleJoins (w : World) : World :=
  let (joins, w) := w.joins.foldl (fun (joins, w) (j : PendingJoin) =>
    if j.result.isNone && j.due ≤ w.now then
      let (r, w) := w.settleJoin Hub.join j.run j.id j.room j.runsOut
      (joins ++ [{ j with result := r }], w)
    else (joins ++ [j], w)) (([] : List PendingJoin), w)
  { w with joins }

/-- The session of a socket ends: the connection is dropped, and the pipe is closed. -/
def endLine (w : World) (i : Nat) (l : Line) : World :=
  (w.withHubOf l.run (finish (w.hubOf l.run) l.id)).updateLine i Line.hangUp

/-- Handles an event of the reading side of a socket. -/
def onLineEvent (w : World) (i : Nat) (l : Line) (e : Event) : Bool × World :=
  let (now, w) := w.readDate
  let (idleAt?, hub) := turn (w.hubOf l.run) l.id w.settings.idleTimeoutMillis w.now now e
  let stage :=
    match idleAt? with
    | some idleAt => Stage.reading idleAt
    | none => .draining (w.now + 5000)
  (idleAt?.isSome, (w.withHubOf l.run hub).updateLine i fun l => { l with stage })

/-- The event of a message, and what it does to the socket before it is handled. A ping is answered;
if the client is gone, the answer cannot be sent, and nothing more is read. -/
def eventOf (m : Socket.Message) (l : Line) : Event × Line :=
  match m with
  | .text raw => (.text raw, l)
  | .binary _ | .pong _ => (.other, l)
  | .ping payload =>
    (.other, if l.isGone then { l with inbox := [] }
      else if l.isSendable then l.post (.pong payload) else l)
  | .close reason =>
    (.closeFrame, { l with isSendable := false, echo := some (Line.echoOf reason) })

/-- What has come on a socket, if anything has, and what that does to the socket before it is
handled. -/
def come (next : Socket.Next) (l : Line) : Option Event × Line :=
  match next with
  | .message m =>
    let (e, l) := eventOf m l
    (some e, l)
  | .violation => (some .readError, l)
  | .wait =>
    if l.inboxEnded then (some .readError, { l with isSendable := false }) else (none, l)

/-- Reads what has come on a socket. Each message takes two bytes at least. The result tells whether
anything happened. -/
def readLine (i : Nat) : (steps : Nat) → World → Bool × World
  | 0, w => (false, w)
  | steps + 1, w =>
    match w.lines[i]? with
    | none => (false, w)
    | some l =>
      match l.stage with
      | .reading idleAt =>
        let l := l.takeIn
        let (next, pending, rest) := Socket.nextMessage l.pending (l.inbox.length + 1) l.inbox
        let (come, l) := come next { l with pending, inbox := rest }
        let w := w.updateLine i fun _ => l
        match nextEvent? idleAt w.now come with
        | none => (false, w)
        | some e =>
          let (goesOn, w) := w.onLineEvent i l e
          if goesOn then (true, (readLine i steps w).2) else (true, w)
      | _ => (false, w)

/-- The writing side of a socket sends what it can. The result tells whether anything happened. -/
def writeLine (i : Nat) : (steps : Nat) → World → Bool × World
  | 0, w => (false, w)
  | steps + 1, w =>
    match w.lines[i]? with
    | none => (false, w)
    | some l =>
      let isActive := match l.stage with
        | .reading _ | .draining _ => !l.writerEnded && !l.isStuck
        | _ => false
      if !isActive then (false, w)
      else
        match takeNext w.hub l.id with
        | none => (false, w)
        | some (action, hub) =>
          let w := w.withHub hub
          match action with
          | .send o => (true, (writeLine i steps (w.updateLine i (·.write o))).2)
          | .sendLast o =>
            (true, w.updateLine i fun l => { l.write o with writerEnded := true, isStuck := false })
          | .wait =>
            if l.nextPing ≤ w.now then
              (true, (writeLine i steps (w.updateLine i fun l =>
                { l.write .ping with nextPing := l.nextPing + w.settings.pingIntervalMillis })).2)
            else (false, w)

/-- Carries a session on whose writing side has ended, or has had its time, or whose room has been
looked up. A writing side that cannot begin has ended. -/
def advanceLine (i : Nat) (w : World) : Bool × World :=
  match w.lines[i]? with
  | none => (false, w)
  | some l =>
    match l.stage with
    | .joining due runsOut =>
      if due ≤ w.now then
        match w.settleJoin joinOrRefuse l.run l.id l.room runsOut with
        | (none, w) => (false, w)
        | (some (.ok ()), w) =>
          (true, w.updateLine i fun l =>
            { l with
              stage := .reading (idleDeadline w.settings.idleTimeoutMillis w.now)
              nextPing := w.now + w.settings.pingIntervalMillis
              writerEnded := !canPing w.settings.pingIntervalMillis })
        | (some (.error e), w) =>
          (true, (w.updateLine i (·.write (.close e.closeCode))).endLine i l)
      else (false, w)
    | .reading _ =>
      if l.writerEnded then
        (true, (w.onLineEvent i l .writerEnded).2.endLine i l)
      else (false, w)
    | .draining deadline =>
      if l.writerEnded || deadline ≤ w.now then (true, w.endLine i l) else (false, w)
    | .ended => (false, w)

/-- The number of messages that can be read or written at one time. -/
def lineSteps (w : World) (i : Nat) : Nat :=
  match w.lines[i]? with
  | none => 0
  | some l =>
    l.pipe.length + l.inbox.length + ((w.hub.connection? l.id).map (·.queue.length)).getD 0 +
      (w.now - l.nextPing) + 2

/-- Lets a client go on that was held up. The result tells whether it could. -/
def resumeClient (i : Nat) (w : World) : Bool × World :=
  match w.lines[i]? with
  | none => (false, w)
  | some l =>
    if l.orders.isEmpty then (false, w)
    else
      let after := l.act
      (after.orders != l.orders, w.updateLine i fun _ => after)

/-- Lets all sockets read, then all write, then carries their sessions on, and at last lets the
clients go on that were held up. -/
def settleOnce (w : World) : Bool × World :=
  let each (f : Nat → World → Bool × World) (p : Bool × World) : Bool × World :=
    (List.range p.2.lines.length).foldl (fun (b, w) i =>
      let (c, w) := f i w
      (b || c, w)) p
  let p := each (fun i w => readLine i (lineSteps w i) w) (false, w.settleJoins)
  let p := each (fun i w => writeLine i (lineSteps w i) w) p
  each resumeClient (each advanceLine p)

/-- Lets everything happen that can. What clients answer to what they read wakes up nobody else, so
a few rounds are enough, and one for each thing that a client has not done yet. -/
def settleRounds : (rounds : Nat) → World → World
  | 0, w => w
  | rounds + 1, w =>
    let (happened, w) := w.settleOnce
    if happened then settleRounds rounds w else w

/-- Lets everything happen that can happen now. -/
def settle (w : World) : World :=
  settleRounds (32 + (w.lines.map (·.orders.length)).foldl (· + ·) 0) w

/-! ### Time -/

def dueTimes (l : Line) : List Nat :=
  let ping := if l.writerEnded then [] else [l.nextPing]
  match l.stage with
  | .joining due _ => [due]
  | .reading idleAt => idleAt :: ping
  | .draining deadline => deadline :: ping
  | .ended => []

/-- The next time after the present at which something is due. -/
def nextDue? (w : World) : Option Nat :=
  let times := (w.joins.filter (·.result.isNone)).map PendingJoin.due ++ w.lines.flatMap dueTimes
  (times.filter (w.now < ·)).min?

/-- Moves the clock on to a time, with a stop at each due time before it. -/
def elapseTo (target : Nat) : (steps : Nat) → World → World
  | 0, w => { w with now := target }
  | steps + 1, w =>
    match w.nextDue? with
    | some due =>
      if due ≤ target then elapseTo target steps ({ w with now := due }.settle)
      else { w with now := target }
    | none => { w with now := target }

def elapse (w : World) (millis : Nat) : World :=
  elapseTo (w.now + millis) (millis + 1) w.settle

/-! ### Calls that wait -/

/-- Asks about a token, with a limit on time. -/
def authenticate (limit : Nat) (token : String) (w : World) :
    Timed (Except ChatError Identity) × World :=
  match w.backend with
  | .tables =>
    let (now, w) := w.readDate
    let (r, accounts) := w.service.accounts.validate now token
    (.answered r, { w with service := { w.service with accounts } })
  | .memory =>
    match w.tokens.get? token with
    | none => (.answered (.error .unauthorized), w)
    | some entry =>
      match entry.delay.course limit with
      | .answers millis => (.answered (.ok entry.identity), w.elapse millis)
      | .runsOut millis => (.timedOut, w.elapse millis)
      | .fails => (.answered (.error (.internal unavailable)), w)
      | .missing => (.answered (.ok entry.identity), w)

/-- Asks about a room, with a limit on time. -/
def lookUp (limit : Nat) (room : String) (w : World) : Timed (Except LookupError Bool) × World :=
  let (course, w) := w.beginLookup limit
  match course with
  | .answers millis =>
    let w := w.elapse millis
    match w.backend with
    | .memory => (.answered (.ok (w.directory.contains room)), w)
    | .tables =>
      match w.service.book.contains room with
      | .ok b => (.answered (.ok b), w)
      | .error e => (.answered (.error ⟨e.message⟩), w)
  | .runsOut millis => (.timedOut, w.elapse millis)
  | .fails => (.answered (.error ⟨unavailable⟩), w)
  | .missing => (.answered (.ok false), w)

/-- The gateway and the directory of the world. -/
def desk (limit : Nat) : Desk World := ⟨authenticate limit, lookUp limit⟩

/-- Begins to look a room up for a connection that joins: when the answer is due, and whether it is
the end of the time that is due. -/
def beginJoin (w : World) : (Nat × Bool) × World :=
  let (course, w) := w.beginLookup w.settings.handshakeTimeoutMillis
  match course with
  | .answers millis => ((w.now + millis, false), w)
  | .runsOut millis => ((w.now + millis, true), w)
  | .fails | .missing => ((w.now, true), w)

end World

end ChatRooms.Simulation

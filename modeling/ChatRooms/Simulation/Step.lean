import ChatRooms.Simulation.World

/-!
The steps of a simulation: what is done to the world from outside, and what each step answers. Once
a socket has been opened, every step is followed by a moment in which everything settles.
-/

namespace ChatRooms.Simulation

open ChatRooms.Http ChatRooms.Time ChatRooms.Text

/-- A user's row as it is put into the table. -/
abbrev UserSeed := UserRow

inductive Step where
  | roomCreate (room : String)
  | roomDelete (room : String)
  | roomExists (room : String)
  | directory (script : List Delay)
  | handshake (token room : String) (limit : Option Nat)
  | openConnection (conn : String) (identity : Identity) (room : String) (capacity : Nat)
  | join (conn : String) (room : Option String)
  | joinStart (conn : String) (room : Option String)
  | joinWait (conn : String)
  | dropMember (conn : String)
  | frame (conn raw : String)
  | broadcast (room : String) (envelope : Envelope) (exclude : Option String)
  | recv (conn : String)
  | drain (conn : String)
  | close (conn : String) (code : UInt16)
  | leave (conn : String) (room : Option String)
  | contains (conn : String) (room : Option String)
  | drop (conn : String)
  | dropReceiver (conn : String)
  | closeRoom (room : String)
  | memberCount (room : String)
  | signup (email username password : String)
  | login (email password : String)
  | validateSession (token : String)
  | validate (token : String)
  | logout (token : String)
  | getUser (userId : String)
  | findUser (userId : String)
  | storeCreate (room : String) (by' : Option String)
  | storeGet (room : String)
  | storeDelete (room : String)
  | storeExists (room : String)
  | storeList
  | restart
  | closeTables
  | seedUser (row : UserSeed)
  | seedSession (row : SessionRow)
  | seedRoom (row : RoomRow)
  | eraseUser (userId : String)
  | eraseSession (token : String)
  | lastLoginSet (userId : String)
  | sessionStored (token : String)
  | http (request : Option Request)
  | connect (sock : String) (request : Except Nat Request)
  | sendFrame (sock : String) (kind : Socket.Kind) (payload : List UInt8)
  | sendRaw (sock : String) (bytes : List UInt8)
  | freeze (sock : String)
  | unfreeze (sock : String)
  | shutdown (sock : String)
  | cut (sock : String)
  | flood (sock : String) (payload : List UInt8) (room : String) (members most : Nat)
  | advance (millis : Nat)

inductive Problem where
  | noConnection
  | noSocket
  | noMember
  | noPending
  | dropped
  | badRequest
deriving DecidableEq, Repr

inductive Outcome where
  /-- the simulation goes no further -/
  | panicked
  | nothing
  | done
  | flag (b : Bool)
  | count (n : Nat)
  | chatError (e : ChatError)
  | failure (text : String)
  | problem (p : Problem)
  | identity (i : Identity)
  | opened (room : String) (i : Identity)
  | envelope (e : Envelope)
  | empty
  | ended
  | drained (envelopes : List Envelope) (hasEnded : Bool)
  | signedUp (user : User)
  | loggedIn (user : User) (session : Session) (lifetimeMillis : Int)
  | user (u : UserInfo)
  | room (r : Room)
  | rooms (rs : List Room)
  | response (r : Response)
  | upgraded (accept : String)

namespace World

def ofChat {α : Type} (f : α → Outcome) : Except ChatError α → Outcome
  | .ok a => f a
  | .error e => .chatError e

def ofAccounts {α : Type} (f : α → Outcome) : Except AccountError α → Outcome
  | .ok a => f a
  | .error e => .failure e.message

def ofBook {α : Type} (f : α → Outcome) : Except RoomBookError α → Outcome
  | .ok a => f a
  | .error e => .failure e.message

/-- Goes on with a connection that is worked with by name. -/
def withHeld (w : World) (conn : String) (k : Held → Outcome × World) : Outcome × World :=
  match w.held.get? conn with
  | none => (.problem .noConnection, w)
  | some c => k c

/-- Goes on with a socket that was opened. -/
def withLine (w : World) (sock : String) (k : Nat → Line → Outcome × World) : Outcome × World :=
  match w.lineNames.get? sock with
  | none => (.problem .noSocket, w)
  | some i =>
    match w.lines[i]? with
    | none => (.problem .noSocket, w)
    | some l => k i l

def withAccounts (w : World) (accounts : Accounts) : World :=
  { w with service := { w.service with accounts } }

def withBook (w : World) (book : RoomBook) : World :=
  { w with service := { w.service with book } }

/-- Drops whatever is left of a connection that is worked with by name. -/
def release (w : World) (c : Held) : World :=
  let w := if c.hasHandle then w.withHub (w.hub.update c.id .withoutSender) else w
  let w := if c.isAlive then (w.close c.run c.id CloseCode.normal).2 else w
  if c.hasReceiver then w.withHub (w.hub.dropReceiver c.id) else w

/-! ### Connections -/

def performOpen (w : World) (conn : String) (identity : Identity) (room : String)
    (capacity : Nat) : Outcome × World :=
  let w := ((w.held.get? conn).map w.release).getD w
  let (id, w) := w.freshId
  if !Connection.canOpen capacity then (.panicked, w)
  else
    let w := w.withHub (w.hub.openConnection id identity room capacity)
    (.opened room identity,
      { w with held := w.held.insert conn ⟨id, room, w.run, true, true, true⟩ })

/-- Begins a join in the background. -/
def startJoin (w : World) (conn : String) (c : Held) (room : String) : World :=
  let ((due, runsOut), w) := w.beginJoin
  settle { w with
    held := w.held.insert conn { c with hasHandle := false }
    joins := w.joins ++ [⟨c.id, room, w.run, due, runsOut, none⟩] }

/-- Waits for the join of a connection in the background. -/
def awaitJoin (w : World) (c : Held) : Outcome × World :=
  match w.joins.find? (·.id = c.id) with
  | none => (.problem .noPending, w)
  | some j =>
    let w := w.elapse (j.due - w.now)
    let result := (w.joins.find? (·.id = c.id)).bind PendingJoin.result
    let w := { w with joins := w.joins.filter (·.id ≠ c.id) }
    match result with
    | some r => (ofChat (fun () => .done) r, w)
    | none => (.problem .noPending, w)

/-- Takes all envelopes from a queue. -/
def drainQueue (id : Uuid) : (steps : Nat) → World → List Envelope × Bool × World
  | 0, w => ([], false, w)
  | steps + 1, w =>
    match w.hub.receive id with
    | (some (.envelope e), hub) =>
      let (rest, hasEnded, w) := drainQueue id steps (w.withHub hub)
      (e :: rest, hasEnded, w)
    | (some .ended, hub) => ([], true, w.withHub hub)
    | (_, hub) => ([], false, w.withHub hub)

def queueLength (w : World) (id : Uuid) : Nat :=
  ((w.hub.connection? id).map (·.queue.length)).getD 0

/-! ### Accounts and rooms -/

def performSignup (w : World) (email username password : String) : Outcome × World :=
  let (u, w) := w.supply
  let (r, accounts) := w.service.accounts.signup u.now u.fresh email username password
  (ofAccounts .signedUp r, w.withAccounts accounts)

def performLogin (w : World) (email password : String) : Outcome × World :=
  let (u, w) := w.supply
  let (r, accounts) := w.service.accounts.login u.now u.later u.fresh email password
  (ofAccounts (fun (user, session) =>
    .loggedIn user session (session.createdAt.millisUntil session.expiresAt)) r,
    w.withAccounts accounts)

/-- The number of rows of two tables that differ by rows that were taken out. -/
def rowsGone {α : Type} (before after : List α) : Outcome := .count (before.length - after.length)

/-! ### Requests and sockets -/

/-- Answers a request that does not come over a connection that can be upgraded. -/
def performHttp (w : World) (r : Request) : Outcome × World :=
  let (u, w) := w.supply
  let (reply, service) := App.dispatch r false u w.service
  let w := { w with service }
  match reply with
  | .response response => (.response response, w)
  | .socket .. => (.nothing, w)

/-- Opens a socket for an admitted request. It is closed at once if no connection can be opened. -/
def openLine (w : World) (sock : String) (ticket : Admission.Ticket) : World :=
  let w := match w.lineNames.get? sock with
    | some i => w.updateLine i (·.tell .cut)
    | none => w
  let (id, w) := w.freshId
  let lineNames := w.lineNames.insert sock w.lines.length
  if !Connection.canOpen w.settings.outboundBuffer then
    { w with
      lines := w.lines ++ [(Line.opened id ticket.room w.run .ended).hangUp]
      lineNames }
  else
    let w := w.withHub
      (w.hub.openConnection id ticket.identity ticket.room w.settings.outboundBuffer)
    let ((due, runsOut), w) := w.beginJoin
    { w with
      lines := w.lines ++ [Line.opened id ticket.room w.run (.joining due runsOut)]
      lineNames }

def performConnect (w : World) (sock : String) (r : Request) : Outcome × World :=
  let (u, w) := w.supply
  let (reply, service) := App.dispatch r true u w.service
  let w := { w with service }
  match reply with
  | .response response => (.response response, w)
  | .socket key params authorization =>
    match Admission.ticketFor (desk w.settings.handshakeTimeoutMillis) params authorization w with
    | (.error e, w) => (.response (App.refuseSocket e), w)
    | (.ok ticket, w) => (.upgraded (Socket.acceptKey key), w.openLine sock ticket)

/-- Tells the client of a socket what to do, unless the client is gone. -/
def tellClient (w : World) (sock : String) (o : Order) : Outcome × World :=
  w.withLine sock fun i l =>
    if l.isGone then (.flag false, w) else (.flag true, w.updateLine i (·.tell o))

/-- Lets everything settle. -/
def rest (w : World) : World := w.elapse 1

/-- Sends the same text until a room has so many members, but not more often than `most` times. -/
def floodLine (sock : String) (payload : List UInt8) (room : String) (members : Nat) :
    (most : Nat) → World → Bool × World
  | 0, w => (w.hub.memberCount room == members, w)
  | most + 1, w =>
    if w.hub.memberCount room == members then (true, w)
    else
      let (_, w) := w.tellClient sock (.send (Line.frameBytes .text payload))
      floodLine sock payload room members most w.rest

/-- Carries out a step. -/
def perform (w : World) : Step → Outcome × World
  | .roomCreate room => (.nothing, { w with directory := w.directory.create room })
  | .roomDelete room =>
    let (b, directory) := w.directory.delete room
    (.flag b, { w with directory })
  | .roomExists room =>
    match w.lookUp 0xFFFFFFFFFFFF room with
    | (.answered (.ok b), w) => (.flag b, w)
    | (.answered (.error e), w) => (.failure e.text, w)
    | (.timedOut, w) => (.nothing, w)
  | .directory script => (.nothing, { w with script })
  | .handshake token room limit =>
    let (r, w) := Admission.handshake
      (desk (limit.getD w.settings.handshakeTimeoutMillis)) token room w
    (ofChat .identity r, w)
  | .openConnection conn identity room capacity => w.performOpen conn identity room capacity
  | .join conn room => w.withHeld conn fun c =>
    if !c.hasHandle then (.problem .noMember, w)
    else (w.startJoin conn c (room.getD c.room)).awaitJoin c
  | .joinStart conn room => w.withHeld conn fun c =>
    if !c.hasHandle then (.problem .noMember, w)
    else (.nothing, w.startJoin conn c (room.getD c.room))
  | .joinWait conn => w.withHeld conn fun c => w.awaitJoin c
  | .dropMember conn => w.withHeld conn fun c =>
    (.flag c.hasHandle,
      if c.hasHandle then
        { w.withHub (w.hub.update c.id .withoutSender) with
          held := w.held.insert conn { c with hasHandle := false } }
      else w)
  | .frame conn raw => w.withHeld conn fun c =>
    if !c.isAlive then (.problem .dropped, w)
    else
      let (now, w) := w.readDate
      match w.hub.handle c.id raw now with
      | (.ok n, hub) => (.count n, w.withHub hub)
      | (.error e, _) => (.chatError e, (w.close c.run c.id e.closeCode).2)
  | .broadcast room envelope exclude =>
    let excluded := (exclude.bind w.held.get?).map Held.id
    let (n, hub) := w.hub.broadcast room envelope excluded
    (.count n, w.withHub hub)
  | .recv conn => w.withHeld conn fun c =>
    if !c.hasReceiver then (.problem .dropped, w)
    else
      match w.hub.receive c.id with
      | (some (.envelope e), hub) => (.envelope e, w.withHub hub)
      | (some .ended, hub) => (.ended, w.withHub hub)
      | (_, hub) => (.empty, w.withHub hub)
  | .drain conn => w.withHeld conn fun c =>
    if !c.hasReceiver then (.problem .dropped, w)
    else
      let (envelopes, hasEnded, w) := drainQueue c.id (w.queueLength c.id + 1) w
      (.drained envelopes hasEnded, w)
  | .close conn code => w.withHeld conn fun c =>
    if !c.isAlive then (.problem .dropped, w)
    else
      let (b, w) := w.close c.run c.id code
      (.flag b, w)
  | .leave conn room => w.withHeld conn fun c =>
    let (b, hub) := w.hub.leave (room.getD c.room) c.id
    (.flag b, w.withHub hub)
  | .contains conn room => w.withHeld conn fun c =>
    (.flag (w.hub.contains (room.getD c.room) c.id), w)
  | .drop conn => w.withHeld conn fun c =>
    if !c.isAlive then (.flag false, w)
    else
      (.flag true, { (w.close c.run c.id CloseCode.normal).2 with
        held := w.held.insert conn { c with isAlive := false } })
  | .dropReceiver conn => w.withHeld conn fun c =>
    if !c.hasReceiver then (.flag false, w)
    else
      (.flag true, { w.withHub (w.hub.dropReceiver c.id) with
        held := w.held.insert conn { c with hasReceiver := false } })
  | .closeRoom room =>
    let (n, hub) := w.hub.closeRoom room
    (.count n, w.withHub hub)
  | .memberCount room => (.count (w.hub.memberCount room), w)
  | .signup email username password => w.performSignup email username password
  | .login email password => w.performLogin email password
  | .validateSession token =>
    let (now, w) := w.readDate
    let (r, accounts) := w.service.accounts.validateSession now token
    (ofAccounts .user r, w.withAccounts accounts)
  | .validate token =>
    let (now, w) := w.readDate
    let (r, accounts) := w.service.accounts.validate now token
    (ofChat .identity r, w.withAccounts accounts)
  | .logout token =>
    let (r, accounts) := w.service.accounts.logout token
    (ofAccounts (fun () => .done) r, w.withAccounts accounts)
  | .getUser userId =>
    let (now, w) := w.readDate
    (ofAccounts .user (w.service.accounts.getUser now userId), w)
  | .findUser userId =>
    let (now, w) := w.readDate
    (ofAccounts (fun u => u.elim .nothing .user) (w.service.accounts.findUser now userId), w)
  | .storeCreate room by' =>
    let (now, w) := w.readDate
    let (r, book) := w.service.book.create now room by'
    (ofBook .room r, w.withBook book)
  | .storeGet room =>
    let (now, w) := w.readDate
    (ofBook (fun r => r.elim .nothing .room) (w.service.book.get now room), w)
  | .storeDelete room =>
    let (r, book) := w.service.book.delete room
    (ofBook .flag r, w.withBook book)
  | .storeExists room => (ofBook .flag (w.service.book.contains room), w)
  | .storeList =>
    let (now, w) := w.readDate
    (ofBook .rooms (w.service.book.list now), w)
  | .restart =>
    let hub : Hub := { w.hub with rooms := [] }
    (.done, { w with
      service := ⟨w.service.accounts.restart, w.service.book.restart, hub⟩
      earlier := w.earlier ++ [w.hub.rooms] })
  | .closeTables =>
    (.done, (w.withAccounts w.service.accounts.close).withBook w.service.book.close)
  | .seedUser row =>
    let a := w.service.accounts
    if a.users.any fun u => u.id = row.id || u.email = row.email then (.count 0, w)
    else (.count 1, w.withAccounts { a with users := a.users ++ [row] })
  | .seedSession row =>
    let a := w.service.accounts
    if a.sessions.any (·.token = row.token) then (.count 0, w)
    else (.count 1, w.withAccounts { a with sessions := a.sessions ++ [row] })
  | .seedRoom row =>
    let b := w.service.book
    if b.rows.any (·.roomId = row.roomId) then (.count 0, w)
    else (.count 1, w.withBook { b with rows := b.rows ++ [row] })
  | .eraseUser userId =>
    let a := w.service.accounts
    let users := a.users.filter (·.id ≠ userId)
    (rowsGone a.users users, w.withAccounts { a with users })
  | .eraseSession token =>
    let a := w.service.accounts
    let sessions := a.sessions.filter (·.token ≠ token)
    (rowsGone a.sessions sessions, w.withAccounts { a with sessions })
  | .lastLoginSet userId =>
    (match w.service.accounts.users.find? (·.id = userId) with
      | none => .nothing
      | some row => .flag row.lastLogin.isSome, w)
  | .sessionStored token =>
    (.flag (w.service.accounts.sessions.any (·.token = token)), w)
  | .http none => (.problem .badRequest, w)
  | .http (some r) => w.performHttp r
  | .connect _ (.error status) => (.response (.empty status), w)
  | .connect sock (.ok r) => w.performConnect sock r
  | .sendFrame sock kind payload => w.tellClient sock (.send (Line.frameBytes kind payload))
  | .sendRaw sock bytes => w.tellClient sock (.send bytes)
  | .freeze sock => w.tellClient sock .freeze
  | .unfreeze sock => w.tellClient sock .unfreeze
  | .shutdown sock => w.tellClient sock .shutdown
  | .cut sock => w.tellClient sock .cut
  | .flood sock payload room members most => w.withLine sock fun _ _ =>
    let (b, w) := floodLine sock payload room members most w
    (.flag b, w)
  | .advance millis => (.nothing, w.elapse millis)

/-- Notes that a room has been named. -/
def noteRoom (w : World) (room : String) : World :=
  if w.knownRooms.contains room then w else { w with knownRooms := w.knownRooms ++ [room] }

/-- Carries out a step, notes the room that it names, and lets everything settle if a socket has
been opened. -/
def step (w : World) (s : Step) (room : Option String) : Outcome × World :=
  let w := (room.map w.noteRoom).getD w
  let (outcome, w) := w.perform s
  (outcome, if w.lines.isEmpty then w else w.rest)

/-- Takes what the clients have seen since they were last asked, under the names of their sockets.
-/
def takeSeen (w : World) : List (String × List Sight) × World :=
  let named := w.lineNames.filterMap fun (name, i) => (w.lines[i]?).map fun l => (name, l.seen)
  let lines := w.lines.map fun l => { l with seen := [] }
  (named.filter fun p => !p.2.isEmpty, { w with lines })

end World

end ChatRooms.Simulation

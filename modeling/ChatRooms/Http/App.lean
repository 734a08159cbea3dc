import ChatRooms.Accounts.Basic
import ChatRooms.Hub.Basic
import ChatRooms.Http.Bodies
import ChatRooms.Http.Cors
import ChatRooms.Http.JsonBody
import ChatRooms.Http.Route
import ChatRooms.Rooms.Book
import ChatRooms.Session.Admission
import ChatRooms.Socket.Upgrade

/-!
The requests that the server answers. Accounts, the book of rooms and the hub make up the service; a
request gives a response and a new service, or is passed on to be admitted to a socket.
-/

namespace ChatRooms

/-- What requests act on. -/
structure Service where
  accounts : Accounts
  book : RoomBook
  hub : Hub
deriving DecidableEq

namespace Http

open ChatRooms.Text ChatRooms.Time

/-- What a request may take from outside: the clock, which may be read twice, and an identifier that
was never used. -/
structure Supply where
  now : Instant
  later : Instant
  fresh : String
deriving DecidableEq

/-- How a request is answered. -/
inductive Reply where
  | response (r : Response)
  /-- the request asks for a socket and can be upgraded with this key -/
  | socket (key : List UInt8) (params : ConnectParams) (authorization : Option (List UInt8))
deriving DecidableEq

namespace App

/-- The text has characters that are not blank. -/
def hasText (s : String) : Bool := !(trimList s.toList).isEmpty

def register (s : Service) (u : Supply) (q : RegisterRequest) : Response × Service :=
  if !hasText q.email || !hasText q.username || q.password.isEmpty then
    (.ofError (.badRequest "email, username and password are required"), s)
  else
    match s.accounts.signup u.now u.fresh q.email q.username q.password with
    | (.ok user, accounts) =>
      (.json 200 (registeredBody user.id user.username), { s with accounts })
    | (.error e, accounts) => (.ofError (.badRequest e.message), { s with accounts })

def login (s : Service) (u : Supply) (q : LoginRequest) : Response × Service :=
  match s.accounts.login u.now u.later u.fresh q.email q.password with
  | (.ok (user, session), accounts) =>
    (.json 200 (loggedInBody session.token user.id user.username), { s with accounts })
  | (.error _, accounts) => (.ofError .unauthorized, { s with accounts })

def logout (s : Service) (authorization : Option (List UInt8)) : Response × Service :=
  match Admission.headerToken? authorization with
  | none => (.ofError .unauthorized, s)
  | some token =>
    match s.accounts.logout token with
    | (.ok (), accounts) => (.empty 200, { s with accounts })
    | (.error _, accounts) => (.ofError (.internal "logout failed"), { s with accounts })

def showUser (s : Service) (u : Supply) (id : String) : Response :=
  match s.accounts.findUser u.now id with
  | .ok (some user) => .json 200 user.json
  | .ok none => .ofError .userNotFound
  | .error _ => .ofError (.internal "database error")

/-- Creates a room. Blanks around its name do not count. -/
def createRoom (s : Service) (u : Supply) (q : CreateRoomRequest) : Response × Service :=
  let roomId := trim q.roomId
  if roomId.isEmpty then (.ofError (.badRequest "room_id is required"), s)
  else
    match s.book.create u.now roomId none with
    | (.ok room, book) => (.json 200 (createdRoomBody room.roomId), { s with book })
    | (.error _, book) => (.ofError (.internal "failed to create room"), { s with book })

def listRooms (s : Service) (u : Supply) : Response :=
  match s.book.list u.now with
  | .ok rooms =>
    .json 200 (String.ofList (Json.writeList (rooms.map fun r => Room.schema.write r.toRow)))
  | .error e => .ofError (.internal e.message)

/-- Deletes a room and closes the connections that are in it. -/
def deleteRoom (s : Service) (roomId : String) : Response × Service :=
  match s.book.delete roomId with
  | (.error e, book) => (.ofError (.internal e.message), { s with book })
  | (.ok false, book) => (.ofError .roomNotFound, { s with book })
  | (.ok true, book) => (.empty 204, { s with book, hub := (s.hub.closeRoom roomId).2 })

/-- Tells how many connections are in a room. -/
def presence (s : Service) (roomId : String) : Response :=
  .json 200 (RoomPresence.json ⟨roomId, s.hub.memberCount roomId⟩)

/-- Prepares a request for a socket. -/
def openSocket (r : Request) (canUpgrade : Bool) : Reply :=
  match Socket.upgradeKey r with
  | .error response => .response response
  | .ok key =>
    if !canUpgrade then
      .response (.text 426
        "WebSocket request couldn't be upgraded since no upgrade state was present")
    else
      match ConnectParams.ofQuery (r.target.query.getD []) with
      | .error e => .response (.text 400 e.message)
      | .ok params => .socket key params (firstValue? r.headers "authorization")

/-- Reads the body of a request and goes on with it. -/
def withBody (c : Json.Schema) (r : Request) (s : Service)
    (k : Json.Row c.fields → Response × Service) : Response × Service :=
  match readBody c r with
  | .error response => (response, s)
  | .ok row => k row

/-- Decodes the variable part of a path and goes on with it. -/
def withParameter (name : String) (bytes : List UInt8) (s : Service)
    (k : String → Response × Service) : Response × Service :=
  match Route.parameter name bytes with
  | .error response => (response, s)
  | .ok text => k text

def answer (route : Route) (r : Request) (canUpgrade : Bool) (u : Supply) (s : Service) :
    Reply × Service :=
  let plain (p : Response × Service) : Reply × Service := (.response p.1, p.2)
  match route with
  | .register =>
    plain (withBody RegisterRequest.schema r s fun row => register s u (RegisterRequest.ofRow row))
  | .login => plain (withBody LoginRequest.schema r s fun row => login s u (LoginRequest.ofRow row))
  | .logout => plain (logout s (firstValue? r.headers "authorization"))
  | .user id => plain (withParameter "user_id" id s fun id => (showUser s u id, s))
  | .rooms =>
    if r.method = "POST" then
      plain (withBody CreateRoomRequest.schema r s fun row =>
        createRoom s u (CreateRoomRequest.ofRow row))
    else plain (listRooms s u, s)
  | .room id => plain (withParameter "room_id" id s fun id => deleteRoom s id)
  | .presence id => plain (withParameter "room_id" id s fun id => (presence s id, s))
  | .socket => (openSocket r canUpgrade, s)
  | .health => plain (.text 200 "OK - Chat Server", s)

/-- Completes the response of a route: its length is told, and a request for the head alone gets no
body. -/
def complete (method : String) (r : Response) : Response :=
  let length := (Utf8.encode r.body.toList).length
  let r := r.withDefault "content-length" (toString length)
  if method = "HEAD" then { r with body := "" } else r

def dispatch (r : Request) (canUpgrade : Bool) (u : Supply) (s : Service) : Reply × Service :=
  let route := Route.ofPath? r.target.path
  if r.method = "OPTIONS" then
    match route with
    | none => (.response Cors.preflight, s)
    | some route =>
      (.response ((complete r.method Cors.preflight).withDefault "allow" route.allow), s)
  else
    match route with
    | none => (.response (Cors.permit (.empty 404)), s)
    | some route =>
      if route.methods.contains r.method then
        match answer route r canUpgrade u s with
        | (.response response, s) => (.response (complete r.method (Cors.permit response)), s)
        | (reply, s) => (reply, s)
      else
        (.response (complete r.method
          (Cors.permit ((Response.empty 405).withDefault "allow" route.allow))), s)

/-- The response to a request for a socket that was not admitted. -/
def refuseSocket (e : ChatError) : Response := complete "GET" (Cors.permit (.ofError e))

end App

end Http

end ChatRooms

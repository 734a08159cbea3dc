import ChatRooms.Wire.Bearer
import ChatRooms.Wire.ConnectParams
import ChatRooms.Wire.Frame

/-!
Admission to a room. A request for a socket needs a token and a room; the token is put to a gateway,
and only if that accepts it the room is looked up in the directory. Either of them may take too
long, which counts as its own refusal.
-/

namespace ChatRooms

/-- The answer to a call that may take too long. -/
inductive Timed (α : Type) where
  | answered (a : α)
  | timedOut
deriving DecidableEq, Repr

/-- A room could not be looked up. -/
structure LookupError where
  text : String
deriving DecidableEq, Repr

/-- The gateway and the directory, as they are asked with a limit on time. Asking changes a state.
-/
structure Desk (σ : Type) where
  authenticate : String → σ → Timed (Except ChatError Identity) × σ
  lookUp : String → σ → Timed (Except LookupError Bool) × σ

namespace Admission

/-- The identity that the gateway's answer gives. -/
def identityOf : Timed (Except ChatError Identity) → Except ChatError Identity
  | .answered r => r
  | .timedOut => .error .unauthorized

/-- The room may be entered only if the directory answers yes in time. -/
def roomOf : Timed (Except LookupError Bool) → Except ChatError Unit
  | .answered (.ok true) => .ok ()
  | _ => .error .roomNotFound

/-- Resolves a token into an identity, and then confirms the room. -/
def handshake {σ : Type} (d : Desk σ) (token room : String) (s : σ) :
    Except ChatError Identity × σ :=
  let (answer, s) := d.authenticate token s
  match identityOf answer with
  | .error e => (.error e, s)
  | .ok identity =>
    let (found, s) := d.lookUp room s
    match roomOf found with
    | .error e => (.error e, s)
    | .ok () => (.ok identity, s)

/-- The text of a header value, if all its bytes are visible ASCII, blanks or tabs. -/
def headerText? (value : List UInt8) : Option String :=
  if value.all fun b => (0x20 ≤ b && b < 0x7F) || b == 0x09 then
    some (String.ofList (value.map fun b => Char.ofNat b.toNat))
  else none

/-- The bearer token of an authorization header. -/
def headerToken? (authorization : Option (List UInt8)) : Option String :=
  (authorization.bind headerText?).bind bearerToken

/-- The token of a request: the one in the query unless it is empty, or else the one in the header.
-/
def token? (p : ConnectParams) (authorization : Option (List UInt8)) : Option String :=
  (p.token.filter fun t => !t.isEmpty) <|> headerToken? authorization

/-- The room of a request, which must not be empty. -/
def room? (p : ConnectParams) : Option String := p.roomId.filter fun r => !r.isEmpty

/-- An admission: who enters which room. -/
structure Ticket where
  identity : Identity
  room : String
deriving DecidableEq, Repr

/-- Decides on a request for a socket. -/
def ticketFor {σ : Type} (d : Desk σ) (p : ConnectParams) (authorization : Option (List UInt8))
    (s : σ) : Except ChatError Ticket × σ :=
  match token? p authorization with
  | none => (.error .unauthorized, s)
  | some token =>
    match room? p with
    | none => (.error (.badRequest "room_id is required"), s)
    | some room =>
      match handshake d token room s with
      | (.error e, s) => (.error e, s)
      | (.ok identity, s) => (.ok ⟨identity, room⟩, s)

end Admission

end ChatRooms

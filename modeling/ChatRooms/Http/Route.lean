import ChatRooms.Http.Message
import ChatRooms.Text.Percent

/-!
Routes: which paths the server knows, which methods each of them takes, and what stands in the
variable part of a path. Parts are compared as they are written; only the variable one is decoded.
-/

namespace ChatRooms.Http

open ChatRooms.Text

/-- The paths that the server knows; a variable part is kept as it is written. -/
inductive Route where
  | register
  | login
  | logout
  | user (id : List UInt8)
  | rooms
  | room (id : List UInt8)
  | presence (id : List UInt8)
  | socket
  | health
deriving DecidableEq, Repr

namespace Route

/-- The parts of a path between its slashes. -/
def segments : List UInt8 → List (List UInt8)
  | [] => []
  | _ :: rest => go [] rest
where
  /-- The parts that follow, the first of which begins with `part` in reverse. -/
  go (part : List UInt8) : List UInt8 → List (List UInt8)
    | [] => [part.reverse]
    | b :: rest => if b = 0x2F then part.reverse :: go [] rest else go (b :: part) rest

/-- The bytes of a fixed part. -/
def fixed (s : String) : List UInt8 := Utf8.encode s.toList

/-- The route of a path. A variable part at the end must not be empty. -/
def ofPath? (path : List UInt8) : Option Route :=
  match segments path with
  | [a] =>
    if a = fixed "register" then some .register
    else if a = fixed "login" then some .login
    else if a = fixed "logout" then some .logout
    else if a = fixed "health" then some .health
    else none
  | [a, b] =>
    if a = fixed "user" then (if b.isEmpty then none else some (.user b))
    else if a = fixed "chat" then (if b = fixed "rooms" then some .rooms else none)
    else if a = fixed "ws" then (if b = fixed "chat" then some .socket else none)
    else none
  | [a, b, c] =>
    if a = fixed "chat" && b = fixed "rooms" && !c.isEmpty then some (.room c) else none
  | [a, b, c, d] =>
    if a = fixed "chat" && b = fixed "rooms" && d = fixed "presence" then some (.presence c)
    else none
  | _ => none

def methods : Route → List String
  | .register | .login | .logout => ["POST"]
  | .user _ | .presence _ | .socket | .health => ["GET", "HEAD"]
  | .rooms => ["GET", "HEAD", "POST"]
  | .room _ => ["DELETE"]

/-- The methods of a route, as a response lists them. -/
def allow (r : Route) : String := ",".intercalate r.methods

/-- The text of a variable part, or the response to one that is no text. -/
def parameter (name : String) (bytes : List UInt8) : Except Response String :=
  match Utf8.decode? (Percent.decode bytes) with
  | some s => .ok s
  | none => .error (.text 400 s!"Invalid URL: Invalid UTF-8 in `{name}`")

end Route

end ChatRooms.Http

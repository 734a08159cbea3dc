import ChatRooms.Digest.Sha1
import ChatRooms.Http.Message
import ChatRooms.Text.Base64

/-!
The upgrade of a request to a socket: which headers must be there, and the key that proves that the
server has read the client's.
-/

namespace ChatRooms.Socket

open ChatRooms.Http ChatRooms.Text

/-- The first value of a header is this text, in any case. -/
def headerIs (headers : List Header) (name text : String) : Bool :=
  match firstValue? headers name with
  | none => false
  | some value => value.map lowerByte == Utf8.encode text.toList

/-- The text occurs in some bytes. -/
def occursIn (text : List UInt8) : List UInt8 → Bool
  | [] => text.isEmpty
  | b :: rest => text.isPrefixOf (b :: rest) || occursIn text rest

/-- This text occurs in the first value of a header, in any case. -/
def headerContains (headers : List Header) (name text : String) : Bool :=
  match firstValue? headers name with
  | none => false
  | some value =>
    (Utf8.decode? value).isSome && occursIn (Utf8.encode text.toList) (value.map lowerByte)

/-- What a server adds to the client's key. -/
def acceptSuffix : String := "258EAFA5-E914-47DA-95CA-C5AB0DC85B11"

/-- The proof that the server has read a client's key. -/
def acceptKey (key : List UInt8) : String :=
  Base64.encode (Digest.Sha1.digest (key ++ Utf8.encode acceptSuffix.toList))

/-- The client's key, or the response to a request that cannot be upgraded. -/
def upgradeKey (r : Request) : Except Response (List UInt8) :=
  if r.method ≠ "GET" then .error (.text 405 "Request method must be `GET`")
  else if !headerContains r.headers "connection" "upgrade" then
    .error (.text 400 "Connection header did not include 'upgrade'")
  else if !headerIs r.headers "upgrade" "websocket" then
    .error (.text 400 "`Upgrade` header did not include 'websocket'")
  else
    match firstValue? r.headers "sec-websocket-key" with
    | none => .error (.text 400 "`Sec-WebSocket-Key` header missing")
    | some key =>
      if headerIs r.headers "sec-websocket-version" "13" then .ok key
      else .error (.text 400 "`Sec-WebSocket-Version` header did not include '13'")

end ChatRooms.Socket

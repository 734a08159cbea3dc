import ChatRooms.Uuid
import ChatRooms.Wire.CloseCode
import ChatRooms.Json.Writer

/-!
What can go wrong for a client: at the handshake, in its frames, in delivery to it, and in requests.
Each error has a text, an HTTP status, a close code, and a JSON body.
-/

namespace ChatRooms

open ChatRooms.Json

inductive ChatError where
  | unauthorized
  | roomNotFound
  | malformedMessage (reason : String)
  | roomMismatch (bound requested : String)
  | deliveryFailure (connection : Uuid) (reason : String)
  | userNotFound
  | badRequest (text : String)
  | internal (text : String)
deriving DecidableEq, Repr

namespace ChatError

def message : ChatError → String
  | .unauthorized => "unauthorized"
  | .roomNotFound => "room not found"
  | .malformedMessage reason => s!"malformed message: {reason}"
  | .roomMismatch bound requested =>
    s!"room mismatch: bound to {bound}, frame targets {requested}"
  | .deliveryFailure connection reason => s!"delivery to {connection} failed: {reason}"
  | .userNotFound => "user not found"
  | .badRequest text => text
  | .internal text => text

def status : ChatError → Nat
  | .unauthorized => 401
  | .roomNotFound | .userNotFound => 404
  | .malformedMessage _ | .roomMismatch .. | .badRequest _ => 400
  | .deliveryFailure .. | .internal _ => 500

/-- The code with which an error closes a connection. -/
def closeCode : ChatError → UInt16
  | .malformedMessage _ | .roomMismatch .. => CloseCode.policyViolation
  | .roomNotFound => CloseCode.roomClosed
  | .unauthorized => CloseCode.unauthorized
  | .deliveryFailure .. => CloseCode.tryAgainLater
  | .userNotFound | .badRequest _ | .internal _ => CloseCode.internalError

/-- After such an error nothing more is read from the connection. -/
def isProtocolViolation : ChatError → Bool
  | .malformedMessage _ | .roomMismatch .. => true
  | _ => false

/-- The JSON body that tells a client of an error. -/
def body (e : ChatError) : String :=
  String.ofList (writeObject [("error", writeObject [("message", writeText e.message)])])

end ChatError

end ChatRooms

/-!
The codes with which a connection is closed, and the reason that goes with each in a close frame.
-/

namespace ChatRooms.CloseCode

def normal : UInt16 := 1000

/-- A frame broke the rules, or no frame came for too long. -/
def policyViolation : UInt16 := 1008

/-- The server, or the transport, failed. -/
def internalError : UInt16 := 1011

/-- The queue of outbound messages overflowed. -/
def tryAgainLater : UInt16 := 1013

def unauthorized : UInt16 := 4401

def roomClosed : UInt16 := 4404

/-- The reason that a close frame gives with a code. -/
def reason (code : UInt16) : String :=
  if code = normal then "closed"
  else if code = policyViolation then "protocol violation"
  else if code = tryAgainLater then "slow consumer"
  else if code = roomClosed then "room closed"
  else if code = unauthorized then "unauthorized"
  else "server error"

end ChatRooms.CloseCode

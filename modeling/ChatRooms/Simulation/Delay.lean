import ChatRooms.Session.Admission

/-!
How a collaborator of the server answers in a simulation: at once, after a while, with a failure, or
never. A call with a limit on time ends when the answer comes or when the limit is reached; an
answer that comes just then still counts.
-/

namespace ChatRooms.Simulation

/-- How a call is answered. -/
inductive Delay where
  | atOnce
  | after (millis : Nat)
  | never
  | fails
  | missing
deriving DecidableEq, Repr

def unavailable : String := "collaborator unavailable"

/-- What becomes of a call that has begun. -/
inductive Course where
  /-- it is answered in the usual way after so many milliseconds -/
  | answers (millis : Nat)
  /-- its limit on time is reached after so many milliseconds -/
  | runsOut (millis : Nat)
  | fails
  | missing
deriving DecidableEq, Repr

/-- What becomes of a call with a limit on time. -/
def Delay.course (limit : Nat) : Delay → Course
  | .atOnce => .answers 0
  | .after millis => if millis ≤ limit then .answers millis else .runsOut limit
  | .never => .runsOut limit
  | .fails => .fails
  | .missing => .missing

end ChatRooms.Simulation

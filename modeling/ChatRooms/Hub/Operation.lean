import ChatRooms.Hub.Router

/-!
Everything that can happen at the hub, one operation at a time, and runs of operations.
-/

namespace ChatRooms.Hub

open ChatRooms.Time

inductive Operation where
  | openConnection (id : Uuid) (identity : Identity) (room : String) (capacity : Nat)
  | join (id : Uuid) (room : String) (exists' : Bool)
  | leave (room : String) (id : Uuid)
  | broadcast (room : String) (envelope : Envelope) (exclude : Option Uuid)
  | closeRoom (room : String)
  | handle (id : Uuid) (raw : String) (now : Instant)
  | close (id : Uuid) (code : UInt16)
  | drop (id : Uuid)
  | receive (id : Uuid)
  | dropReceiver (id : Uuid)
deriving DecidableEq

inductive Answer where
  | done
  | joined (result : Except ChatError Unit)
  /-- a join that never ends -/
  | spinning
  | flag (b : Bool)
  | count (n : Nat)
  | handled (result : Except ChatError Nat)
  | received (r : Option Connection.Received)

/-- Carries out an operation. -/
def step (h : Hub) : Operation → Answer × Hub
  | .openConnection id identity room capacity =>
    (.done, h.openConnection id identity room capacity)
  | .join id room exists' =>
    match h.join room id exists' with
    | some (r, h) => (.joined r, h)
    | none => (.spinning, h)
  | .leave room id =>
    let (b, h) := h.leave room id
    (.flag b, h)
  | .broadcast room envelope exclude =>
    let (n, h) := h.broadcast room envelope exclude
    (.count n, h)
  | .closeRoom room =>
    let (n, h) := h.closeRoom room
    (.count n, h)
  | .handle id raw now =>
    let (r, h) := h.handle id raw now
    (.handled r, h)
  | .close id code =>
    let (b, h) := h.close id code
    (.flag b, h)
  | .drop id =>
    let (b, h) := h.close id CloseCode.normal
    (.flag b, h)
  | .receive id =>
    let (r, h) := h.receive id
    (.received r, h)
  | .dropReceiver id => (.done, h.dropReceiver id)

/-- The hub after operations in order. -/
def run (h : Hub) (ops : List Operation) : Hub := ops.foldl (fun h op => (h.step op).2) h

end ChatRooms.Hub

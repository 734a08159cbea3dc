import ChatRooms.Socket.Frame

/-!
Messages on a socket, put together from frames. A message may be split over several frames, and
control frames may stand between them. Whatever breaks the rules ends the reading.
-/

namespace ChatRooms.Socket

open ChatRooms.Text

/-- A message. -/
inductive Message where
  | text (s : String)
  | binary (payload : List UInt8)
  | ping (payload : List UInt8)
  | pong (payload : List UInt8)
  | close (reason : Option (Nat × String))
deriving DecidableEq, Repr

/-- A message of which more parts are to come. -/
structure Fragments where
  isText : Bool
  payload : List UInt8
deriving DecidableEq, Repr

/-- The greatest message that is read. -/
def maxMessage : Nat := 67108864

/-- The message of a payload; a text must be well formed. -/
def Message.ofPayload? (isText : Bool) (payload : List UInt8) : Option Message :=
  if maxMessage < payload.length then none
  else if isText then (Utf8.decode? payload).map .text
  else some (.binary payload)

/-- The code and the reason in the payload of a close frame. -/
def closeReason? (payload : List UInt8) : Option (Option (Nat × String)) :=
  match payload with
  | [] => some none
  | [_] => none
  | a :: b :: reason => (Utf8.decode? reason).map fun s => some (a.toNat * 256 + b.toNat, s)

/-- The message of a control frame. -/
def Message.ofControl? (f : Frame) : Option Message :=
  if !f.isFinal || 125 < f.payload.length then none
  else
    match f.kind with
    | .close => (closeReason? f.payload).map .close
    | .ping => some (.ping f.payload)
    | .pong => some (.pong f.payload)
    | _ => none

/-- The parts of a message with one more part; the beginning of a text must be that of a well formed
one. -/
def Fragments.extend? (p : Fragments) (payload : List UInt8) : Option Fragments :=
  let payload := p.payload ++ payload
  if maxMessage < payload.length then none
  else if p.isText && !Utf8.isOpening payload then none
  else some { p with payload }

/-- Takes up a data frame: a message if one is complete, and what is to be continued. -/
def takeData? (pending : Option Fragments) (f : Frame) :
    Option (Option Message × Option Fragments) :=
  match f.kind, pending with
  | .continuation, none => none
  | .continuation, some p =>
    match p.extend? f.payload with
    | none => none
    | some p =>
      if f.isFinal then (Message.ofPayload? p.isText p.payload).map fun m => (some m, none)
      else some (none, some p)
  | _, some _ => none
  | kind, none =>
    let isText := kind = .text
    if f.isFinal then (Message.ofPayload? isText f.payload).map fun m => (some m, none)
    else ((⟨isText, []⟩ : Fragments).extend? f.payload).map fun p => (none, some p)

/-- Takes up a frame; nothing means that it breaks the rules. -/
def takeFrame? (pending : Option Fragments) (f : Frame) :
    Option (Option Message × Option Fragments) :=
  if !f.isMasked || f.reserved ≠ 0 then none
  else if f.kind.isControl then (Message.ofControl? f).map fun m => (some m, pending)
  else takeData? pending f

/-- What a reader finds next. -/
inductive Next where
  | message (m : Message)
  | violation
  /-- more bytes are needed -/
  | wait
deriving DecidableEq, Repr

/-- The next message of some bytes, the message that is to be continued, and what is left. Each
frame takes two bytes at least. -/
def nextMessage (pending : Option Fragments) : (steps : Nat) → List UInt8 →
    Next × Option Fragments × List UInt8
  | 0, bytes => (.wait, pending, bytes)
  | steps + 1, bytes =>
    match Frame.scan bytes with
    | .short => (.wait, pending, bytes)
    | .violation => (.violation, pending, bytes)
    | .frame f rest =>
      match takeFrame? pending f with
      | none => (.violation, pending, rest)
      | some (some m, pending) => (.message m, pending, rest)
      | some (none, pending) => nextMessage pending steps rest

end ChatRooms.Socket

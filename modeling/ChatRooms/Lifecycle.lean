import ChatRooms.Json.RowWriter
import ChatRooms.Wire.CloseCode

/-!
The life of a connection: connecting, joined, closed. It never goes back, and only the first close
sets the code. It is kept in two cells, one for the state and one for the code, so that whoever
shares the connection can close it.
-/

namespace ChatRooms

open ChatRooms.Json ChatRooms.Text

/-- Where a connection stands in its life. -/
inductive ConnectionState where
  | connecting
  | joined
  | closed
deriving DecidableEq, Repr

namespace ConnectionState

def name : ConnectionState → String
  | .connecting => "connecting"
  | .joined => "joined"
  | .closed => "closed"

/-- The byte that stands for a state in its cell. -/
def toByte : ConnectionState → UInt8
  | .connecting => 0
  | .joined => 1
  | .closed => 2

/-- The state that a byte stands for. -/
def ofByte (b : UInt8) : ConnectionState :=
  if b = 0 then .connecting else if b = 1 then .joined else .closed

def json (s : ConnectionState) : String := String.ofList (writeText s.name)

def ofName? (name : String) : Option ConnectionState :=
  if name = "connecting" then some .connecting
  else if name = "joined" then some .joined
  else if name = "closed" then some .closed
  else none

def readName (s : List Symbol) : Reading ConnectionState :=
  match readTextValue "variant identifier" s with
  | .error f => .error f
  | .ok (name, rest) =>
    match ofName? name with
    | some state => .ok (state, rest)
    | none =>
      .error (.behind (.unknownVariant name "one of `connecting`, `joined`, `closed`") rest)

/-- The empty content of a state that is written as an object. -/
def readUnit (s : List Symbol) : Reading Unit :=
  match skipSpace s with
  | [] => .error (.atNext .endInValue [])
  | x :: rest =>
    if x.is 'n' then readWord ['u', 'l', 'l'] rest else .error (wrongKind "unit" x rest)

/-- The name of a state as the key of an object, behind its opening brace. -/
def readKey (s : List Symbol) : Reading ConnectionState :=
  let s := skipSpace s
  match s with
  | [] => .error (.atNext .endInObject [])
  | x :: _ =>
    if x.is '"' then readName s
    else if x.is '\x7d' then .error (.atNext .expectedValue s)
    else .error (.atNext .keyNotString s)

/-- A state as an object, behind its opening brace. -/
def readObjectForm (s : List Symbol) : Except Fault (ConnectionState × List Symbol) := do
  let (state, rest) ← readKey s
  let ((), rest) ← readColon rest
  let ((), rest) ← readUnit rest
  match skipSpace rest with
  | [] => throw (.behind .endInObject [])
  | y :: rest' =>
    if y.is '\x7d' then pure (state, rest') else throw (.behind .expectedValue (y :: rest'))

/-- A state: its name, or an object with its name and no content. -/
def read (s : List Symbol) : Reading ConnectionState :=
  let s := skipSpace s
  match s with
  | [] => .error (.atNext .endInValue [])
  | x :: rest =>
    if x.is '\x7b' then readObjectForm rest
    else if x.is '"' then readName s
    else .error (.atNext .expectedValue s)

/-- The state that a text writes, or the message that tells what is wrong. -/
def decodeText (s : String) : Except String ConnectionState :=
  let symbols := Symbol.ofChars s.toList
  match readWhole read symbols with
  | .ok state => .ok state
  | .error f => .error (f.message symbols)

end ConnectionState

/-- The state of a connection and the code with which it was closed, which is the normal one until
then. -/
structure Lifecycle where
  state : ConnectionState
  closeCode : UInt16
deriving DecidableEq, Repr

namespace Lifecycle

/-- A connection that has not joined its room yet. -/
def fresh : Lifecycle := ⟨.connecting, CloseCode.normal⟩

/-- Goes from connecting to joined; nothing if the connection is not connecting. -/
def join? (l : Lifecycle) : Option Lifecycle :=
  if l.state = .connecting then some { l with state := .joined } else none

/-- Closes with a code; nothing if it is closed already. -/
def close? (l : Lifecycle) (code : UInt16) : Option Lifecycle :=
  if l.state = .closed then none else some ⟨.closed, code⟩

/-- The life after a close, which keeps the code of the first one. Closing counts as one step: that
somebody reads the code after the state has been exchanged and before the code is stored (see
`Cells.close`) is left out. -/
def closed (l : Lifecycle) (code : UInt16) : Lifecycle := (l.close? code).getD l

inductive Call where
  | join
  | close (code : UInt16)
deriving DecidableEq, Repr

/-- The answer to a call, which tells whether it changed the state, and the life after it. -/
def step (l : Lifecycle) : Call → Bool × Lifecycle
  | .join => (l.join?.isSome, l.join?.getD l)
  | .close code => ((l.close? code).isSome, l.closed code)

/-- The cells in which a life is kept. -/
structure Cells where
  state : UInt8
  closeCode : UInt16

namespace Cells

/-- The life that is read from the cells. -/
def life (c : Cells) : Lifecycle := ⟨.ofByte c.state, c.closeCode⟩

/-- Exchanges connecting for joined, if that is what the cell holds. -/
def join (c : Cells) : Bool × Cells :=
  if c.state = ConnectionState.connecting.toByte then
    (true, { c with state := ConnectionState.joined.toByte })
  else (false, c)

/-- Exchanges the state for closed, whatever the cell holds. The code is stored only if it held
something else. -/
def close (c : Cells) (code : UInt16) : Bool × Cells :=
  let exchanged := { c with state := ConnectionState.closed.toByte }
  if ConnectionState.ofByte c.state = .closed then (false, exchanged)
  else (true, { exchanged with closeCode := code })

def step (c : Cells) : Call → Bool × Cells
  | .join => c.join
  | .close code => c.close code

/-- Runs calls in order, with the answer to each and what is read from the cells after it. -/
def run (c : Cells) : List Call → List (Bool × Lifecycle)
  | [] => []
  | call :: calls => ((c.step call).1, (c.step call).2.life) :: run (c.step call).2 calls

end Cells

/-- The cells that keep a life. -/
def cells (l : Lifecycle) : Cells := ⟨l.state.toByte, l.closeCode⟩

/-- Runs calls in order, with the answer and the life after each. -/
def run (l : Lifecycle) (calls : List Call) : List (Bool × Lifecycle) := l.cells.run calls

end Lifecycle

end ChatRooms

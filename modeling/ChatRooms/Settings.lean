import ChatRooms.Decimal.Integer
import ChatRooms.Text.Blank
import ChatRooms.Text.Utf8
import ChatRooms.Time.Instant

/-!
The settings of the server, their defaults, and how variables of the environment change them. A
variable that cannot be read as a number of its type leaves the default.
-/

namespace ChatRooms

open ChatRooms.Text ChatRooms.Time

/-- What the server can be told. -/
structure Settings where
  /-- the directory that holds the data base -/
  dataDir : String
  /-- where to listen, at all addresses -/
  tcpPort : Nat
  /-- how many envelopes may wait for a connection -/
  outboundBuffer : Nat
  /-- the limit for each step of a handshake -/
  handshakeTimeoutMillis : Nat
  /-- the time between two pings -/
  pingIntervalMillis : Nat
  /-- the time without a frame after which a connection is given up -/
  idleTimeoutMillis : Nat
  /-- how long a session lasts, in milliseconds -/
  sessionMillis : Int
deriving DecidableEq, Repr

/-- The bytes of each variable that is set. -/
abbrev Environment := String → Option (List UInt8)

/-- The text of a variable that is set and is a text. -/
def Environment.text? (env : Environment) (name : String) : Option String :=
  (env name).bind Utf8.decode?

/-- The number in a variable, or the default. Blanks around it do not count. -/
def Environment.number {α : Type} (env : Environment) (name : String)
    (read : List Char → Option α) (default : α) : α :=
  match env.text? name with
  | none => default
  | some s => (read (trimList s.toList)).getD default

namespace Settings

/-- The settings without an environment. -/
def default : Settings :=
  { dataDir := "chat_data"
    tcpPort := 8088
    outboundBuffer := 256
    handshakeTimeoutMillis := 5000
    pingIntervalMillis := 10000
    idleTimeoutMillis := 25000
    sessionMillis := 30 * 86400000 }

def withDataDir (dataDir : String) : Settings := { default with dataDir }

def millisPerDay : Int := 86400000

/-- The greatest number of milliseconds of a session. -/
def maxMillis : Int := Int.pow 2 63 - 1

/-- The life of a session of so many days: nothing if it is too long to be counted, or if a session
that begins now would end at an instant that cannot be represented. -/
def sessionMillisOfDays? (now : Instant) (days : Int) : Option Int :=
  let millis := days * millisPerDay
  if -maxMillis ≤ millis ∧ millis ≤ maxMillis ∧ (now.addMillis? millis).isSome then some millis
  else none

/-- The settings under an environment, read at an instant. -/
def ofEnvironment (env : Environment) (now : Instant) : Settings :=
  { dataDir := (env.text? "CHAT_ROOT").getD default.dataDir
    tcpPort := env.number "PORT" (Decimal.readNat? (Nat.pow 2 16)) default.tcpPort
    outboundBuffer :=
      max 1 (env.number "CHAT_OUTBOUND_BUFFER" (Decimal.readNat? (Nat.pow 2 64))
        default.outboundBuffer)
    handshakeTimeoutMillis :=
      env.number "CHAT_HANDSHAKE_TIMEOUT_MS" (Decimal.readNat? (Nat.pow 2 64))
        default.handshakeTimeoutMillis
    pingIntervalMillis :=
      1000 * max 1 (env.number "CHAT_PING_INTERVAL_SECS" (Decimal.readNat? (Nat.pow 2 64))
        (default.pingIntervalMillis / 1000))
    idleTimeoutMillis :=
      1000 * max 1 (env.number "CHAT_IDLE_TIMEOUT_SECS" (Decimal.readNat? (Nat.pow 2 64))
        (default.idleTimeoutMillis / 1000))
    sessionMillis :=
      (sessionMillisOfDays? now
        (env.number "CHAT_SESSION_TTL_DAYS" (Decimal.readInt? (Nat.pow 2 63))
          (default.sessionMillis / millisPerDay))).getD default.sessionMillis }

/-- How long a session lasts, in nanoseconds. -/
def sessionNanos (s : Settings) : Int := s.sessionMillis * nanosPerMilli

/-- Where the server listens, as text. -/
def bindAddress (s : Settings) : String := s!"0.0.0.0:{s.tcpPort}"

/-- A file in a directory. -/
def joinPath (dir file : String) : String :=
  if dir.isEmpty then file
  else if dir.toList.getLast? = some '/' then dir ++ file
  else dir ++ "/" ++ file

def databasePath (s : Settings) : String := joinPath s.dataDir "chat.sqlite"

end Settings

end ChatRooms

import ChatRooms.Accounts.Password
import ChatRooms.Accounts.User
import ChatRooms.Table
import ChatRooms.Time.Reader
import ChatRooms.Wire.Bearer

/-!
Accounts: a table of users, a table of sessions, and a cache of sessions in front of the latter.
People sign up, log in to get a session, have sessions validated, and log out. Instants are stored
as text. Every look-up in a table fails while the tables are closed.
-/

namespace ChatRooms

open ChatRooms.Time

/-- A user as stored. -/
structure UserRow where
  id : String
  email : String
  username : String
  passwordHash : Password.Hash
  createdAt : String
  lastLogin : Option String
deriving DecidableEq, Repr

/-- A session as stored. -/
structure SessionRow where
  token : String
  userId : String
  createdAt : String
  expiresAt : String
deriving DecidableEq, Repr

/-- Why a call on accounts failed. -/
inductive AccountError where
  | emailTaken
  | hashFailed
  | invalidLogin
  | unreadableHash
  | lifetimeOutOfRange
  | invalidSession
  | invalidDate
  | userNotFound
  | keyTaken (column : String)
  | closed
deriving DecidableEq, Repr

def closedTablesMessage : String := "attempted to acquire a connection on a closed pool"

def AccountError.message : AccountError → String
  | .emailTaken => "Email already registered"
  | .hashFailed => "Failed to hash password"
  | .invalidLogin => "Invalid email or password"
  | .unreadableHash => "Failed to verify password"
  | .lifetimeOutOfRange => "Session lifetime out of range"
  | .invalidSession => "Invalid or expired session"
  | .invalidDate => "Invalid date"
  | .userNotFound => "User not found"
  | .keyTaken column =>
    s!"error returned from database: (code: 1555) UNIQUE constraint failed: {column}"
  | .closed => closedTablesMessage

/-- The users, the sessions, and the sessions that are remembered. -/
structure Accounts where
  users : List UserRow
  sessions : List SessionRow
  cache : Table String Session
  /-- how long a session lasts, in nanoseconds -/
  sessionNanos : Int
  /-- the cost of a new hash -/
  hashCost : Nat
  /-- the tables can be asked -/
  isOpen : Bool
deriving DecidableEq

namespace Accounts

def empty (sessionNanos : Int) (hashCost : Nat) : Accounts :=
  { users := [], sessions := [], cache := [], sessionNanos, hashCost, isOpen := true }

/-- The instant that a text writes, or the present one. -/
def instantOr (now : Instant) (text : String) : Instant := (Instant.read? text).getD now

/-- What may be shown of a stored user. -/
def UserRow.info (now : Instant) (row : UserRow) : UserInfo :=
  ⟨row.id, row.email, row.username, instantOr now row.createdAt⟩

def signup (a : Accounts) (now : Instant) (id email username password : String) :
    Except AccountError User × Accounts :=
  if !a.isOpen then (.error .closed, a)
  else if a.users.any (·.email = email) then (.error .emailTaken, a)
  else
    match Password.Hash.make? password a.hashCost with
    | none => (.error .hashFailed, a)
    | some hash =>
      if a.users.any (·.id = id) then (.error (.keyTaken "users.id"), a)
      else
        (.ok ⟨id, email, username, hash, now, none⟩,
          { a with users := a.users ++ [⟨id, email, username, hash, now.storedText, none⟩] })

def remember (a : Accounts) (session : Session) : Accounts :=
  { a with cache := a.cache.insert session.token session }

def forget (a : Accounts) (token : String) : Accounts :=
  { a with cache := a.cache.erase token }

/-- Stores a new session for a user. -/
def storeSession (a : Accounts) (now : Instant) (token userId : String) :
    Except AccountError Session × Accounts :=
  match now.addNanos? a.sessionNanos with
  | none => (.error .lifetimeOutOfRange, a)
  | some expiresAt =>
    if a.sessions.any (·.token = token) then (.error (.keyTaken "sessions.token"), a)
    else
      (.ok ⟨token, userId, now, expiresAt⟩,
        { a with
          sessions := a.sessions ++ [⟨token, userId, now.storedText, expiresAt.storedText⟩] })

/-- Makes a session for a user: it is stored, and then remembered. -/
def createSession (a : Accounts) (now : Instant) (token userId : String) :
    Except AccountError Session × Accounts :=
  match a.storeSession now token userId with
  | (.error e, a) => (.error e, a)
  | (.ok session, a) => (.ok session, a.remember session)

/-- Notes the time of a user's last login. -/
def touch (a : Accounts) (now : Instant) (userId : String) : Accounts :=
  { a with users := a.users.map fun row =>
      if row.id = userId then { row with lastLogin := some now.storedText } else row }

/-- Logs a user in. The clock is read twice: `now` is noted as the user's last login, and the
session begins at `sessionNow`. -/
def login (a : Accounts) (now sessionNow : Instant) (token email password : String) :
    Except AccountError (User × Session) × Accounts :=
  if !a.isOpen then (.error .closed, a)
  else
    match a.users.find? (·.email = email) with
    | none => (.error .invalidLogin, a)
    | some row =>
      match row.passwordHash.verify? password with
      | none => (.error .unreadableHash, a)
      | some false => (.error .invalidLogin, a)
      | some true =>
        match (a.touch now row.id).createSession sessionNow token row.id with
        | (.error e, a) => (.error e, a)
        | (.ok session, a) =>
          (.ok (⟨row.id, row.email, row.username, .untold, instantOr now row.createdAt,
            some now⟩, session), a)

def findUser (a : Accounts) (now : Instant) (userId : String) :
    Except AccountError (Option UserInfo) :=
  if !a.isOpen then .error .closed
  else .ok ((a.users.find? (·.id = userId)).map (UserRow.info now))

def getUser (a : Accounts) (now : Instant) (userId : String) : Except AccountError UserInfo :=
  match a.findUser now userId with
  | .error e => .error e
  | .ok none => .error .userNotFound
  | .ok (some user) => .ok user

/-- The session of a stored row. -/
def sessionOfRow (now : Instant) (row : SessionRow) : Except AccountError Session :=
  match Instant.read? row.expiresAt with
  | none => .error .invalidDate
  | some expiresAt => .ok ⟨row.token, row.userId, instantOr now row.createdAt, expiresAt⟩

def storedSession (a : Accounts) (now : Instant) (token : String) : Except AccountError Session :=
  if !a.isOpen then .error .closed
  else
    match a.sessions.find? (·.token = token) with
    | none => .error .invalidSession
    | some row => sessionOfRow now row

/-- The session of a token: the one that is remembered, or else the stored one, which is remembered
from then on. -/
def findSession (a : Accounts) (now : Instant) (token : String) :
    Except AccountError Session × Accounts :=
  match a.cache.get? token with
  | some session => (.ok session, a)
  | none =>
    match a.storedSession now token with
    | .error e => (.error e, a)
    | .ok session => (.ok session, a.remember session)

/-- The user of a session, unless it has expired. An expired session is forgotten, but stays stored.
-/
def grant (a : Accounts) (now : Instant) (token : String) (session : Session) :
    Except AccountError UserInfo × Accounts :=
  if session.expiresAt.notAfter now then (.error .invalidSession, a.forget token)
  else (a.getUser now session.userId, a)

/-- The user behind a token. -/
def validateSession (a : Accounts) (now : Instant) (token : String) :
    Except AccountError UserInfo × Accounts :=
  match a.findSession now token with
  | (.error e, a) => (.error e, a)
  | (.ok session, a) => a.grant now token session

def deleteSession (a : Accounts) (token : String) : Except AccountError Unit × Accounts :=
  if !a.isOpen then (.error .closed, a)
  else (.ok (), { a with sessions := a.sessions.filter (·.token ≠ token) })

/-- Ends a session: it is forgotten first, and then no longer stored. -/
def logout (a : Accounts) (token : String) : Except AccountError Unit × Accounts :=
  (a.forget token).deleteSession token

/-- The identity behind a token. Every failure means that the token is not accepted. -/
def validate (a : Accounts) (now : Instant) (token : String) :
    Except ChatError Identity × Accounts :=
  match a.validateSession now token with
  | (.ok user, a) => (.ok user.identity, a)
  | (.error _, a) => (.error .unauthorized, a)

/-- The same tables under a new process, which remembers no session. -/
def restart (a : Accounts) : Accounts := { a with cache := [], isOpen := true }

/-- The tables can no longer be asked. -/
def close (a : Accounts) : Accounts := { a with isOpen := false }

end Accounts

end ChatRooms

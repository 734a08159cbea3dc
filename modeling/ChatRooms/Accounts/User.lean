import ChatRooms.Accounts.Password
import ChatRooms.Wire.Frame

/-!
Users and sessions. A user's record holds the hash of the password; what others see of a user does
not.
-/

namespace ChatRooms

open ChatRooms.Json ChatRooms.Time

/-- What may be shown of a user. -/
structure UserInfo where
  id : String
  email : String
  username : String
  createdAt : Instant
deriving DecidableEq

namespace UserInfo

abbrev schema : Schema :=
  ⟨"UserInfo", [⟨"id", .text⟩, ⟨"email", .text⟩, ⟨"username", .text⟩, ⟨"created_at", .instant⟩]⟩

def ofRow : Row schema.fields → UserInfo
  | (id, email, username, createdAt, ()) => ⟨id, email, username, createdAt⟩

def toRow (u : UserInfo) : Row schema.fields := (u.id, u.email, u.username, u.createdAt, ())

def json (u : UserInfo) : String := String.ofList (schema.write u.toRow)

/-- The identity under which a user sends messages. -/
def identity (u : UserInfo) : Identity := ⟨u.id, u.username⟩

end UserInfo

structure User where
  id : String
  email : String
  username : String
  passwordHash : Password.Hash
  createdAt : Instant
  lastLogin : Option Instant
deriving DecidableEq

namespace User

abbrev schema : Schema :=
  ⟨"User", [⟨"id", .text⟩, ⟨"email", .text⟩, ⟨"username", .text⟩, ⟨"password_hash", .text⟩,
    ⟨"created_at", .instant⟩, ⟨"last_login", .optionalInstant⟩]⟩

/-- The fields of a user that are written. -/
abbrev shownFields : List Field :=
  [⟨"id", .text⟩, ⟨"email", .text⟩, ⟨"username", .text⟩, ⟨"created_at", .instant⟩,
    ⟨"last_login", .optionalInstant⟩]

def ofRow : Row schema.fields → User
  | (id, email, username, passwordHash, createdAt, lastLogin, ()) =>
    ⟨id, email, username, .foreign passwordHash, createdAt, lastLogin⟩

def json (u : User) : String :=
  String.ofList (writeObject
    (rowMembers shownFields (u.id, u.email, u.username, u.createdAt, u.lastLogin, ())))

def info (u : User) : UserInfo := ⟨u.id, u.email, u.username, u.createdAt⟩

end User

/-- A login that lasts until it expires or is ended. -/
structure Session where
  token : String
  userId : String
  createdAt : Instant
  expiresAt : Instant
deriving DecidableEq

namespace Session

abbrev schema : Schema :=
  ⟨"Session", [⟨"token", .text⟩, ⟨"user_id", .text⟩, ⟨"created_at", .instant⟩,
    ⟨"expires_at", .instant⟩]⟩

def ofRow : Row schema.fields → Session
  | (token, userId, createdAt, expiresAt, ()) => ⟨token, userId, createdAt, expiresAt⟩

def toRow (s : Session) : Row schema.fields := (s.token, s.userId, s.createdAt, s.expiresAt, ())

def json (s : Session) : String := String.ofList (schema.write s.toRow)

end Session

end ChatRooms

import ChatRooms.Json.RowWriter

/-!
The bodies of requests, and of the answers that no other type stands for.
-/

namespace ChatRooms.Http

open ChatRooms.Json

structure RegisterRequest where
  email : String
  username : String
  password : String
deriving DecidableEq, Repr

namespace RegisterRequest

abbrev schema : Schema :=
  ⟨"RegisterRequest", [⟨"email", .text⟩, ⟨"username", .text⟩, ⟨"password", .text⟩]⟩

def ofRow : Row schema.fields → RegisterRequest
  | (email, username, password, ()) => ⟨email, username, password⟩

end RegisterRequest

structure LoginRequest where
  email : String
  password : String
deriving DecidableEq, Repr

namespace LoginRequest

abbrev schema : Schema := ⟨"LoginRequest", [⟨"email", .text⟩, ⟨"password", .text⟩]⟩

def ofRow : Row schema.fields → LoginRequest
  | (email, password, ()) => ⟨email, password⟩

end LoginRequest

structure CreateRoomRequest where
  roomId : String
deriving DecidableEq, Repr

namespace CreateRoomRequest

abbrev schema : Schema := ⟨"CreateRoomRequest", [⟨"room_id", .text⟩]⟩

def ofRow : Row schema.fields → CreateRoomRequest
  | (roomId, ()) => ⟨roomId⟩

end CreateRoomRequest

def registeredBody (userId username : String) : String :=
  String.ofList (writeObject [("user_id", writeText userId), ("username", writeText username)])

def loggedInBody (token userId username : String) : String :=
  String.ofList (writeObject
    [("token", writeText token), ("user_id", writeText userId), ("username", writeText username)])

def createdRoomBody (roomId : String) : String :=
  String.ofList (writeObject [("room_id", writeText roomId)])

end ChatRooms.Http

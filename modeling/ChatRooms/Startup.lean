import ChatRooms.Settings
import ChatRooms.Storage.DatabaseUrl
import ChatRooms.Storage.Disk

/-!
Starting the server: the data directory is made, the data base is opened, and its tables are created
unless they are there. Each step can fail in its own words.
-/

namespace ChatRooms

open ChatRooms.Text ChatRooms.Storage

/-- Why the server does not start. -/
inductive StartupError where
  | directory (path : String)
  | url (error : UrlError)
  | database (path : String)
  | table (name : TableName)
deriving DecidableEq, Repr

/-- The words for a failed start. -/
def StartupError.message : StartupError → String
  | .directory path => s!"Failed to create {Quoted.quotePath path}"
  | .url error => error.message
  | .database path => s!"Failed to open database at {Quoted.quotePath path}"
  | .table name => s!"Failed to create {name.text} table"

/-- A server that has started: the accounts, the rooms, and the place of the data base. -/
structure Started where
  accounts : Accounts
  rooms : RoomBook
  place : Place
deriving DecidableEq

namespace Startup

/-- The cost of password hashes. -/
def hashCost : Nat := 12

/-- The tables in the order in which they are created. -/
def tables : List TableName := [.users, .sessions, .rooms]

/-- The first table that cannot be created. -/
def blockedTable? (d : Database) : Option TableName := tables.find? d.indexes.contains

/-- Where the settings put the data base, and how it is opened. -/
def options (s : Settings) : Except UrlError OpenOptions :=
  OpenOptions.ofUrl (databaseUrl s.databasePath)

/-- Starts the server in a working directory of a disk. That a file is no data base shows when the
first table is created. -/
def initialise (s : Settings) (workingDirectory : Place) (disk : Disk) :
    Except StartupError Started × Disk :=
  match disk.makeDirectories workingDirectory s.dataDir with
  | none => (.error (.directory s.dataDir), disk)
  | some disk =>
    match options s with
    | .error e => (.error (.url e), disk)
    | .ok o =>
      if o.fileSystem.isSome then (.error (.database s.databasePath), disk)
      else
        let place := Place.ofPath workingDirectory o.path
        match disk.openDatabase place with
        | none => (.error (.database s.databasePath), disk)
        | some (.unreadable, disk) => (.error (.table .users), disk)
        | some (.database database, disk) =>
          match blockedTable? database with
          | some name => (.error (.table name), disk)
          | none =>
            let accounts : Accounts :=
              { Accounts.empty s.sessionNanos hashCost with
                users := database.users, sessions := database.sessions }
            (.ok ⟨accounts, ⟨database.rooms, true⟩, place⟩, disk)

/-- Writes the tables of a started server back to its disk. -/
def save (s : Started) (disk : Disk) : Disk :=
  disk.save s.place ⟨s.accounts.users, s.accounts.sessions, s.rooms.rows, []⟩

end Startup

end ChatRooms

import ChatRooms.Table
import ChatRooms.Rooms.Book
import ChatRooms.Text.Utf8

/-!
The part of a disk that matters to the server: directories, and files that are data bases or are
not; there are no links. A path is read part by part, from the top if it begins with a slash, and
else from the working directory. Empty parts and `.` stand for nothing, and `..` for the directory
above.

A data base is opened under its path as it is. It is assumed that no path is taken for a URI, as
SQLite can be told to do with names that begin with `file:`.
-/

namespace ChatRooms.Storage

open ChatRooms.Text

/-- The parts of a path between its slashes. -/
def pathParts (path : List Char) : List String :=
  ((path.splitBy fun a b => a != '/' && b != '/').filter (· ≠ ['/'])).map String.ofList

/-- The path is read from the top, and not from the working directory. -/
def isAbsolute (path : List Char) : Bool := path.head? = some '/'

/-- A place on a disk: the names from the top down. -/
abbrev Place := List String

namespace Place

/-- Where a path begins. -/
def start (workingDirectory : Place) (path : List Char) : Place :=
  if isAbsolute path then [] else workingDirectory

/-- The place to which one more part of a path leads. -/
def walk (place : Place) (part : String) : Place :=
  if part = "." then place else if part = ".." then place.dropLast else place ++ [part]

/-- The place to which a path leads. -/
def ofPath (workingDirectory : Place) (path : String) : Place :=
  (pathParts path.toList).foldl walk (start workingDirectory path.toList)

end Place

/-- The tables of the data base. -/
inductive TableName where
  | users
  | sessions
  | rooms
deriving DecidableEq, Repr

/-- The name of a table. -/
def TableName.text : TableName → String
  | .users => "users"
  | .sessions => "sessions"
  | .rooms => "rooms"

/-- What a data base holds. An index may have the name of a table, which then cannot be created. -/
structure Database where
  users : List UserRow
  sessions : List SessionRow
  rooms : List RoomRow
  indexes : List TableName
deriving DecidableEq, Repr

/-- A data base without rows. -/
def Database.empty : Database := ⟨[], [], [], []⟩

/-- What stands at a place. -/
inductive Item where
  | directory
  | database (d : Database)
  /-- a file that is no data base -/
  | other
deriving DecidableEq, Repr

/-- What a file that has been opened as a data base turns out to be. Opening does not look into it.
-/
inductive Content where
  | database (d : Database)
  | unreadable
deriving DecidableEq, Repr

/-- The number of bytes of the full path of a place. -/
def Place.pathLength (place : Place) : Nat :=
  place.foldl (fun n name => n + 1 + (Utf8.encode name.toList).length) 0

/-- The items on a disk. The top is a directory. -/
abbrev Disk := Table Place Item

namespace Disk

/-- What stands at a place. -/
def item? (d : Disk) (place : Place) : Option Item :=
  if place.isEmpty then some .directory else Table.get? d place

/-- The greatest number of bytes of a name. -/
def maxNameLength : Nat := 255

/-- The name can be given to an item. -/
def isName (name : String) : Bool :=
  (Utf8.encode name.toList).length ≤ maxNameLength && !name.toList.contains '\x00'

/-- The greatest number of bytes of a path. -/
def maxPathLength : Nat := 4095

/-- The greatest number of bytes of the full path of a data base. -/
def maxDatabaseLength : Nat := 504

/-- Makes a directory in one that is there, unless it is there itself. Nothing if its name cannot be
given, or if something else stands in its place. -/
def makeDirectory (d : Disk) (place : Place) : Option Disk :=
  match item? d place with
  | some .directory => some d
  | some _ => none
  | none => if place.all isName then some (Table.insert d place .directory) else none

/-- Makes the directories to which the parts of a path lead, one after the other. -/
def makeAlong (d : Disk) (place : Place) : List String → Option Disk
  | [] => some d
  | part :: rest =>
    match makeDirectory d (place.walk part) with
    | none => none
    | some d => makeAlong d (place.walk part) rest

/-- Makes the directory of a path and all directories on the way. Nothing if the path is too long or
one of them cannot be made. A directory is not made under its own `.`: one whose path ends so must
be there. -/
def makeDirectories (d : Disk) (workingDirectory : Place) (path : String) : Option Disk :=
  let cs := path.toList
  let start := Place.start workingDirectory cs
  let parts := pathParts cs
  let names := parts.filter (· ≠ ".")
  if maxPathLength < (Utf8.encode cs).length then none
  else if parts.getLast? = some "." then
    match makeAlong d start names.dropLast with
    | none => none
    | some d => if item? d (names.foldl Place.walk start) = some .directory then some d else none
  else makeAlong d start names

/-- Opens the data base at a place, or creates it in a directory that is there. -/
def openDatabase (d : Disk) (place : Place) : Option (Content × Disk) :=
  if maxDatabaseLength < place.pathLength then none
  else
    match item? d place with
    | some (.database content) => some (.database content, d)
    | some .other => some (.unreadable, d)
    | some .directory => none
    | none =>
      if place.all isName && item? d place.dropLast = some .directory then
        some (.database .empty, Table.insert d place (.database .empty))
      else none

/-- Writes back a data base. -/
def save (d : Disk) (place : Place) (content : Database) : Disk :=
  Table.insert d place (.database content)

end Disk

end ChatRooms.Storage

import ChatRooms.Text.Percent
import ChatRooms.Text.Quoted

/-!
The URL under which the data base is opened. Behind the scheme stands the path, in which escapes are
decoded; the first `?` ends it and begins the parameters.
-/

namespace ChatRooms.Storage

open ChatRooms.Text

/-- The URL of the data base at a path. The path is written as it is. -/
def databaseUrl (path : String) : String := "sqlite:" ++ path

/-- What is wrong with a URL. -/
inductive UrlError where
  /-- the path is no text from so many bytes on, which are a faulty run or are cut off -/
  | invalidPath (index : Nat) (size : Option Nat)
  | unknownParameter (name : String)
  | unknownValue (value parameter : String)
deriving DecidableEq, Repr

/-- The words for a faulty URL. -/
def UrlError.message : UrlError → String
  | .invalidPath index (some size) =>
    s!"error with configuration: invalid utf-8 sequence of {size} bytes from index {index}"
  | .invalidPath index none =>
    s!"error with configuration: incomplete utf-8 byte sequence from index {index}"
  | .unknownParameter name =>
    s!"error with configuration: unknown query parameter `{name}` while parsing connection URL"
  | .unknownValue value parameter =>
    s!"error with configuration: unknown value {Quoted.quote value} for `{parameter}`"

/-- How a data base is opened. -/
structure OpenOptions where
  path : String
  /-- a driver for files that is asked for by name -/
  fileSystem : Option String
deriving DecidableEq, Repr

/-- The text without any number of copies of `start` at its beginning; `steps` bounds their number.
-/
def dropRepeated (start : List Char) : (steps : Nat) → List Char → List Char
  | 0, s => s
  | steps + 1, s =>
    if start.isPrefixOf s then dropRepeated start steps (s.drop start.length) else s

/-- Takes up one parameter of a URL. Only those are known that choose how to open. -/
def OpenOptions.set (o : OpenOptions) (name value : String) : Except UrlError OpenOptions :=
  if name = "mode" then
    if ["ro", "rw", "rwc", "memory"].contains value then .ok o
    else .error (.unknownValue value name)
  else if name = "cache" then
    if ["private", "shared"].contains value then .ok o else .error (.unknownValue value name)
  else if name = "immutable" then
    if ["true", "1", "false", "0"].contains value then .ok o
    else .error (.unknownValue value name)
  else if name = "vfs" then .ok { o with fileSystem := some value }
  else .error (.unknownParameter name)

/-- How a URL says to open a data base. -/
def OpenOptions.ofUrl (url : String) : Except UrlError OpenOptions :=
  let cs := url.toList
  let cs := dropRepeated "sqlite:".toList cs.length cs
  let cs := dropRepeated "//".toList cs.length cs
  let path := cs.takeWhile (· ≠ '?')
  let query := (cs.dropWhile (· ≠ '?')).drop 1
  let bytes := Percent.decode (Utf8.encode path)
  match Utf8.firstFault? bytes with
  | some (index, size) => .error (.invalidPath index size)
  | none =>
    let path := Utf8.lenient bytes
    (Percent.formPairs (Utf8.encode query)).foldlM (fun o pair => o.set pair.1 pair.2)
      ⟨path, none⟩

end ChatRooms.Storage

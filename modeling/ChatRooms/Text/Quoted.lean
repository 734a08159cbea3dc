import ChatRooms.Text.Hex
import ChatRooms.Text.Unprintable

/-!
Quoted texts, as they stand in messages: in double quotes, with short escapes for the usual control
characters, and with `\u` and a number in braces for every other character without a glyph. Paths of
files are quoted in the same way, but for the single quote, which gets a backslash there.
-/

namespace ChatRooms.Text.Quoted

/-- How one character of a quoted text is shown. -/
def showChar (c : Char) : List Char :=
  if c = '\x00' then ['\\', '0']
  else if c = '\t' then ['\\', 't']
  else if c = '\r' then ['\\', 'r']
  else if c = '\n' then ['\\', 'n']
  else if c = '"' then ['\\', '"']
  else if c = '\\' then ['\\', '\\']
  else if Unprintable.isUnprintable c then
    ['\\', 'u', '\x7b'] ++ (Hex.ofNat c.toNat).toList ++ ['\x7d']
  else [c]

def quote (s : String) : String :=
  String.ofList ('"' :: (s.toList.flatMap showChar ++ ['"']))

/-- How one character of a quoted path is shown. -/
def showPathChar (c : Char) : List Char :=
  if c = '\x27' then ['\\', '\x27'] else showChar c

/-- The path of a file in double quotes. -/
def quotePath (s : String) : String :=
  String.ofList ('"' :: (s.toList.flatMap showPathChar ++ ['"']))

end ChatRooms.Text.Quoted

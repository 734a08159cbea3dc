import ChatRooms.Json.Record
import ChatRooms.Json.Writer
import ChatRooms.Time.Writer

/-!
Writing records as objects with all fields in their order.
-/

namespace ChatRooms.Json

def writeKind : (k : Kind) → k.Carrier → Written
  | .text, s => writeText s
  | .optionalText, s => writeOptional writeText s
  | .instant, t => '"' :: (t.chars .letter ++ ['"'])
  | .optionalInstant, t => writeOptional (fun t => '"' :: (t.chars .letter ++ ['"'])) t
  | .count, n => writeNat n

def rowMembers : (fs : List Field) → Row fs → List (String × Written)
  | [], () => []
  | f :: fs, (v, row) => (f.name, writeKind f.kind v) :: rowMembers fs row

/-- A row as an object. -/
def Schema.write (c : Schema) (row : Row c.fields) : Written :=
  writeObject (rowMembers c.fields row)

end ChatRooms.Json

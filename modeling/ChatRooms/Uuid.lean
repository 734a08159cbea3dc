import ChatRooms.Text.Hex

/-!
Identifiers of 128 bits. They are read with hyphens, without, in braces or as a URN, and written in
lower case with hyphens.
-/

namespace ChatRooms

open ChatRooms.Text

structure Uuid where
  value : BitVec 128
deriving DecidableEq, Repr, Hashable

namespace Uuid

/-- The digits of an identifier, in groups of eight, four, four, four and twelve. -/
def toString (u : Uuid) : String :=
  let digits := (List.range 32).map fun i => Hex.digit ((u.value.toNat >>> (4 * (31 - i))) % 16)
  let group (start size : Nat) := (digits.drop start).take size
  String.ofList (group 0 8 ++ '-' :: group 8 4 ++ '-' :: group 12 4 ++ '-' :: group 16 4 ++
    '-' :: group 20 12)

instance : ToString Uuid := ⟨toString⟩

private def readDigits (n : Nat) : List Char → Option Nat
  | [] => some n
  | c :: rest =>
    match Hex.digit? c with
    | some d => readDigits (n * 16 + d) rest
    | none => none

/-- The identifier that thirty-two digits write. -/
def ofDigits? (s : List Char) : Option Uuid :=
  if s.length = 32 then (readDigits 0 s).map fun n => ⟨BitVec.ofNat 128 n⟩ else none

/-- The identifier that five groups of digits with hyphens between them write. -/
def ofHyphenated? (s : List Char) : Option Uuid :=
  let at' (i : Nat) := s[i]? == some '-'
  if s.length = 36 && at' 8 && at' 13 && at' 18 && at' 23 then
    ofDigits? (s.filter (· != '-'))
  else none

/-- The beginning of an identifier that is written as a URN, in any case. -/
def urnStart : List Char := "urn:uuid:".toList

/-- The identifier that a text writes in one of the four forms; only the plain digits may go without
hyphens. -/
def ofString? (s : String) : Option Uuid :=
  let cs := s.toList
  if cs.length = 32 then ofDigits? cs
  else if cs.length = 38 && cs.head? == some '\x7b' && cs.getLast? == some '\x7d' then
    ofHyphenated? (cs.tail.dropLast)
  else if (cs.take urnStart.length).map Char.toLower = urnStart then
    ofHyphenated? (cs.drop urnStart.length)
  else ofHyphenated? cs

end Uuid

end ChatRooms

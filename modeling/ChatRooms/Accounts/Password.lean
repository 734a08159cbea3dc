import ChatRooms.Text.Utf8
import ChatRooms.Decimal.Integer
import ChatRooms.Digest.Blowfish

/-!
Passwords and their hashes. The key of a password is its bytes and a NUL, cut after 72 bytes and
repeated to fill them; a hash accepts exactly the passwords with its key. Hashes from elsewhere are
texts, of which only those of the right form can be compared with a password.
-/

namespace ChatRooms.Password

open ChatRooms.Text

def keyLength : Nat := 72

/-- The bytes that a key repeats. -/
def keyUnit (password : String) : List UInt8 :=
  (Utf8.encode password.toList ++ [0]).take keyLength

def key (password : String) : List UInt8 :=
  let unit := keyUnit password
  (List.range keyLength).map fun i => unit.getD (i % unit.length) 0

/-- The least and the greatest cost of a hash. -/
def isCost (cost : Nat) : Bool := 4 ≤ cost && cost ≤ 31

/-- A stored hash: one that was made here from a key, or a text from elsewhere. -/
inductive Hash where
  | made (cost : Nat) (key : List UInt8)
  | foreign (text : String)
deriving DecidableEq, Repr

namespace Hash

/-- The hash of a password; nothing if the cost is out of bounds. -/
def make? (password : String) (cost : Nat) : Option Hash :=
  if isCost cost then some (.made cost (key password)) else none

/-- The alphabet of salts and digests. -/
def alphabet : List Char :=
  "./ABCDEFGHIJKLMNOPQRSTUVWXYZabcdefghijklmnopqrstuvwxyz0123456789".toList

/-- The characters write whole bytes: all are in the alphabet, and the bits that are left over at
the end are zero. -/
def writesBytes (s : List Char) : Bool :=
  s.all alphabet.contains &&
    match s.getLast? with
    | none => true
    | some c => (alphabet.idxOf c) % Nat.pow 2 (6 * s.length % 8) = 0

/-- The bytes that characters write, six bits each. -/
def bytes (s : List Char) : List UInt8 :=
  let value := s.foldl (fun n c => n * 64 + alphabet.idxOf c) 0
  let count := 6 * s.length / 8
  (List.range count).map fun i => UInt8.ofNat (value >>> (6 * s.length - 8 * (i + 1)))

def parts (text : String) : List (List Char) :=
  (text.toList.splitBy fun a b => a != '$' && b != '$').filter fun part => part != ['$']

structure Parts where
  cost : Nat
  salt : List UInt8
  digest : List UInt8
deriving DecidableEq, Repr

/-- The parts of a text in the form of a hash: a version, a cost, and a salt of 22 characters with a
digest of 31 behind it. -/
def Parts.ofText? (text : String) : Option Parts :=
  match parts text with
  | [version, cost, rest] =>
    let salt := rest.take 22
    let digest := rest.drop 22
    match Decimal.readNat? (Nat.pow 2 32) cost with
    | none => none
    | some cost =>
      if ["2a", "2b", "2x", "2y"].contains (String.ofList version) && isCost cost &&
          (Utf8.encode rest).length = 53 && writesBytes salt && writesBytes digest then
        some ⟨cost, bytes salt, bytes digest⟩
      else none
  | _ => none

/-- Whether a hash accepts a password; nothing if it cannot be compared with one. -/
def verify? (password : String) : Hash → Option Bool
  | .made _ k => some (k = key password)
  | .foreign text => (Parts.ofText? text).map fun p =>
      Digest.Blowfish.digest p.cost p.salt (key password) = p.digest

/-- What stands for the hash of a user to whom it is not told. -/
def untold : Hash := .foreign ""

/-- The number of bytes of the text of a hash. -/
def length : Hash → Nat
  | .made .. => 60
  | .foreign text => (Utf8.encode text.toList).length

/-- The text of a hash, as far as it is known: one that is made here begins with its cost in two
digits. -/
def start : Hash → String
  | .made cost _ => "$2b$" ++ (if cost < 10 then "0" else "") ++ toString cost ++ "$"
  | .foreign text => text

end Hash

end ChatRooms.Password

import ChatRooms.Http.Message
import ChatRooms.Text.Percent

/-!
The head of a request as it comes over a connection: a line with the method, the target and the
version, and a line for each header, up to an empty line. A line ends in a line feed, before which a
carriage return may stand. A head that is faulty or too large is refused with a status.
-/

namespace ChatRooms.Http

open ChatRooms.Text

namespace Head

def maxLength : Nat := 417792

def maxHeaders : Nat := 100

/-! ### Lines -/

/-- The lines of some bytes, each without its end. What follows the last line feed is no line. -/
def lines (bytes : List UInt8) : List (List UInt8) :=
  let (_, ended) := bytes.foldl (fun (begun, ended) b =>
    if b == 0x0A then
      ([], (match begun with | 0x0D :: begun => begun.reverse | _ => begun.reverse) :: ended)
    else (b :: begun, ended)) (([] : List UInt8), ([] : List (List UInt8)))
  ended.reverse

def token? (bytes : List UInt8) : Option String :=
  (Utf8.decode? bytes).filter isToken

/-- The byte may stand in a target, as far as its line can tell. -/
def isTargetByte (b : UInt8) : Bool := 0x20 < b && b != 0x7F

/-- The method and the target in the first line, which ends in the version 1.1. -/
def requestLine? (line : List UInt8) : Option (String × List UInt8) := do
  let (method, rest) := Percent.cutAt 0x20 line
  let (target, version) := Percent.cutAt 0x20 rest
  let method ← token? method
  if !target.isEmpty && target.all isTargetByte && version == Utf8.encode "HTTP/1.1".toList then
    pure (method, target)
  else none

/-- The bytes without blanks and tabs at both ends. -/
def trim (bytes : List UInt8) : List UInt8 :=
  let drop (bytes : List UInt8) := bytes.dropWhile fun b => b == 0x20 || b == 0x09
  (drop (drop bytes).reverse).reverse

/-- The header in a line: its name, a colon, and its value, around which blanks do not count. -/
def header? (line : List UInt8) : Option Header := do
  let name ← token? (line.takeWhile (· != 0x3A))
  match line.dropWhile (· != 0x3A) with
  | [] => none
  | _ :: value => if value.all isValueByte then pure ⟨name.toLower, trim value⟩ else none

/-- The headers in the lines up to the empty one, of which there may be so many. -/
def headers (room : Nat) : List (List UInt8) → Except Nat (List Header)
  | [] => .error 400
  | [] :: _ => .ok []
  | line :: rest =>
    match header? line with
    | none => .error 400
    | some h =>
      match room with
      | 0 => .error 431
      | room + 1 => (headers room rest).map (h :: ·)

/-! ### The length of the body -/

/-- What the headers so far tell of the body: whether a coding is named, whether the last coding is
the one in chunks, and the length. -/
structure Framing where
  isCoded : Bool
  isChunked : Bool
  length : Option Nat
deriving DecidableEq, Repr

def maxBodyLength : Nat := Nat.pow 2 64 - 3

/-- The length that a header writes, in digits alone and in 64 bits. -/
def length? (value : List UInt8) : Option Nat :=
  let n := value.foldl (fun n b => 10 * n + (b.toNat - 0x30)) 0
  if !value.isEmpty && value.all (fun b => 0x30 ≤ b && b ≤ 0x39) && n < Nat.pow 2 64 then some n
  else none

/-- The last of the codings that a header names is the one in chunks. -/
def endsInChunks (value : List UInt8) : Bool :=
  let last := (value.reverse.takeWhile (· != 0x2C)).reverse
  value.all (fun b => b < 0x80) && (trim last).map lowerByte == Utf8.encode "chunked".toList

/-- Takes up one header. A length behind a coding does not count, and two lengths must agree. -/
def Framing.next (f : Framing) (h : Header) : Except Nat Framing :=
  if h.name = "transfer-encoding" then
    .ok { f with isCoded := true, isChunked := endsInChunks h.value }
  else if h.name = "content-length" && !f.isCoded then
    match length? h.value, f.length with
    | none, _ => .error 400
    | some n, some m => if n = m then .ok f else .error 400
    | some n, none => if n ≤ maxBodyLength then .ok { f with length := some n } else .error 431
  else .ok f

/-- The headers tell where the body ends. -/
def isFramed (headers : List Header) : Except Nat Unit :=
  match headers.foldlM Framing.next ⟨false, false, none⟩ with
  | .error status => .error status
  | .ok f => if f.isCoded && !f.isChunked then .error 400 else .ok ()

end Head

/-- The request of a head, or the status that refuses it. -/
def Request.ofHead (bytes : List UInt8) : Except Nat Request := do
  if Head.maxLength < bytes.length then throw 431
  match (Head.lines bytes).dropWhile List.isEmpty with
  | [] => throw 400
  | first :: rest =>
    match Head.requestLine? first with
    | none => throw 400
    | some (method, target) =>
      let headers ← Head.headers Head.maxHeaders rest
      if Target.maxLength < target.length then throw 414
      match Target.ofBytes? target with
      | none => throw 400
      | some target =>
        Head.isFramed headers
        pure ⟨method, target, headers, []⟩

end ChatRooms.Http

import ChatRooms.Text.Utf8

/-!
Frames on a socket: two bytes with the kind and the length, a longer length if needed, a mask, and
the payload. A server reads masked frames and writes plain ones.
-/

namespace ChatRooms.Socket

inductive Kind where
  | continuation
  | text
  | binary
  | close
  | ping
  | pong
deriving DecidableEq, Repr

namespace Kind

def code : Kind → Nat
  | .continuation => 0
  | .text => 1
  | .binary => 2
  | .close => 8
  | .ping => 9
  | .pong => 10

/-- The kind of a number; the other numbers are reserved. -/
def ofCode? : Nat → Option Kind
  | 0 => some .continuation
  | 1 => some .text
  | 2 => some .binary
  | 8 => some .close
  | 9 => some .ping
  | 10 => some .pong
  | _ => none

/-- Control frames stand alone, also between the parts of a message. -/
def isControl : Kind → Bool
  | .close | .ping | .pong => true
  | _ => false

end Kind

/-- A frame with its payload unmasked. -/
structure Frame where
  kind : Kind
  isFinal : Bool
  /-- bits that are zero unless both sides agreed on their use -/
  reserved : Nat
  isMasked : Bool
  payload : List UInt8
deriving DecidableEq, Repr

def bigEndian (bytes : List UInt8) : Nat := bytes.foldl (fun n b => n * 256 + b.toNat) 0

/-- The lowest `n` bytes of a number, the highest first. -/
def bigEndianBytes : (n : Nat) → Nat → List UInt8
  | 0, _ => []
  | n + 1, x => bigEndianBytes n (x / 256) ++ [UInt8.ofNat (x % 256)]

/-- Applies a mask, which is its own inverse. -/
def applyMask (mask : List UInt8) (payload : List UInt8) : List UInt8 :=
  match mask with
  | [a, b, c, d] => payload.mapIdx fun i x =>
      x ^^^ (if i % 4 = 0 then a else if i % 4 = 1 then b else if i % 4 = 2 then c else d)
  | _ => payload

/-- The bytes that announce a length, the first of them without the mask bit. -/
def lengthBytes (n : Nat) : List UInt8 :=
  if n < 126 then [UInt8.ofNat n]
  else if n < 65536 then 126 :: bigEndianBytes 2 n
  else 127 :: bigEndianBytes 8 n

namespace Frame

/-- The bytes of a frame that is masked. -/
def encodeMasked (kind : Kind) (mask payload : List UInt8) : List UInt8 :=
  match lengthBytes payload.length with
  | first :: more =>
    UInt8.ofNat (128 + kind.code) :: (first + 128) :: (more ++ mask ++ applyMask mask payload)
  | [] => []

/-- The number of bytes of a plain frame with a payload of `n` bytes. -/
def plainSize (n : Nat) : Nat := 1 + (lengthBytes n).length + n

def maxPayload : Nat := 16777216

/-- What stands at the beginning of some bytes. -/
inductive Scan where
  /-- a frame, and what is left behind it -/
  | frame (f : Frame) (rest : List UInt8)
  /-- the beginning of a frame -/
  | short
  /-- something that no frame begins with -/
  | violation
deriving DecidableEq, Repr

/-- The bytes up to `n`, and what is left; nothing if there are not so many. -/
def cut? (n : Nat) (bytes : List UInt8) : Option (List UInt8 × List UInt8) :=
  let head := bytes.take n
  if head.length = n then some (head, bytes.drop n) else none

/-- The length of a payload, behind the byte that announces it. -/
def scanLength (announced : Nat) (bytes : List UInt8) : Option (Nat × List UInt8) :=
  if announced < 126 then some (announced, bytes)
  else (cut? (if announced = 126 then 2 else 8) bytes).map fun (b, rest) => (bigEndian b, rest)

/-- Reads the frame at the beginning of some bytes. A reserved kind and a payload that is too long
are noticed as soon as the header is there. -/
def scan (bytes : List UInt8) : Scan :=
  match bytes with
  | first :: second :: rest =>
    match scanLength (second.toNat % 128) rest with
    | none => .short
    | some (length, rest) =>
      let isMasked := 128 ≤ second
      match cut? (if isMasked then 4 else 0) rest with
      | none => .short
      | some (mask, rest) =>
        match Kind.ofCode? (first.toNat % 16) with
        | none => .violation
        | some kind =>
          if maxPayload < length then .violation
          else
            match cut? length rest with
            | none => .short
            | some (payload, rest) =>
              .frame ⟨kind, 128 ≤ first, first.toNat / 16 % 8, isMasked, applyMask mask payload⟩
                rest
  | _ => .short

end Frame

end ChatRooms.Socket

/-!
The digest SHA-1: a message is padded to blocks of 64 bytes, and each block is mixed into five
words.
-/

namespace ChatRooms.Digest.Sha1

/-- The five words that are carried from block to block. -/
structure Words where
  a : UInt32
  b : UInt32
  c : UInt32
  d : UInt32
  e : UInt32
deriving DecidableEq, Repr

def start : Words := ⟨0x67452301, 0xEFCDAB89, 0x98BADCFE, 0x10325476, 0xC3D2E1F0⟩

def rotate (x : UInt32) (n : UInt32) : UInt32 := (x <<< n) ||| (x >>> (32 - n))

/-- The message, a one bit, zeros, and the number of bits in eight bytes. -/
def pad (message : List UInt8) : List UInt8 :=
  let n := message.length
  let zeros := (119 - n % 64) % 64
  message ++ 0x80 :: List.replicate zeros 0 ++
    (List.range 8).map fun i => UInt8.ofNat (8 * n / Nat.pow 256 (7 - i))

def wordsOf : List UInt8 → List UInt32
  | a :: b :: c :: d :: rest =>
    UInt32.ofNat (((a.toNat * 256 + b.toNat) * 256 + c.toNat) * 256 + d.toNat) :: wordsOf rest
  | _ => []

/-- The eighty words of a block, in reverse, from its sixteen words in reverse. -/
def expand : (more : Nat) → List UInt32 → List UInt32
  | 0, w => w
  | more + 1, w =>
    let at' (i : Nat) := w.getD i 0
    expand more (rotate (at' 2 ^^^ at' 7 ^^^ at' 13 ^^^ at' 15) 1 :: w)

/-- One of eighty rounds. -/
def round (s : Words) (i : Nat) (w : UInt32) : Words :=
  let (f, k) : UInt32 × UInt32 :=
    if i < 20 then ((s.b &&& s.c) ||| (~~~s.b &&& s.d), 0x5A827999)
    else if i < 40 then (s.b ^^^ s.c ^^^ s.d, 0x6ED9EBA1)
    else if i < 60 then ((s.b &&& s.c) ||| (s.b &&& s.d) ||| (s.c &&& s.d), 0x8F1BBCDC)
    else (s.b ^^^ s.c ^^^ s.d, 0xCA62C1D6)
  ⟨rotate s.a 5 + f + s.e + k + w, s.a, rotate s.b 30, s.c, s.d⟩

/-- Mixes a block of sixteen words in. -/
def mix (s : Words) (block : List UInt32) : Words :=
  let words := (expand 64 block.reverse).reverse
  let t := (words.zipIdx).foldl (fun t (w, i) => round t i w) s
  ⟨s.a + t.a, s.b + t.b, s.c + t.c, s.d + t.d, s.e + t.e⟩

/-- Mixes all blocks in; `blocks` is their number. -/
def mixAll : (blocks : Nat) → Words → List UInt32 → Words
  | 0, s, _ => s
  | blocks + 1, s, w => mixAll blocks (mix s (w.take 16)) (w.drop 16)

def bytesOf (x : UInt32) : List UInt8 :=
  [(x >>> 24).toUInt8, (x >>> 16).toUInt8, (x >>> 8).toUInt8, x.toUInt8]

/-- The twenty bytes of the digest of a message. -/
def digest (message : List UInt8) : List UInt8 :=
  let padded := pad message
  let s := mixAll (padded.length / 64) start (wordsOf padded)
  bytesOf s.a ++ bytesOf s.b ++ bytesOf s.c ++ bytesOf s.d ++ bytesOf s.e

end ChatRooms.Digest.Sha1

import ChatRooms.Digest.Pi

/-!
The cipher Blowfish with a key schedule that is made to be slow, and the digest of a password that
comes of it: a fixed text, enciphered many times under the password and a salt.
-/

namespace ChatRooms.Digest.Blowfish

/-- The words of a cipher: first those of the rounds, then four boxes of substitutes. -/
abbrev Cipher := Array UInt32

def roundWords : Nat := 18

def wordCount : Nat := roundWords + 4 * 256

/-- The cipher before it has got a key: the digits of π. -/
def initial : Cipher := (Pi.words wordCount).toArray

namespace Cipher

def word (c : Cipher) (i : Nat) : UInt32 := c.getD i 0

/-- The substitute of a byte in a box. -/
def substitute (c : Cipher) (box : Nat) (x : UInt32) : UInt32 :=
  c.word (roundWords + 256 * box + (x &&& 255).toNat)

/-- What a round adds to the other half. -/
def mix (c : Cipher) (x : UInt32) : UInt32 :=
  ((c.substitute 0 (x >>> 24) + c.substitute 1 (x >>> 16)) ^^^ c.substitute 2 (x >>> 8)) +
    c.substitute 3 x

/-- The rounds that are left, of sixteen. The halves change places in each. -/
def encipherFrom (c : Cipher) : (rounds : Nat) → (left right : UInt32) → UInt32 × UInt32
  | 0, left, right => (right ^^^ c.word 17, left ^^^ c.word 16)
  | rounds + 1, left, right =>
    let left := left ^^^ c.word (15 - rounds)
    encipherFrom c rounds (right ^^^ c.mix left) left

/-- Enciphers a block of two words. -/
def encipher (c : Cipher) (left right : UInt32) : UInt32 × UInt32 := c.encipherFrom 16 left right

/-- Combines the words of the rounds with the words of a key, which is repeated. -/
def withKey (key : List UInt32) (c : Cipher) : Cipher :=
  (List.range roundWords).foldl (fun c i =>
    c.setIfInBounds i (c.word i ^^^ key.getD (i % key.length) 0)) c

/-- Replaces the words from place `2 * i` on, two by two, by what the cipher makes of the two before
them and of a salt of four words. -/
def refill (salt : List UInt32) : (pairs i : Nat) → (left right : UInt32) → Cipher → Cipher
  | 0, _, _, _, c => c
  | pairs + 1, i, left, right, c =>
    let (left, right) :=
      c.encipher (left ^^^ salt.getD (2 * i % 4) 0) (right ^^^ salt.getD ((2 * i + 1) % 4) 0)
    refill salt pairs (i + 1) left right
      ((c.setIfInBounds (2 * i) left).setIfInBounds (2 * i + 1) right)

/-- Gives a cipher a key and a salt. -/
def expand (salt key : List UInt32) (c : Cipher) : Cipher :=
  refill salt (wordCount / 2) 0 0 0 (withKey key c)

/-- Gives a cipher the key and then the salt as a key, again and again. -/
def expandTimes (salt key : List UInt32) : (times : Nat) → Cipher → Cipher
  | 0, c => c
  | times + 1, c => expandTimes salt key times (expand [] salt (expand [] key c))

/-- Enciphers a block again and again. -/
def encipherTimes (c : Cipher) : (times : Nat) → UInt32 × UInt32 → UInt32 × UInt32
  | 0, block => block
  | times + 1, block => encipherTimes c times (c.encipher block.1 block.2)

end Cipher

/-! ### Digests -/

/-- The words of some bytes, four bytes each, the highest first. -/
def wordsOf : List UInt8 → List UInt32
  | a :: b :: c :: d :: rest =>
    (a.toUInt32 <<< 24 ||| b.toUInt32 <<< 16 ||| c.toUInt32 <<< 8 ||| d.toUInt32) :: wordsOf rest
  | _ => []

/-- The bytes of a word, the highest first. -/
def bytesOf (w : UInt32) : List UInt8 :=
  [(w >>> 24).toUInt8, (w >>> 16).toUInt8, (w >>> 8).toUInt8, w.toUInt8]

def plaintext : List UInt8 := "OrpheanBeholderScryDoubt".toList.map fun c => UInt8.ofNat c.toNat

/-- Enciphers the words of a text two by two, sixty-four times each. -/
def encipherWords (c : Cipher) : List UInt32 → List UInt32
  | a :: b :: rest =>
    let (a, b) := c.encipherTimes 64 (a, b)
    a :: b :: encipherWords c rest
  | _ => []

def digestLength : Nat := 23

/-- The digest of a key under a salt of sixteen bytes. The schedule is gone through `2 ^ cost`
times. -/
def digest (cost : Nat) (salt key : List UInt8) : List UInt8 :=
  let saltWords := wordsOf salt
  let keyWords := wordsOf key
  let cipher := (initial.expand saltWords keyWords).expandTimes saltWords keyWords (Nat.pow 2 cost)
  ((encipherWords cipher (wordsOf plaintext)).flatMap bytesOf).take digestLength

end ChatRooms.Digest.Blowfish

/-!
Bytes read as UTF-8. A text as it was received is a list of symbols: characters, and stray bytes
that belong to no character. The strict reading refuses strays, the lenient one replaces each of
their runs by U+FFFD, and `isOpening` tells whether bytes can still become a text.
-/

namespace ChatRooms.Text

/-- One symbol of a received text: a character, or a byte that is part of none. -/
inductive Symbol where
  | char (c : Char)
  | stray (b : UInt8)
deriving DecidableEq, Repr

namespace Symbol

def width : Symbol → Nat
  | .char c => c.utf8Size
  | .stray _ => 1

def is (c : Char) : Symbol → Bool
  | .char d => d == c
  | .stray _ => false

/-- The number of bytes of a received text. -/
def bytes (s : List Symbol) : Nat := s.foldl (fun n x => n + x.width) 0

/-- The symbols of a text that is known to be well formed. -/
def ofChars (s : List Char) : List Symbol := s.map .char

@[simp] theorem is_char (c d : Char) : (char d).is c = (d == c) := rfl

@[simp] theorem ofChars_nil : ofChars [] = [] := rfl

@[simp] theorem ofChars_cons (c : Char) (s : List Char) : ofChars (c :: s) = .char c :: ofChars s :=
  rfl

@[simp] theorem ofChars_append (s t : List Char) : ofChars (s ++ t) = ofChars s ++ ofChars t :=
  List.map_append

@[simp] theorem length_ofChars (s : List Char) : (ofChars s).length = s.length := List.length_map _

end Symbol

namespace Utf8

def encode (s : List Char) : List UInt8 := s.flatMap String.utf8EncodeChar

/-- What stands at the beginning of some bytes: a character of so many bytes, a faulty beginning of
so many bytes, or the beginning of a character that the end of the bytes cuts off. -/
inductive Scan where
  | char (c : Char) (size : Nat)
  | faulty (size : Nat)
  | short
deriving DecidableEq, Repr

def isContinuation (b : UInt8) : Bool := 0x80 ≤ b && b ≤ 0xBF

/-- The bytes that may follow the first byte of a character of three or four bytes: some first
bytes leave only a part of the continuation bytes, so that no number has two forms and no
surrogate has any. -/
def isSecond (first b : UInt8) : Bool :=
  if first == 0xE0 then 0xA0 ≤ b && b ≤ 0xBF
  else if first == 0xED then 0x80 ≤ b && b ≤ 0x9F
  else if first == 0xF0 then 0x90 ≤ b && b ≤ 0xBF
  else if first == 0xF4 then 0x80 ≤ b && b ≤ 0x8F
  else isContinuation b

private def low6 (b : UInt8) : Nat := b.toNat % 64

/-- Reads the character at the beginning of bytes that start with `b`. -/
def scan (b : UInt8) (rest : List UInt8) : Scan :=
  if b < 0x80 then .char (Char.ofNat b.toNat) 1
  else if 0xC2 ≤ b && b ≤ 0xDF then
    match rest with
    | [] => .short
    | c :: _ =>
      if isContinuation c then .char (Char.ofNat ((b.toNat % 32) * 64 + low6 c)) 2 else .faulty 1
  else if 0xE0 ≤ b && b ≤ 0xEF then
    match rest with
    | [] => .short
    | c :: rest =>
      if isSecond b c then
        match rest with
        | [] => .short
        | d :: _ =>
          if isContinuation d then
            .char (Char.ofNat (((b.toNat % 16) * 64 + low6 c) * 64 + low6 d)) 3
          else .faulty 2
      else .faulty 1
  else if 0xF0 ≤ b && b ≤ 0xF4 then
    match rest with
    | [] => .short
    | c :: rest =>
      if isSecond b c then
        match rest with
        | [] => .short
        | d :: rest =>
          if isContinuation d then
            match rest with
            | [] => .short
            | e :: _ =>
              if isContinuation e then
                .char (Char.ofNat
                  ((((b.toNat % 8) * 64 + low6 c) * 64 + low6 d) * 64 + low6 e)) 4
              else .faulty 3
          else .faulty 2
      else .faulty 1
  else .faulty 1

/-- The symbols of some bytes, in reverse before `acc`; the first `skip` bytes belong to a
character that is already there. -/
private def symbolsOnto (acc : List Symbol) : Nat → List UInt8 → List Symbol
  | _, [] => acc.reverse
  | skip + 1, _ :: rest => symbolsOnto acc skip rest
  | 0, b :: rest =>
    match scan b rest with
    | .char c size => symbolsOnto (.char c :: acc) (size - 1) rest
    | _ => symbolsOnto (.stray b :: acc) 0 rest

def symbols (bytes : List UInt8) : List Symbol := symbolsOnto [] 0 bytes

private theorem symbolsOnto_eq (acc : List Symbol) (skip : Nat) (bytes : List UInt8) :
    symbolsOnto acc skip bytes = acc.reverse ++ symbolsOnto [] 0 (bytes.drop skip) := by
  induction bytes generalizing acc skip with
  | nil => simp [symbolsOnto]
  | cons b rest ih =>
    cases skip with
    | succ skip => exact ih acc skip
    | zero =>
      rw [List.drop_zero]
      unfold symbolsOnto
      cases scan b rest with
      | char c size =>
        dsimp only
        rw [ih (.char c :: acc), ih [.char c]]
        simp
      | faulty size | short =>
        dsimp only
        rw [ih (.stray b :: acc), ih [.stray b]]
        simp

@[simp] theorem symbols_nil : symbols [] = [] := rfl

theorem symbols_cons (b : UInt8) (rest : List UInt8) : symbols (b :: rest) =
    match scan b rest with
    | .char c size => .char c :: symbols (rest.drop (size - 1))
    | _ => .stray b :: symbols rest := by
  unfold symbols
  rw [symbolsOnto]
  cases scan b rest with
  | char c size => exact symbolsOnto_eq [.char c] _ rest
  | faulty size | short => exact symbolsOnto_eq [.stray b] 0 rest

private def charsOnto (acc : List Char) : List Symbol → Option (List Char)
  | [] => some acc.reverse
  | .char c :: rest => charsOnto (c :: acc) rest
  | .stray _ :: _ => none

/-- The characters of symbols without a stray byte. -/
def chars? (s : List Symbol) : Option (List Char) := charsOnto [] s

private theorem charsOnto_eq (acc : List Char) (s : List Symbol) :
    charsOnto acc s = (charsOnto [] s).map (acc.reverse ++ ·) := by
  induction s generalizing acc with
  | nil => simp [charsOnto]
  | cons x s ih =>
    cases x with
    | char c =>
      unfold charsOnto
      rw [ih (c :: acc), ih [c], Option.map_map]
      simp [Function.comp_def]
    | stray b => rfl

@[simp] theorem chars?_nil : chars? [] = some [] := rfl

theorem chars?_char_cons (c : Char) (s : List Symbol) :
    chars? (.char c :: s) = (chars? s).map (c :: ·) := charsOnto_eq [c] s

@[simp] theorem chars?_stray_cons (b : UInt8) (s : List Symbol) : chars? (.stray b :: s) = none :=
  rfl

/-- The text of bytes that are well formed. -/
def decode? (bytes : List UInt8) : Option String :=
  (chars? (symbols bytes)).map String.ofList

private def lenientOnto (acc : List Char) : Nat → List UInt8 → List Char
  | _, [] => acc.reverse
  | skip + 1, _ :: rest => lenientOnto acc skip rest
  | 0, b :: rest =>
    match scan b rest with
    | .char c size => lenientOnto (c :: acc) (size - 1) rest
    | .faulty size => lenientOnto ('\uFFFD' :: acc) (size - 1) rest
    | .short => ('\uFFFD' :: acc).reverse

/-- The text of some bytes, with U+FFFD for each longest run that begins no character. -/
def lenient (bytes : List UInt8) : String := String.ofList (lenientOnto [] 0 bytes)

private theorem lenientOnto_eq (acc : List Char) (skip : Nat) (bytes : List UInt8) :
    lenientOnto acc skip bytes = acc.reverse ++ lenientOnto [] 0 (bytes.drop skip) := by
  induction bytes generalizing acc skip with
  | nil => simp [lenientOnto]
  | cons b rest ih =>
    cases skip with
    | succ skip => exact ih acc skip
    | zero =>
      rw [List.drop_zero]
      unfold lenientOnto
      cases scan b rest with
      | char c size =>
        dsimp only
        rw [ih (c :: acc), ih [c]]
        simp
      | faulty size =>
        dsimp only
        rw [ih ('\uFFFD' :: acc), ih ['\uFFFD']]
        simp
      | short => simp

@[simp] theorem toList_lenient_nil : (lenient []).toList = [] := String.toList_ofList

/-- The text begins with what the first byte begins. -/
theorem toList_lenient_cons (b : UInt8) (rest : List UInt8) :
    (lenient (b :: rest)).toList = match scan b rest with
      | .char c size => c :: (lenient (rest.drop (size - 1))).toList
      | .faulty size => '\uFFFD' :: (lenient (rest.drop (size - 1))).toList
      | .short => ['\uFFFD'] := by
  simp only [lenient, String.toList_ofList]
  rw [lenientOnto]
  cases scan b rest with
  | char c size => exact lenientOnto_eq [c] _ rest
  | faulty size => exact lenientOnto_eq ['\uFFFD'] _ rest
  | short => rfl

private def openingFrom : Nat → List UInt8 → Bool
  | _, [] => true
  | skip + 1, _ :: rest => openingFrom skip rest
  | 0, b :: rest =>
    match scan b rest with
    | .char _ size => openingFrom (size - 1) rest
    | .faulty _ => false
    | .short => true

private def firstFaultFrom (index : Nat) : Nat → List UInt8 → Option (Nat × Option Nat)
  | _, [] => none
  | skip + 1, _ :: rest => firstFaultFrom (index + 1) skip rest
  | 0, b :: rest =>
    match scan b rest with
    | .char _ size => firstFaultFrom (index + 1) (size - 1) rest
    | .faulty size => some (index, some size)
    | .short => some (index, none)

/-- Where bytes stop being a text, and the size of the run that begins no character, unless the end
of the bytes cuts a character off. -/
def firstFault? (bytes : List UInt8) : Option (Nat × Option Nat) := firstFaultFrom 0 0 bytes

private theorem firstFaultFrom_eq_none_iff (index skip : Nat) (bytes : List UInt8) :
    firstFaultFrom index skip bytes = none ↔ firstFaultFrom 0 0 (bytes.drop skip) = none := by
  induction bytes generalizing index skip with
  | nil => simp [firstFaultFrom]
  | cons b rest ih =>
    cases skip with
    | succ skip => exact ih (index + 1) skip
    | zero =>
      rw [List.drop_zero]
      unfold firstFaultFrom
      cases scan b rest with
      | char c size => exact (ih (index + 1) (size - 1)).trans (ih (0 + 1) (size - 1)).symm
      | faulty size => simp
      | short => simp

@[simp] theorem firstFault?_nil : firstFault? [] = none := rfl

/-- Bytes are a text if they begin with a character and go on as a text. -/
theorem firstFault?_cons_eq_none_iff (b : UInt8) (rest : List UInt8) :
    firstFault? (b :: rest) = none ↔
      ∃ c size, scan b rest = .char c size ∧ firstFault? (rest.drop (size - 1)) = none := by
  unfold firstFault?
  rw [firstFaultFrom]
  cases scan b rest with
  | char c size =>
    have hrest := firstFaultFrom_eq_none_iff 1 (size - 1) rest
    constructor
    · exact fun h => ⟨c, size, rfl, hrest.mp h⟩
    · rintro ⟨_, _, ⟨⟩, h⟩
      exact hrest.mpr h
  | faulty size => simp
  | short => simp

/-- Some bytes may follow that make these bytes a text. -/
def isOpening (bytes : List UInt8) : Bool := openingFrom 0 bytes

end Utf8

end ChatRooms.Text

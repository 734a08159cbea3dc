import ChatRooms.Text.Utf8
import ChatRooms.Text.Hex

/-!
Percent escapes and forms. An escape is `%` and two hexadecimal digits; anything else stands for
itself, and `Decodes` says so byte by byte. A form is a list of pairs of a name and a value, in
which `+` stands for a blank.
-/

namespace ChatRooms.Text.Percent

def hexByte? (b : UInt8) : Option Nat := Hex.digit? (Char.ofNat b.toNat)

private def decodeOnto (acc : List UInt8) : List UInt8 → List UInt8
  | 0x25 :: a :: b :: rest =>
    match hexByte? a, hexByte? b with
    | some x, some y => decodeOnto (UInt8.ofNat (x * 16 + y) :: acc) rest
    | _, _ => decodeOnto (0x25 :: acc) (a :: b :: rest)
  | b :: rest => decodeOnto (b :: acc) rest
  | [] => acc.reverse

/-- The bytes in which every escape is replaced by the byte that it stands for. -/
def decode (bytes : List UInt8) : List UInt8 := decodeOnto [] bytes

/-- Bytes begin with an escape. -/
def StartsEscape (bytes : List UInt8) : Prop :=
  ∃ a b rest, bytes = 0x25 :: a :: b :: rest ∧ (hexByte? a).isSome ∧ (hexByte? b).isSome

/-- Bytes and what they are decoded to, from the left to the right. -/
inductive Decodes : List UInt8 → List UInt8 → Prop where
  | nil : Decodes [] []
  | escape {a b : UInt8} {x y : Nat} {rest out : List UInt8} (hx : hexByte? a = some x)
      (hy : hexByte? b = some y) (h : Decodes rest out) :
      Decodes (0x25 :: a :: b :: rest) (UInt8.ofNat (x * 16 + y) :: out)
  | plain {b : UInt8} {rest out : List UInt8} (hno : ¬StartsEscape (b :: rest))
      (h : Decodes rest out) : Decodes (b :: rest) (b :: out)

theorem decodes_decode (bytes : List UInt8) : Decodes bytes (decode bytes) := by
  have honto : ∀ acc, ∃ out, decodeOnto acc bytes = acc.reverse ++ out ∧ Decodes bytes out := by
    intro acc
    fun_induction decodeOnto acc bytes with
    | case1 acc a b rest x y hy hx ih =>
      obtain ⟨out, h, hout⟩ := ih
      exact ⟨_, by rw [h, List.reverse_cons, List.append_assoc]; rfl, .escape hx hy hout⟩
    | case2 acc a b rest hno ih =>
      obtain ⟨out, h, hout⟩ := ih
      refine ⟨_, by rw [h, List.reverse_cons, List.append_assoc]; rfl, .plain ?_ hout⟩
      rintro ⟨_, _, _, ⟨⟩, ha, hb⟩
      obtain ⟨x, hx⟩ := Option.isSome_iff_exists.mp ha
      obtain ⟨y, hy⟩ := Option.isSome_iff_exists.mp hb
      exact hno x y hx hy
    | case3 acc b rest hno ih =>
      obtain ⟨out, h, hout⟩ := ih
      refine ⟨_, by rw [h, List.reverse_cons, List.append_assoc]; rfl, .plain ?_ hout⟩
      rintro ⟨a, c, rest', ⟨⟩, -, -⟩
      exact hno a c rest' rfl rfl
    | case4 acc => exact ⟨[], by simp, .nil⟩
  obtain ⟨out, h, hout⟩ := honto []
  rw [decode, h]
  exact hout

/-- The text of a name or a value of a form. -/
def decodeFormText (bytes : List UInt8) : String :=
  Utf8.lenient (decode (bytes.map fun b => if b = 0x2B then 0x20 else b))

/-- Cuts bytes at the first byte `b`, which is left out. -/
def cutAt (b : UInt8) (bytes : List UInt8) : List UInt8 × List UInt8 :=
  (bytes.takeWhile (· != b), (bytes.dropWhile (· != b)).drop 1)

/-- The pieces of bytes between the bytes `b`. -/
def piecesAt (b : UInt8) (bytes : List UInt8) : List (List UInt8) :=
  bytes.splitBy fun x y => x != b && y != b

/-- The pairs of a form: parts between `&`, of which the empty ones do not count, each cut at its
first `=`. -/
def formPairs (bytes : List UInt8) : List (String × String) :=
  ((piecesAt 0x26 bytes).filter fun piece => piece != [0x26]).map fun piece =>
    let (name, value) := cutAt 0x3D piece
    (decodeFormText name, decodeFormText value)

end ChatRooms.Text.Percent

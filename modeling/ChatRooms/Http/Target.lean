import ChatRooms.Text.Utf8

/-!
The target of a request: a path, and a query after the first `?`. A `#` ends the target. Instead of
a path there may be a whole URL, whose authority does not matter here, an authority alone, or an
asterisk.
-/

namespace ChatRooms.Http

open ChatRooms.Text

structure Target where
  path : List UInt8
  query : Option (List UInt8)
deriving DecidableEq, Repr

namespace Target

def isPathByte (b : UInt8) : Bool :=
  b == 0x21 || b == 0x22 || (0x24 ≤ b && b ≤ 0x3B) || b == 0x3D || (0x40 ≤ b && b ≤ 0x5F) ||
    (0x61 ≤ b && b != 0x7F)

def isQueryByte (b : UInt8) : Bool :=
  b == 0x21 || (0x24 ≤ b && b ≤ 0x3B) || b == 0x3D || (0x3F ≤ b && b != 0x7F)

def isAlphanumeric (b : UInt8) : Bool :=
  (0x30 ≤ b && b ≤ 0x39) || (0x41 ≤ b && b ≤ 0x5A) || (0x61 ≤ b && b ≤ 0x7A)

def isSchemeByte (b : UInt8) : Bool :=
  isAlphanumeric b || b == 0x2B || b == 0x2D || b == 0x2E || b == 0x7E

/-- The byte may stand in an authority, colons, brackets, `@` and `%` apart. -/
def isAuthorityByte (b : UInt8) : Bool :=
  isAlphanumeric b || "!$&'()*+,-.;=_~".toList.any fun c => c.toNat == b.toNat

/-! ### Paths and queries -/

/-- The path and the query that some bytes write. Nothing stands for the path of the top. -/
def ofPath? (bytes : List UInt8) : Option Target :=
  let visible := bytes.takeWhile (· != 0x23)
  let path := visible.takeWhile (· != 0x3F)
  let path' := if path.isEmpty then [0x2F] else path
  if path.all isPathByte then
    match visible.dropWhile (· != 0x3F) with
    | [] => some ⟨path', none⟩
    | _ :: query => if query.all isQueryByte then some ⟨path', some query⟩ else none
  else none

/-! ### Authorities -/

/-- What has been seen of an authority: the colons since the user's part or a bracketed address,
whether such an address has begun and has ended, and whether there was an escape outside of the
user's part. -/
structure AuthorityScan where
  colons : Nat
  isOpened : Bool
  isClosed : Bool
  hasEscape : Bool
deriving DecidableEq, Repr

/-- Goes on by one byte of an authority. -/
def AuthorityScan.next (s : AuthorityScan) (b : UInt8) : Option AuthorityScan :=
  if b == 0x3A then if s.colons < 8 then some { s with colons := s.colons + 1 } else none
  else if b == 0x5B then
    if s.hasEscape || s.isOpened then none else some { s with isOpened := true }
  else if b == 0x5D then
    if !s.isOpened || s.isClosed then none
    else some { s with isClosed := true, colons := 0, hasEscape := false }
  else if b == 0x40 then some { s with colons := 0, hasEscape := false }
  else if b == 0x25 then some { s with hasEscape := true }
  else if isAuthorityByte b then some s
  else none

/-- The bytes write an authority, which may be empty: behind the user's part there is one colon at
most and no escape, brackets come in one pair, and the host is not left out behind an `@`. -/
def isAuthority (bytes : List UInt8) : Bool :=
  match bytes.foldlM AuthorityScan.next ⟨0, false, false, false⟩ with
  | none => false
  | some s =>
    s.isOpened == s.isClosed && s.colons ≤ 1 && !s.hasEscape && bytes.getLast? != some 0x40

/-- The byte does not end an authority. -/
def insideAuthority (b : UInt8) : Bool := b != 0x2F && b != 0x3F && b != 0x23

/-! ### Schemes -/

def maxSchemeLength : Nat := 64

/-- What stands behind a scheme and its two slashes: nothing inside if there is no scheme, and
nothing at all if the scheme is too long. -/
def behindScheme (bytes : List UInt8) : Option (Option (List UInt8)) :=
  let scheme := bytes.takeWhile isSchemeByte
  match bytes.dropWhile isSchemeByte with
  | 0x3A :: 0x2F :: 0x2F :: rest =>
    if bytes.length ≤ 3 then some none
    else if maxSchemeLength < scheme.length then none
    else some (some rest)
  | _ => some none

/-- The target that a URL or an authority writes. -/
def ofUrl? (bytes : List UInt8) : Option Target :=
  match behindScheme bytes with
  | none => none
  | some none => if isAuthority bytes then some ⟨[], none⟩ else none
  | some (some rest) =>
    let authority := rest.takeWhile insideAuthority
    if isAuthority authority && !authority.isEmpty then ofPath? (rest.dropWhile insideAuthority)
    else none

/-! ### Targets -/

def maxLength : Nat := 65534

/-- The target that some bytes write. -/
def ofBytes? (bytes : List UInt8) : Option Target :=
  if maxLength < bytes.length then none
  else
    match bytes with
    | [] => none
    | [0x2A] => some ⟨[0x2A], none⟩
    | 0x2F :: _ => ofPath? bytes
    | _ => ofUrl? bytes

/-- The target that a text writes. -/
def ofString? (s : String) : Option Target := ofBytes? (Utf8.encode s.toList)

end Target

end ChatRooms.Http

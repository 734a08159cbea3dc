import Mathlib.Data.String.Basic
import ChatRooms.Text.Utf8

/-!
The reading of UTF-8 against its writing. The bytes of a character are read as that character,
whatever follows (`scan_append`), and what is read as a character are its bytes
(`utf8EncodeChar_append_drop`). So the bytes of a text have no fault and are read as the text, and
bytes without a fault are those of the text that is read. A byte below 0x80 is a character of its
own, which no reader passes over. Texts stand in the order of their bytes.
-/

namespace ChatRooms.Text.Utf8

/-! ### Single characters -/

theorem toNat_ofNat {n : Nat} (h : n.isValidChar) : (Char.ofNat n).toNat = n := by
  rw [Char.ofNat, dif_pos h]
  rfl

theorem utf8EncodeChar_of_lt {c : Char} (h : c.toNat < 128) :
    String.utf8EncodeChar c = [UInt8.ofNat c.toNat] := by
  have hle : c.val.toNat ≤ 127 := Nat.lt_succ_iff.mp h
  rw [String.utf8EncodeChar, if_pos hle]
  rfl

theorem isContinuation_iff (b : UInt8) :
    isContinuation b = true ↔ 0x80 ≤ b.toNat ∧ b.toNat ≤ 0xBF := by
  simp [isContinuation, UInt8.le_iff_toNat_le]

theorem isSecond_iff (first b : UInt8) : isSecond first b = true ↔
    0x80 ≤ b.toNat ∧ b.toNat ≤ 0xBF ∧ (first.toNat = 0xE0 → 0xA0 ≤ b.toNat) ∧
      (first.toNat = 0xED → b.toNat ≤ 0x9F) ∧ (first.toNat = 0xF0 → 0x90 ≤ b.toNat) ∧
      (first.toNat = 0xF4 → b.toNat ≤ 0x8F) := by
  unfold isSecond isContinuation
  simp only [beq_iff_eq, ← UInt8.toNat_inj]
  split
  · simp [UInt8.le_iff_toNat_le] at *
    omega
  split
  · simp [UInt8.le_iff_toNat_le] at *
    omega
  split
  · simp [UInt8.le_iff_toNat_le] at *
    omega
  split
  · simp [UInt8.le_iff_toNat_le] at *
    omega
  · simp [UInt8.le_iff_toNat_le] at *
    omega

theorem toNat_byte {n : Nat} (h : n < 256) : (UInt8.ofNat n).toNat = n := UInt8.toNat_ofNat_of_lt h

theorem scan_one {b : UInt8} (hb : b.toNat < 0x80) (rest : List UInt8) :
    scan b rest = .char (Char.ofNat b.toNat) 1 :=
  if_pos (UInt8.lt_iff_toNat_lt.mpr hb)

theorem scan_two {b d : UInt8} (hb : 0xC2 ≤ b.toNat ∧ b.toNat ≤ 0xDF)
    (hd : isContinuation d = true) (rest : List UInt8) :
    scan b (d :: rest) = .char (Char.ofNat ((b.toNat % 32) * 64 + d.toNat % 64)) 2 := by
  have h₁ : ¬b < 0x80 := by simp [UInt8.lt_iff_toNat_lt]; omega
  have h₂ : (0xC2 ≤ b && b ≤ 0xDF) = true := by simp [UInt8.le_iff_toNat_le, hb]
  unfold scan
  rw [if_neg h₁, if_pos h₂]
  exact if_pos hd

theorem scan_three {b d e : UInt8} (hb : 0xE0 ≤ b.toNat ∧ b.toNat ≤ 0xEF)
    (hd : isSecond b d = true) (he : isContinuation e = true) (rest : List UInt8) :
    scan b (d :: e :: rest) =
      .char (Char.ofNat (((b.toNat % 16) * 64 + d.toNat % 64) * 64 + e.toNat % 64)) 3 := by
  have h₁ : ¬b < 0x80 := by simp [UInt8.lt_iff_toNat_lt]; omega
  have h₂ : ¬(0xC2 ≤ b && b ≤ 0xDF) = true := by simp [UInt8.le_iff_toNat_le]; omega
  have h₃ : (0xE0 ≤ b && b ≤ 0xEF) = true := by simp [UInt8.le_iff_toNat_le, hb]
  unfold scan
  rw [if_neg h₁, if_neg h₂, if_pos h₃]
  exact (if_pos hd).trans (if_pos he)

theorem scan_four {b d e f : UInt8} (hb : 0xF0 ≤ b.toNat ∧ b.toNat ≤ 0xF4)
    (hd : isSecond b d = true) (he : isContinuation e = true) (hf : isContinuation f = true)
    (rest : List UInt8) :
    scan b (d :: e :: f :: rest) = .char (Char.ofNat
      ((((b.toNat % 8) * 64 + d.toNat % 64) * 64 + e.toNat % 64) * 64 + f.toNat % 64)) 4 := by
  have h₁ : ¬b < 0x80 := by simp [UInt8.lt_iff_toNat_lt]; omega
  have h₂ : ¬(0xC2 ≤ b && b ≤ 0xDF) = true := by simp [UInt8.le_iff_toNat_le]; omega
  have h₃ : ¬(0xE0 ≤ b && b ≤ 0xEF) = true := by simp [UInt8.le_iff_toNat_le]; omega
  have h₄ : (0xF0 ≤ b && b ≤ 0xF4) = true := by simp [UInt8.le_iff_toNat_le, hb]
  unfold scan
  rw [if_neg h₁, if_neg h₂, if_neg h₃, if_pos h₄]
  exact (if_pos hd).trans ((if_pos he).trans (if_pos hf))

/-- The bytes of a character are read as the character, whatever follows. -/
theorem scan_append (c : Char) (rest : List UInt8) : ∃ b tail,
    String.utf8EncodeChar c = b :: tail ∧ scan b (tail ++ rest) = .char c (tail.length + 1) := by
  have hvalid : c.toNat < 0xD800 ∨ 0xDFFF < c.toNat ∧ c.toNat < 0x110000 := c.valid
  have hc : Char.ofNat c.toNat = c := Char.ofNat_toNat c
  have hval : c.val.toNat = c.toNat := rfl
  unfold String.utf8EncodeChar
  rw [hval]
  generalize c.toNat = v at hvalid hc
  dsimp only
  split
  · have h₀ : (UInt8.ofNat v).toNat = v := toNat_byte (by omega)
    refine ⟨_, _, rfl, ?_⟩
    rw [scan_one (by omega), h₀, hc]
    rfl
  split
  · have h₀ : (UInt8.ofNat (v / 64 % 32 + 192)).toNat = v / 64 % 32 + 192 := toNat_byte (by omega)
    have h₁ : (UInt8.ofNat (v % 64 + 128)).toNat = v % 64 + 128 := toNat_byte (by omega)
    refine ⟨_, _, rfl, ?_⟩
    rw [List.cons_append, scan_two (by omega) ((isContinuation_iff _).mpr (by omega)), h₀, h₁]
    have hsum : (v / 64 % 32 + 192) % 32 * 64 + (v % 64 + 128) % 64 = v := by omega
    rw [hsum, hc]
    rfl
  split
  · have h₀ : (UInt8.ofNat (v / 4096 % 16 + 224)).toNat = v / 4096 % 16 + 224 :=
      toNat_byte (by omega)
    have h₁ : (UInt8.ofNat (v / 64 % 64 + 128)).toNat = v / 64 % 64 + 128 := toNat_byte (by omega)
    have h₂ : (UInt8.ofNat (v % 64 + 128)).toNat = v % 64 + 128 := toNat_byte (by omega)
    refine ⟨_, _, rfl, ?_⟩
    rw [List.cons_append, List.cons_append,
      scan_three (by omega) ((isSecond_iff _ _).mpr (by omega))
      ((isContinuation_iff _).mpr (by omega)), h₀, h₁, h₂]
    have hsum : ((v / 4096 % 16 + 224) % 16 * 64 + (v / 64 % 64 + 128) % 64) * 64 +
        (v % 64 + 128) % 64 = v := by omega
    rw [hsum, hc]
    rfl
  · have h₀ : (UInt8.ofNat (v / 262144 % 8 + 240)).toNat = v / 262144 % 8 + 240 :=
      toNat_byte (by omega)
    have h₁ : (UInt8.ofNat (v / 4096 % 64 + 128)).toNat = v / 4096 % 64 + 128 :=
      toNat_byte (by omega)
    have h₂ : (UInt8.ofNat (v / 64 % 64 + 128)).toNat = v / 64 % 64 + 128 := toNat_byte (by omega)
    have h₃ : (UInt8.ofNat (v % 64 + 128)).toNat = v % 64 + 128 := toNat_byte (by omega)
    refine ⟨_, _, rfl, ?_⟩
    rw [List.cons_append, List.cons_append, List.cons_append,
      scan_four (by omega) ((isSecond_iff _ _).mpr (by omega))
      ((isContinuation_iff _).mpr (by omega)) ((isContinuation_iff _).mpr (by omega)),
      h₀, h₁, h₂, h₃]
    have hsum : (((v / 262144 % 8 + 240) % 8 * 64 + (v / 4096 % 64 + 128) % 64) * 64 +
        (v / 64 % 64 + 128) % 64) * 64 + (v % 64 + 128) % 64 = v := by omega
    rw [hsum, hc]
    rfl

theorem isContinuation_of_isSecond {b d : UInt8} (h : isSecond b d = true) :
    isContinuation d = true := by
  rw [isSecond_iff] at h
  exact (isContinuation_iff d).mpr ⟨h.1, h.2.1⟩

/-- What stands at the beginning of bytes, for each way to read it. -/
inductive Stands (b : UInt8) : List UInt8 → Scan → Prop where
  | one {rest : List UInt8} (hb : b.toNat < 0x80) : Stands b rest (.char (Char.ofNat b.toNat) 1)
  | two {d : UInt8} {rest : List UInt8} (hb : 0xC2 ≤ b.toNat ∧ b.toNat ≤ 0xDF)
      (hd : isContinuation d = true) :
      Stands b (d :: rest) (.char (Char.ofNat ((b.toNat % 32) * 64 + d.toNat % 64)) 2)
  | three {d e : UInt8} {rest : List UInt8} (hb : 0xE0 ≤ b.toNat ∧ b.toNat ≤ 0xEF)
      (hd : isSecond b d = true) (he : isContinuation e = true) :
      Stands b (d :: e :: rest)
        (.char (Char.ofNat (((b.toNat % 16) * 64 + d.toNat % 64) * 64 + e.toNat % 64)) 3)
  | four {d e f : UInt8} {rest : List UInt8} (hb : 0xF0 ≤ b.toNat ∧ b.toNat ≤ 0xF4)
      (hd : isSecond b d = true) (he : isContinuation e = true) (hf : isContinuation f = true) :
      Stands b (d :: e :: f :: rest) (.char (Char.ofNat
        ((((b.toNat % 8) * 64 + d.toNat % 64) * 64 + e.toNat % 64) * 64 + f.toNat % 64)) 4)
  | faulty {passed rest : List UInt8} (hpassed : ∀ x ∈ passed, isContinuation x = true) :
      Stands b (passed ++ rest) (.faulty (passed.length + 1))
  | short {rest : List UInt8} (hrest : ∀ x ∈ rest, isContinuation x = true) : Stands b rest .short

theorem stands_scan (b : UInt8) (rest : List UInt8) : Stands b rest (scan b rest) := by
  have hnone : ∀ rest, Stands b rest (.faulty 1) := fun rest =>
    @Stands.faulty b [] rest (by simp)
  unfold scan
  split
  · rename_i hb
    exact .one (UInt8.lt_iff_toNat_lt.mp hb)
  split
  · rename_i hb
    simp only [Bool.and_eq_true, decide_eq_true_eq, UInt8.le_iff_toNat_le] at hb
    split
    · exact .short (by simp)
    split
    · rename_i hd
      exact .two hb hd
    · exact hnone _
  split
  · rename_i hb
    simp only [Bool.and_eq_true, decide_eq_true_eq, UInt8.le_iff_toNat_le] at hb
    split
    · exact .short (by simp)
    split
    · rename_i hd
      have hd' := isContinuation_of_isSecond hd
      split
      · exact .short (by simp [hd'])
      split
      · rename_i he
        exact .three hb hd he
      · exact @Stands.faulty b [_] _ (by simp [hd'])
    · exact hnone _
  split
  · rename_i hb
    simp only [Bool.and_eq_true, decide_eq_true_eq, UInt8.le_iff_toNat_le] at hb
    split
    · exact .short (by simp)
    split
    · rename_i hd
      have hd' := isContinuation_of_isSecond hd
      split
      · exact .short (by simp [hd'])
      split
      · rename_i he
        split
        · exact .short (by simp [hd', he])
        split
        · rename_i hf
          exact .four hb hd he hf
        · exact @Stands.faulty b [_, _] _ (by simp [hd', he])
      · exact @Stands.faulty b [_] _ (by simp [hd'])
    · exact hnone _
  · exact hnone _

/-- The bytes that are read as a character are those of the character. -/
theorem utf8EncodeChar_append_drop {b : UInt8} {rest : List UInt8} {c : Char} {size : Nat}
    (h : scan b rest = .char c size) :
    String.utf8EncodeChar c ++ rest.drop (size - 1) = b :: rest := by
  have hbyte : ∀ {n : Nat} {x : UInt8}, n = x.toNat → UInt8.ofNat n = x := by
    rintro n x rfl
    exact UInt8.ofNat_toNat
  have hval : c.val.toNat = c.toNat := rfl
  have hstands := stands_scan b rest
  rw [h] at hstands
  unfold String.utf8EncodeChar
  rw [hval]
  rcases hstands with hb | @⟨d, tail, hb, hd⟩ | @⟨d, e, tail, hb, hd, he⟩ |
    @⟨d, e, f, tail, hb, hd, he, hf⟩
  · rw [toNat_ofNat (.inl (by omega)), if_pos (by omega), hbyte rfl]
    rfl
  · rw [isContinuation_iff] at hd
    have hv : (b.toNat % 32 * 64 + d.toNat % 64).isValidChar := .inl (by omega)
    rw [toNat_ofNat hv, if_neg (by omega), if_pos (by omega), hbyte (x := b) (by omega),
      hbyte (x := d) (by omega)]
    rfl
  · rw [isSecond_iff] at hd
    rw [isContinuation_iff] at he
    have hv : ((b.toNat % 16 * 64 + d.toNat % 64) * 64 + e.toNat % 64).isValidChar := by
      show _ < 0xD800 ∨ 0xDFFF < _ ∧ _ < 0x110000
      omega
    rw [toNat_ofNat hv, if_neg (by omega), if_neg (by omega), if_pos (by omega),
      hbyte (x := b) (by omega), hbyte (x := d) (by omega), hbyte (x := e) (by omega)]
    rfl
  · rw [isSecond_iff] at hd
    rw [isContinuation_iff] at he hf
    have hv : (((b.toNat % 8 * 64 + d.toNat % 64) * 64 + e.toNat % 64) * 64 +
        f.toNat % 64).isValidChar := by
      show _ < 0xD800 ∨ 0xDFFF < _ ∧ _ < 0x110000
      omega
    rw [toNat_ofNat hv, if_neg (by omega), if_neg (by omega), if_neg (by omega),
      hbyte (x := b) (by omega), hbyte (x := d) (by omega), hbyte (x := e) (by omega),
      hbyte (x := f) (by omega)]
    rfl

/-- How many bytes are read together with the first one. -/
def passed (b : UInt8) (rest : List UInt8) : Nat :=
  match scan b rest with
  | .char _ size | .faulty size => size - 1
  | .short => rest.length

/-- The bytes that are read together with the first one are no characters of their own. -/
theorem le_of_mem_take_passed {b x : UInt8} {rest : List UInt8}
    (h : x ∈ rest.take (passed b rest)) : 0x80 ≤ x.toNat := by
  have hcont : ∀ {y : UInt8}, isContinuation y = true → 0x80 ≤ y.toNat := fun hy =>
    ((isContinuation_iff _).mp hy).1
  have hstands := stands_scan b rest
  unfold passed at h
  generalize scan b rest = found at h hstands
  cases hstands with
  | one hb => simp at h
  | two hb hd =>
    obtain rfl : x = _ := by simpa using h
    exact hcont hd
  | three hb hd he =>
    obtain rfl | rfl : x = _ ∨ x = _ := by simpa using h
    · exact hcont (isContinuation_of_isSecond hd)
    · exact hcont he
  | four hb hd he hf =>
    obtain rfl | rfl | rfl : x = _ ∨ x = _ ∨ x = _ := by simpa using h
    · exact hcont (isContinuation_of_isSecond hd)
    · exact hcont he
    · exact hcont hf
  | faulty hpassed => exact hcont (hpassed x (by simpa using h))
  | short hrest => exact hcont (hrest x (List.mem_of_mem_take h))

theorem exists_toList_lenient_cons (b : UInt8) (rest : List UInt8) :
    ∃ c, (lenient (b :: rest)).toList = c :: (lenient (rest.drop (passed b rest))).toList := by
  rw [toList_lenient_cons]
  unfold passed
  cases scan b rest with
  | char c size => exact ⟨c, rfl⟩
  | faulty size => exact ⟨_, rfl⟩
  | short => exact ⟨'\uFFFD', by simp⟩

/-! ### Texts -/

@[simp] theorem encode_nil : encode [] = [] := rfl

theorem encode_cons (c : Char) (s : List Char) :
    encode (c :: s) = String.utf8EncodeChar c ++ encode s := rfl

@[simp] theorem encode_append (s t : List Char) : encode (s ++ t) = encode s ++ encode t :=
  List.flatMap_append

/-- The bytes of a text are read as the text. -/
theorem toList_lenient_encode (s : List Char) : (lenient (encode s)).toList = s := by
  induction s with
  | nil => exact toList_lenient_nil
  | cons c s ih =>
    obtain ⟨b, tail, hbytes, hscan⟩ := scan_append c (encode s)
    rw [encode_cons, hbytes, List.cons_append, toList_lenient_cons, hscan]
    dsimp only
    rw [Nat.add_sub_cancel, List.drop_left, ih]

theorem encode_injective {s t : List Char} (h : encode s = encode t) : s = t := by
  rw [← toList_lenient_encode s, h, toList_lenient_encode]

/-- Bytes without a fault are those of the text as which they are read. -/
theorem encode_lenient (bytes : List UInt8) (h : firstFault? bytes = none) :
    encode (lenient bytes).toList = bytes := by
  match bytes with
  | [] => rfl
  | b :: rest =>
    obtain ⟨c, size, hscan, hrest⟩ := (firstFault?_cons_eq_none_iff b rest).mp h
    rw [toList_lenient_cons, hscan]
    dsimp only
    rw [encode_cons, encode_lenient (rest.drop (size - 1)) hrest]
    exact utf8EncodeChar_append_drop hscan
termination_by bytes.length
decreasing_by
  simp only [List.length_cons, List.length_drop]
  omega

theorem chars?_symbols_encode (s : List Char) : chars? (symbols (encode s)) = some s := by
  induction s with
  | nil => rfl
  | cons c s ih =>
    obtain ⟨b, tail, hbytes, hscan⟩ := scan_append c (encode s)
    rw [encode_cons, hbytes, List.cons_append, symbols_cons, hscan]
    dsimp only
    rw [Nat.add_sub_cancel, List.drop_left, chars?_char_cons, ih, Option.map_some]

/-- What the strict reading reads are the bytes of the text. -/
theorem encode_of_chars?_symbols {bytes : List UInt8} {s : List Char}
    (h : chars? (symbols bytes) = some s) : bytes = encode s := by
  match bytes with
  | [] =>
    obtain rfl : [] = s := by simpa using h
    rfl
  | b :: rest =>
    rw [symbols_cons] at h
    cases hscan : scan b rest with
    | char c size =>
      rw [hscan] at h
      dsimp only at h
      rw [chars?_char_cons, Option.map_eq_some_iff] at h
      obtain ⟨t, ht, rfl⟩ := h
      rw [encode_cons, ← encode_of_chars?_symbols ht]
      exact (utf8EncodeChar_append_drop hscan).symm
    | faulty size | short => simp [hscan] at h
termination_by bytes.length
decreasing_by
  simp only [List.length_cons, List.length_drop]
  omega

/-- Bytes are a text in the strict reading exactly if they are its bytes. -/
theorem decode?_eq_some_iff {bytes : List UInt8} {s : String} :
    decode? bytes = some s ↔ bytes = encode s.toList := by
  rw [decode?, Option.map_eq_some_iff]
  constructor
  · rintro ⟨t, ht, rfl⟩
    rw [String.toList_ofList]
    exact encode_of_chars?_symbols ht
  · rintro rfl
    exact ⟨s.toList, chars?_symbols_encode s.toList, String.ofList_toList⟩

/-- A byte below 0x80 is read as a character, wherever it stands. -/
theorem mem_lenient {b : UInt8} (hb : b.toNat < 0x80) (bytes : List UInt8) (h : b ∈ bytes) :
    Char.ofNat b.toNat ∈ (lenient bytes).toList := by
  match bytes with
  | b₀ :: rest =>
    rcases List.mem_cons.mp h with rfl | hrest
    · rw [toList_lenient_cons, scan_one hb]
      exact List.mem_cons_self
    · have hdrop : b ∈ rest.drop (passed b₀ rest) := by
        rw [← List.take_append_drop (passed b₀ rest) rest, List.mem_append] at hrest
        refine hrest.resolve_left fun htake => ?_
        have hle := le_of_mem_take_passed htake
        omega
      obtain ⟨c, hc⟩ := exists_toList_lenient_cons b₀ rest
      rw [hc]
      exact List.mem_cons_of_mem c (mem_lenient hb _ hdrop)
termination_by bytes.length
decreasing_by
  simp only [List.length_cons, List.length_drop]
  omega

theorem mem_encode_iff {b : UInt8} (hb : b.toNat < 0x80) {s : List Char} :
    b ∈ encode s ↔ Char.ofNat b.toNat ∈ s := by
  constructor
  · intro h
    have hmem := mem_lenient hb _ h
    rwa [toList_lenient_encode] at hmem
  · intro h
    have hc : (Char.ofNat b.toNat).toNat = b.toNat := toNat_ofNat (.inl (by omega))
    refine List.mem_flatMap.mpr ⟨_, h, ?_⟩
    rw [utf8EncodeChar_of_lt (by omega), hc, UInt8.ofNat_toNat]
    exact List.mem_singleton_self b

/-! ### The order of texts -/

theorem byte_cons_lt {m n : Nat} (hm : m < 256) (hn : n < 256) (s t : List UInt8) :
    UInt8.ofNat m :: s < UInt8.ofNat n :: t ↔ m < n ∨ m = n ∧ s < t := by
  rw [List.cons_lt_cons_iff, UInt8.lt_iff_toNat_lt, ← UInt8.toNat_inj, toNat_byte hm, toNat_byte hn]

/-- The bytes of a later character stand behind those of an earlier one, whatever follows. -/
theorem utf8EncodeChar_append_lt {c d : Char} (h : c < d) (s t : List UInt8) :
    String.utf8EncodeChar c ++ s < String.utf8EncodeChar d ++ t := by
  have hlt : c.val.toNat < d.val.toNat := UInt32.lt_iff_toNat_lt.mp h
  have hd : d.val.toNat < 0x110000 := by
    rcases d.valid with hd | ⟨-, hd⟩
    · exact hd.trans (by decide)
    · exact hd
  unfold String.utf8EncodeChar
  generalize c.val.toNat = v at hlt
  generalize d.val.toNat = w at hlt hd
  dsimp only
  -- a character of more bytes has a greater first byte; else the digits of base 64 are compared
  have hfirst : v / 262144 % 8 = v / 262144 ∧ w / 262144 % 8 = w / 262144 := by omega
  have hhigh : v / 4096 < w / 4096 → v / 262144 < w / 262144 ∨
      v / 262144 = w / 262144 ∧ v / 4096 % 64 < w / 4096 % 64 := by omega
  have hlow : v / 4096 = w / 4096 → v / 64 % 64 < w / 64 % 64 ∨
      v / 64 % 64 = w / 64 % 64 ∧ v % 64 < w % 64 := by omega
  split <;> split_ifs <;>
    first
    | omega
    | (simp (disch := omega) only [List.cons_append, List.nil_append, byte_cons_lt]
       omega)

/-- Texts stand in the order of their bytes. -/
theorem encode_lt_encode_iff {s t : List Char} : encode s < encode t ↔ s < t := by
  have hmono : ∀ {s t : List Char}, s < t → encode s < encode t := by
    intro s t h
    induction h with
    | nil =>
      rename_i d t
      obtain ⟨b, tail, hbytes, -⟩ := scan_append d []
      rw [encode_cons, hbytes]
      exact List.Lex.nil
    | cons _ ih => exact List.append_left_lt ih
    | rel h => exact utf8EncodeChar_append_lt h _ _
  constructor
  · intro h
    rcases lt_trichotomy s t with hlt | rfl | hgt
    · exact hlt
    · exact absurd h (List.lt_irrefl _)
    · exact absurd (hmono hgt) (List.lt_asymm h)
  · exact hmono

end ChatRooms.Text.Utf8

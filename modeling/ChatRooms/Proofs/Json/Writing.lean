import ChatRooms.Json.RowWriter
import ChatRooms.Proofs.Json.Records
import ChatRooms.Proofs.Time.RoundTrip

/-!
What is written can be read. A string is written as a token of itself, an instant as a time stamp of
itself, and a row as an object of its fields; so that reading undoes writing.
-/

namespace ChatRooms.Json

open ChatRooms.Text ChatRooms.Text.Symbol ChatRooms.Time Grammar

/-! ### Strings -/

theorem hex4?_control {n : Nat} (h : n < 0x20) :
    hex4? (.char '0') (.char '0') (.char (Hex.digit (n / 16))) (.char (Hex.digit (n % 16))) =
      some n := by
  have hall : ∀ n < 0x20, hex4? (.char '0') (.char '0') (.char (Hex.digit (n / 16)))
      (.char (Hex.digit (n % 16))) = some n := by decide
  exact hall n h

theorem letter_escapeChar (c : Char) : Letter (escapeChar c) c := by
  by_cases hquote : c = '"'
  · subst hquote
    exact .short rfl
  by_cases hescape : c = '\\'
  · subst hescape
    exact .short rfl
  by_cases hb : c = '\x08'
  · subst hb
    exact .short rfl
  by_cases ht : c = '\t'
  · subst ht
    exact .short rfl
  by_cases hn : c = '\n'
  · subst hn
    exact .short rfl
  by_cases hf : c = '\x0c'
  · subst hf
    exact .short rfl
  by_cases hr : c = '\r'
  · subst hr
    exact .short rfl
  simp only [escapeChar, if_neg hquote, if_neg hescape, if_neg hb, if_neg ht, if_neg hn, if_neg hf,
    if_neg hr]
  split
  · rename_i hcontrol
    have hcode := Letter.code (.digits (hex4?_control hcontrol))
      (by simp [isHighSurrogate]; omega) (by simp [isLowSurrogate]; omega)
    rwa [Char.ofNat_toNat] at hcode
  · rename_i hcontrol
    exact .plain hquote hescape (Nat.not_lt.mp hcontrol)

theorem letters_escape (s : List Char) : Letters (s.flatMap escapeChar) s := by
  induction s with
  | nil => exact .nil
  | cons c s ih =>
    rw [List.flatMap_cons]
    exact .cons (letter_escapeChar c) ih

theorem text_writeText (s : String) : Text (writeText s) s := by
  have htext := Text.quoted (letters_escape s.toList)
  rwa [String.ofList_toList] at htext

/-! ### Numbers -/

/-- The digits of a positive number begin with another digit than zero. -/
theorem toDigits_head {n : Nat} (h : 0 < n) : ∃ c t, Nat.toDigits 10 n = c :: t ∧ c ≠ '0' := by
  induction n using Nat.strongRecOn with
  | _ n ih =>
    by_cases hlt : n < 10
    · have hall : ∀ m < 10, 0 < m → Nat.digitChar m ≠ '0' := by decide
      exact ⟨_, _, Nat.toDigits_of_lt_base hlt, hall n hlt h⟩
    · obtain ⟨c, t, hct, hc⟩ := ih (n / 10) (by omega) (by omega)
      refine ⟨c, t ++ [Nat.digitChar (n % 10)], ?_, hc⟩
      rw [Nat.toDigits_of_base_le (by decide) (Nat.not_lt.mp hlt), hct, List.cons_append]

theorem whole_toDigits (n : Nat) : Whole (Nat.toDigits 10 n) := by
  cases Nat.eq_zero_or_pos n with
  | inl h =>
    subst h
    exact .zero
  | inr h =>
    obtain ⟨c, t, hct, hc⟩ := toDigits_head h
    have hdigits : Digits (Nat.toDigits 10 n) := fun d hd =>
      Nat.isDigit_of_mem_toDigits (by decide) (by decide) hd
    rw [hct] at hdigits ⊢
    exact .digits (hdigits c (by simp)) hc hdigits.tail

theorem natural_writeNat {limit n : Nat} (h : n < limit) : Natural limit (writeNat n) n := by
  have hvalue := @Nat.ofDigitChars_ten_toDigits n
  have hnatural := Natural.digits (whole_toDigits n) (hvalue.symm ▸ h)
  rwa [hvalue] at hnatural

/-! ### Instants -/

/-- The character stands for itself in a string token. -/
def IsPlain (c : Char) : Prop := c ≠ '"' ∧ c ≠ '\\' ∧ 0x20 ≤ c.toNat

instance (c : Char) : Decidable (IsPlain c) := inferInstanceAs (Decidable (_ ∧ _ ∧ _))

theorem letters_plain {s : List Char} (h : ∀ c ∈ s, IsPlain c) : Letters s s := by
  induction s with
  | nil => exact .nil
  | cons c s ih =>
    obtain ⟨⟨hquote, hescape, hcontrol⟩, hs⟩ := List.forall_mem_cons.mp h
    exact .cons (.plain hquote hescape hcontrol) (ih hs)

theorem isPlain_of_isDigit {c : Char} (h : c.isDigit = true) : IsPlain c := by
  refine ⟨?_, ?_, ?_⟩
  · rintro rfl
    cases h
  · rintro rfl
    cases h
  · simp only [Char.isDigit, Bool.and_eq_true, decide_eq_true_eq, UInt32.le_iff_toNat_le] at h
    have hzero : 48 ≤ c.toNat := h.1
    omega

theorem isPlain_padded (width n : Nat) : ∀ c ∈ padded width n, IsPlain c :=
  fun c hc => isPlain_of_isDigit (isDigit_of_mem_padded width n c hc)

theorem isPlain_yearText (year : Int) : ∀ c ∈ yearText year, IsPlain c := by
  unfold yearText
  split
  · exact isPlain_padded _ _
  · refine List.forall_mem_cons.mpr ⟨?_, isPlain_padded _ _⟩
    split <;> decide

theorem isPlain_fractionText (nanos : Nat) : ∀ c ∈ fractionText nanos, IsPlain c := by
  have hpoint : IsPlain '.' := by decide
  unfold fractionText
  split
  · simp
  · split
    · exact List.forall_mem_cons.mpr ⟨hpoint, isPlain_padded _ _⟩
    · split
      · exact List.forall_mem_cons.mpr ⟨hpoint, isPlain_padded _ _⟩
      · exact List.forall_mem_cons.mpr ⟨hpoint, isPlain_padded _ _⟩

theorem isPlain_chars (t : Instant) : ∀ c ∈ t.chars .letter, IsPlain c := by
  have hdash : IsPlain '-' := by decide
  have hmark : IsPlain 'T' := by decide
  have hcolon : IsPlain ':' := by decide
  have hzone : ∀ c ∈ Zone.letter.text, IsPlain c := List.forall_mem_singleton.mpr (by decide)
  simp only [Instant.chars, List.forall_mem_append, List.forall_mem_cons]
  have hdigits := isPlain_padded 2
  exact ⟨⟨⟨⟨⟨⟨⟨isPlain_yearText _, hdash, hdigits _⟩, hdash, hdigits _⟩, hmark, hdigits _⟩,
    hcolon, hdigits _⟩, hcolon, hdigits _⟩, isPlain_fractionText _⟩, hzone⟩

/-- The text of a regular instant tells the instant. -/
theorem stamp_chars {t : Instant} (h : t.IsRegular) :
    Stamp ('"' :: (t.chars .letter ++ ['"'])) t := by
  refine ⟨_, .quoted (letters_plain (isPlain_chars t)), ?_⟩
  rw [String.toList_ofList, t.read_chars, Instant.settled_of_isRegular h]

/-! ### Rows -/

/-- The value is one that a text can tell. -/
def Kind.Fits : (k : Kind) → k.Carrier → Prop
  | .instant, t => t.IsRegular
  | .optionalInstant, o => ∀ t ∈ o, t.IsRegular
  | .count, n => n < Numeral.limit
  | .text, _ | .optionalText, _ => True

theorem writes_writeKind {k : Kind} {v : k.Carrier} (h : k.Fits v) :
    Writes k (writeKind k v) v := by
  cases k with
  | text => exact text_writeText v
  | optionalText =>
    cases v with
    | none => rfl
    | some v => exact text_writeText v
  | instant => exact stamp_chars h
  | optionalInstant =>
    cases v with
    | none => rfl
    | some v => exact stamp_chars (h v rfl)
  | count => exact natural_writeNat h

/-- The values of a row are such that texts can tell them. -/
def RowFits : (fs : List Field) → Row fs → Prop
  | [], () => True
  | f :: fs, (v, row) => f.kind.Fits v ∧ RowFits fs row

/-- The members that are written have the names of the fields. -/
theorem map_fst_rowMembers (fs : List Field) (row : Row fs) :
    (rowMembers fs row).map (·.1) = fs.map (·.name) := by
  induction fs with
  | nil => rfl
  | cons f fs ih =>
    obtain ⟨v, row⟩ := row
    rw [rowMembers, List.map_cons, ih, List.map_cons]

theorem valuesOf_eq_nil {ms : List (String × List Char)} {key : String}
    (h : key ∉ ms.map (·.1)) : valuesOf ms key = [] := by
  induction ms with
  | nil => rfl
  | cons m ms ih =>
    rw [List.map_cons, List.mem_cons, not_or] at h
    rw [valuesOf_cons_of_ne _ _ (Ne.symm h.1)]
    exact ih h.2

/-- A member in front leaves the fields with other names as they are. -/
theorem Fills.cons {fs : List Field} {ms : List (String × List Char)} {row : Row fs}
    (h : Fills fs ms row) {key : String} (hkey : key ∉ fs.map (·.name)) (t : List Char) :
    Fills fs ((key, t) :: ms) row := by
  induction fs with
  | nil => trivial
  | cons f fs ih =>
    rw [List.map_cons, List.mem_cons, not_or] at hkey
    refine ⟨?_, ih h.2 hkey.2⟩
    rw [valuesOf_cons_of_ne _ _ hkey.1]
    exact h.1

theorem fills_rowMembers {fs : List Field} {row : Row fs} (hnames : (fs.map (·.name)).Nodup)
    (hrow : RowFits fs row) : Fills fs (rowMembers fs row) row := by
  induction fs with
  | nil => trivial
  | cons f fs ih =>
    obtain ⟨v, row⟩ := row
    obtain ⟨hv, hrow⟩ := hrow
    rw [List.map_cons, List.nodup_cons] at hnames
    refine ⟨.inl ⟨writeKind f.kind v, ?_, writes_writeKind hv⟩, (ih hnames.2 hrow).cons hnames.1 _⟩
    rw [rowMembers, valuesOf_cons_self, valuesOf_eq_nil (map_fst_rowMembers fs row ▸ hnames.1)]

theorem separated_commaSeparated {ms : List (String × List Char)} (hne : ms ≠ [])
    (hv : ∀ m ∈ ms, Value m.2) : Separated Member ms (commaSeparated (ms.map writeMember)) := by
  induction ms with
  | nil => exact absurd rfl hne
  | cons m ms ih =>
    obtain ⟨key, t⟩ := m
    obtain ⟨ht, hms⟩ := List.forall_mem_cons.mp hv
    have hspace : Space [] := by simp [Space]
    have hmember : Member (key, t) (writeMember (key, t)) := by
      have hentry := Member.entry hspace (text_writeText key) hspace hspace ht hspace
      rwa [List.append_nil] at hentry
    cases ms with
    | nil => exact .last hmember
    | cons m' ms => exact .more hmember (ih (by simp) hms)

theorem object_writeObject {ms : List (String × List Char)} (hv : ∀ m ∈ ms, Value m.2) :
    Object ms (writeObject ms) := by
  cases ms with
  | nil => exact .empty (w := []) (by simp [Space])
  | cons m ms => exact .members (separated_commaSeparated (by simp) hv)

theorem value_of_mem_rowMembers {fs : List Field} {row : Row fs} (hrow : RowFits fs row) :
    ∀ m ∈ rowMembers fs row, Value m.2 := by
  induction fs with
  | nil => simp [rowMembers]
  | cons f fs ih =>
    obtain ⟨v, row⟩ := row
    exact List.forall_mem_cons.mpr ⟨(writes_writeKind hrow.1).value, ih hrow.2⟩

/-- **Reading undoes writing** for every record. -/
theorem Schema.decodeText_write {c : Schema} (hnames : (c.fields.map (·.name)).Nodup)
    {row : Row c.fields} (hrow : RowFits c.fields row) :
    c.decodeText (String.ofList (c.write row)) = .ok row := by
  have hspace : Space [] := by simp [Space]
  have hdecode := (c.decode_ok_iff hnames (c.write row) row).mpr
    ⟨[], c.write row, [], by simp, hspace, hspace, .inl ⟨_,
      object_writeObject (value_of_mem_rowMembers hrow), fills_rowMembers hnames hrow⟩⟩
  unfold Schema.decodeText
  rw [String.toList_ofList]
  dsimp only
  rw [hdecode]

end ChatRooms.Json

import ChatRooms.Json.Record
import ChatRooms.Proofs.Json.Skipping

/-!
A value of a field is read from exactly the texts that write it. Texts are string tokens, instants
are string tokens that tell a time, counts are numbers without sign, fraction and exponent.
-/

namespace ChatRooms.Json

open ChatRooms.Text ChatRooms.Text.Symbol ChatRooms.Time Grammar

/-! ### Texts of values -/

namespace Grammar

/-- The text of a value, or `null` for none. -/
def Optional {α : Type} (P : List Char → α → Prop) (t : List Char) : Option α → Prop
  | none => t = ['n', 'u', 'l', 'l']
  | some v => P t v

/-- The string token of an instant. -/
def Stamp (t : List Char) (i : Instant) : Prop :=
  ∃ s, Text t s ∧ Instant.read s.toList = .ok i

/-- The text of a value of a kind. -/
def Writes : (k : Kind) → List Char → k.Carrier → Prop
  | .text, t, v => Text t v
  | .optionalText, t, v => Optional Text t v
  | .instant, t, v => Stamp t v
  | .optionalInstant, t, v => Optional Stamp t v
  | .count, t, n => Natural Numeral.limit t n

theorem Text.value {t : List Char} {v : String} (h : Text t v) : Value t := .string h.token

theorem Stamp.value {t : List Char} {i : Instant} (h : Stamp t i) : Value t := by
  obtain ⟨s, hs, -⟩ := h
  exact hs.value

theorem Optional.value {α : Type} {P : List Char → α → Prop} {t : List Char} {o : Option α}
    (h : Optional P t o) (hP : ∀ {v}, P t v → Value t) : Value t := by
  cases o with
  | none =>
    rw [show t = _ from h]
    exact .null
  | some v => exact hP h

theorem Writes.value {k : Kind} {t : List Char} {v : k.Carrier} (h : Writes k t v) : Value t := by
  cases k with
  | text => exact Text.value h
  | optionalText => exact Optional.value h Text.value
  | instant => exact Stamp.value h
  | optionalInstant => exact Optional.value h Stamp.value
  | count => exact .number h.number

end Grammar

/-! ### Reading values -/

/-- The reader takes texts of the relation, with space before them. -/
def ReadsOnly {α : Type} (read : List Symbol → Reading α) (P : List Char → α → Prop) : Prop :=
  ∀ {s v rest}, read (ofChars s) = .ok (v, rest) →
    ∃ w t r, s = w ++ (t ++ r) ∧ rest = ofChars r ∧ Space w ∧ P t v

/-- The reader takes every text of the relation, with the space before it. -/
def ReadsAll {α : Type} (read : List Symbol → Reading α) (P : List Char → α → Prop) : Prop :=
  ∀ {w t r v}, Space w → P t v → EndsNumber r →
    read (ofChars (w ++ (t ++ r))) = .ok (v, ofChars r)

theorem readTextValue_sound (expected : String) : ReadsOnly (readTextValue expected) Text := by
  intro s v rest h
  obtain ⟨w, s, rfl, hskip, hw⟩ := skipSpace_sound s
  unfold readTextValue at h
  rw [hskip] at h
  cases s with
  | nil => cases h
  | cons c s =>
    simp only [ofChars_cons, is_char, beq_iff_eq] at h
    split at h
    · rename_i hc
      obtain ⟨t, r, hs, hrest, ht⟩ := readText_sound h
      exact ⟨w, t, r, by rw [hc, hs], hrest, hw, ht⟩
    · cases h

theorem readTextValue_complete (expected : String) : ReadsAll (readTextValue expected) Text := by
  intro w t r v hw ht _
  obtain ⟨u, rfl, hread⟩ := readText_complete ht (ofChars r)
  rw [← ofChars_append] at hread
  unfold readTextValue
  rw [List.cons_append, skipSpace_complete hw (noSpace_cons rfl), ofChars_cons]
  exact hread

theorem readInstantValue_sound : ReadsOnly readInstantValue Stamp := by
  intro s i rest h
  unfold readInstantValue at h
  split at h
  · cases h
  · rename_i hread
    split at h
    · cases h
    · rename_i hinstant
      cases h
      obtain ⟨w, t, r, hs, hrest, hw, ht⟩ := readTextValue_sound _ hread
      exact ⟨w, t, r, hs, hrest, hw, _, ht, hinstant⟩

theorem readInstantValue_complete : ReadsAll readInstantValue Stamp := by
  rintro w t r i hw ⟨s, ht, hinstant⟩ hr
  unfold readInstantValue
  rw [readTextValue_complete _ hw ht hr]
  dsimp only
  rw [hinstant]

theorem readCountValue_sound : ReadsOnly readCountValue (Natural Numeral.limit) := by
  intro s n rest h
  obtain ⟨w, s, rfl, hskip, hw⟩ := skipSpace_sound s
  unfold readCountValue at h
  rw [hskip] at h
  cases s with
  | nil => cases h
  | cons c s =>
    simp only [ofChars_cons] at h
    split at h
    · split at h
      · cases h
      · rename_i hread
        cases h
        obtain ⟨t, r, hs, hrest, ht⟩ := readNumber_natural hread
        exact ⟨w, t, r, by rw [hs], hrest, hw, ht⟩
      · cases h
      · cases h
    · cases h

theorem readCountValue_complete : ReadsAll readCountValue (Natural Numeral.limit) := by
  intro w t r n hw ht hr
  obtain ⟨c, u, rfl, hc, hread⟩ := readNumber_complete ht hr
  have hspace : isSpace c = false := isSpace_of_isStart (by simp [isStart, hc])
  unfold readCountValue
  rw [List.cons_append, skipSpace_complete hw (noSpace_cons hspace), ofChars_cons]
  simp only [is_char, isDigit_char, hc, Bool.or_true, if_true, hread]

theorem readOptional_sound {α : Type} {read : List Symbol → Reading α}
    {P : List Char → α → Prop} (h : ReadsOnly read P) :
    ReadsOnly (readOptional read) (Optional P) := by
  intro s o rest ho
  obtain ⟨w, s, rfl, hskip, hw⟩ := skipSpace_sound s
  unfold readOptional at ho
  rw [hskip] at ho
  have hsome : ∀ {s : List Char} {v}, read (ofChars s) = .ok (v, rest) →
      ∃ x t r, w ++ s = x ++ (t ++ r) ∧ rest = ofChars r ∧ Space x ∧ Optional P t (some v) := by
    intro s v hread
    obtain ⟨x, t, r, rfl, hrest, hx, ht⟩ := h hread
    exact ⟨w ++ x, t, r, by simp, hrest, hw.append hx, ht⟩
  cases s with
  | nil =>
    simp only [ofChars_nil] at ho
    split at ho
    · cases ho
    · rename_i hread
      cases ho
      exact hsome (s := []) hread
  | cons c s =>
    simp only [ofChars_cons, is_char, beq_iff_eq] at ho
    split at ho
    · rename_i hc
      split at ho
      · cases ho
      · rename_i hword
        cases ho
        obtain ⟨r, rfl, hrest⟩ := readWord_sound hword
        exact ⟨w, ['n', 'u', 'l', 'l'], r, by rw [hc]; rfl, hrest, hw, rfl⟩
    · split at ho
      · cases ho
      · rename_i hread
        cases ho
        exact hsome (s := c :: s) hread

/-- A value that is read is not `null` if it begins with a quote. -/
theorem readOptional_complete {α : Type} {read : List Symbol → Reading α}
    {P : List Char → α → Prop} (h : ReadsAll read P)
    (hquote : ∀ {t v}, P t v → ∃ u, t = '"' :: u) : ReadsAll (readOptional read) (Optional P) := by
  intro w t r o hw ho hr
  unfold readOptional
  cases o with
  | none =>
    rw [show t = _ from ho, List.cons_append, skipSpace_complete hw (noSpace_cons rfl)]
    simp [readWord]
  | some v =>
    obtain ⟨u, rfl⟩ := hquote ho
    have hread := h (w := []) (by simp [Space]) ho hr
    rw [List.nil_append, List.cons_append, ofChars_cons] at hread
    rw [List.cons_append, skipSpace_complete hw (noSpace_cons rfl), ofChars_cons]
    simp [hread, -ofChars_append]

theorem readKind_sound (k : Kind) : ReadsOnly (readKind k) (Writes k) := by
  cases k with
  | text => exact readTextValue_sound _
  | optionalText => exact readOptional_sound (readTextValue_sound _)
  | instant => exact readInstantValue_sound
  | optionalInstant => exact readOptional_sound readInstantValue_sound
  | count => exact readCountValue_sound

theorem Grammar.Text.quote {t : List Char} {v : String} (h : Text t v) : ∃ u, t = '"' :: u := by
  obtain ⟨h⟩ := h
  exact ⟨_, rfl⟩

theorem readKind_complete (k : Kind) : ReadsAll (readKind k) (Writes k) := by
  cases k with
  | text => exact readTextValue_complete _
  | optionalText => exact readOptional_complete (readTextValue_complete _) Text.quote
  | instant => exact readInstantValue_complete
  | optionalInstant =>
    exact readOptional_complete readInstantValue_complete fun ⟨_, ht, _⟩ => ht.quote
  | count => exact readCountValue_complete

end ChatRooms.Json

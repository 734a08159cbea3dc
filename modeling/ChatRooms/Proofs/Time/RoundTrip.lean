import Mathlib.Algebra.Group.Nat.Defs
import ChatRooms.Decimal.Integer
import ChatRooms.Proofs.Text.Blank
import ChatRooms.Proofs.Time.Calendar
import ChatRooms.Time.Reader

/-!
What is written of an instant is read as that instant, whatever its year, its fraction and its leap
second, as long as the leap second ends a minute. Any other one is written as the second behind it,
so that the instant in that second is read. Each part of a time stamp has one lemma, which reads the
part and leaves what follows it; `read_chars` puts the parts together.
-/

namespace ChatRooms.Time

open ChatRooms.Text

/-! ### Digits -/

/-- The text does not go on with a digit. -/
def NoDigit (s : List Char) : Prop := ∀ c ∈ s.head?, digit? c = none

theorem digit?_of_isDigit {c : Char} (h : c.isDigit = true) :
    digit? c = some (c.toNat - '0'.toNat) := by
  have hc : '0' ≤ c ∧ c ≤ '9' := by
    simpa [Char.isDigit, Char.le_def, ← UInt32.le_iff_toNat_le] using h
  simp [digit?, hc]

/-- Digits are read as their number if no more digits may follow, or none do. -/
theorem digitsOnto_append {ds rest : List Char} {n width : Nat}
    (hds : ∀ c ∈ ds, c.isDigit = true) (hlen : ds.length ≤ width)
    (hstop : ds.length = width ∨ NoDigit rest) (hlim : Nat.ofDigitChars 10 ds n < numberLimit) :
    digitsOnto n width (ds ++ rest) = .ok (Nat.ofDigitChars 10 ds n, rest) := by
  induction ds generalizing n width with
  | nil =>
    rw [List.nil_append, Nat.ofDigitChars_nil]
    cases width with
    | zero => rfl
    | succ width =>
      have hrest : NoDigit rest := hstop.resolve_left (by simp)
      cases rest with
      | nil => rfl
      | cons c rest => simp [digitsOnto, hrest c (by simp)]
  | cons c ds ih =>
    obtain ⟨width, rfl⟩ : ∃ w, width = w + 1 := ⟨width - 1, by simp at hlen; omega⟩
    rw [Nat.ofDigitChars_cons, Nat.mul_comm] at hlim
    have hstep := Decimal.le_ofDigitChars (n * 10 + (c.toNat - '0'.toNat)) ds
    rw [List.cons_append, digitsOnto, digit?_of_isDigit (hds c (by simp)), Nat.ofDigitChars_cons,
      Nat.mul_comm 10]
    dsimp only
    rw [if_pos (by omega), ih (fun d hd => hds d (by simp [hd])) (by simpa using hlen)
      (by simpa using hstop) hlim]

theorem readNumber_append {ds rest : List Char} {width : Nat} (hne : ds ≠ [])
    (hds : ∀ c ∈ ds, c.isDigit = true) (hlen : ds.length ≤ width)
    (hstop : ds.length = width ∨ NoDigit rest) (hlim : Nat.ofDigitChars 10 ds 0 < numberLimit) :
    readNumber width (ds ++ rest) = .ok (Nat.ofDigitChars 10 ds 0, rest) := by
  rw [← digitsOnto_append hds hlen hstop hlim]
  cases ds with
  | nil => exact absurd rfl hne
  | cons c ds => simp [readNumber, digit?_of_isDigit (hds c (by simp))]

section Padded

variable (width n : Nat)

theorem padded_ne_nil : padded width n ≠ [] := by
  simp [padded, Nat.toDigits_ne_nil]

theorem isDigit_of_mem_padded : ∀ c ∈ padded width n, c.isDigit = true := by
  intro c hc
  rcases List.mem_append.mp hc with hc | hc
  · rw [(List.mem_replicate.mp hc).2]
    rfl
  · exact Nat.isDigit_of_mem_toDigits (by decide) (by decide) hc

theorem ofDigitChars_padded : Nat.ofDigitChars 10 (padded width n) 0 = n := by
  simp [padded, Nat.ofDigitChars_append, Nat.ofDigitChars_replicate_zero]

theorem length_padded {width n : Nat} (hw : 0 < width) (hn : n < 10 ^ width) :
    (padded width n).length = width := by
  have hlen := (Nat.length_toDigits_le_iff (b := 10) (by decide) hw).mpr hn
  simp [padded]
  omega

/-- A padded number begins with a digit. -/
theorem padded_eq_cons : ∃ c s, padded width n = c :: s ∧ c.isDigit = true := by
  cases hp : padded width n with
  | nil => exact absurd hp (padded_ne_nil width n)
  | cons c s => exact ⟨c, s, rfl, isDigit_of_mem_padded width n c (by simp [hp])⟩

theorem trimStart_padded (s : List Char) :
    trimStart (padded width n ++ s) = padded width n ++ s := by
  obtain ⟨c, s', hp, hc⟩ := padded_eq_cons width n
  rw [hp, List.cons_append, trimStart_cons (isBlank_of_isDigit hc)]

end Padded

/-- A number is read if it fills the width, or if it fits and no digit follows. -/
theorem readNumber_padded {k width n : Nat} {rest : List Char} (hk : 0 < k) (hn : n < 10 ^ k)
    (hle : k ≤ width) (hstop : k = width ∨ NoDigit rest) (hlim : n < numberLimit) :
    readNumber width (padded k n ++ rest) = .ok (n, rest) := by
  have h := @readNumber_append _ rest width (padded_ne_nil k n) (isDigit_of_mem_padded k n)
  rw [length_padded hk hn, ofDigitChars_padded] at h
  exact h hle hstop hlim

theorem readField_padded {lo hi n : Nat} (h : lo ≤ n ∧ n ≤ hi) (hn : n < 100)
    (rest : List Char) : readField 2 lo hi (padded 2 n ++ rest) = .ok (n, rest) := by
  have hlim : n < numberLimit := Nat.lt_trans hn (by decide)
  rw [readField, trimStart_padded, readNumber_padded (by decide) hn (by decide) (.inl rfl) hlim]
  exact if_pos h

theorem readMark_cons {c : Char} (h : isBlank c = false) (rest : List Char) :
    readMark c (c :: rest) = .ok ((), rest) := by
  simp [readMark, trimStart_cons h]

/-! ### Years -/

theorem readYear_yearText {year : Int} (hlo : minYear ≤ year) (hhi : year ≤ maxYear)
    (rest : List Char) :
    readYear (yearText year ++ '-' :: rest) = .ok (year, '-' :: rest) := by
  unfold minYear at hlo
  unfold maxYear at hhi
  have hstop : NoDigit ('-' :: rest) := by
    rintro c hc
    cases hc
    rfl
  have hbounds : -2147483648 ≤ year ∧ year ≤ 2147483647 := by omega
  unfold readYear yearText
  split
  · -- four digits without a sign
    have hn : year.toNat < 10 ^ 4 := by omega
    have hread := @readNumber_padded 4 4 _ ('-' :: rest) (by decide) hn (Nat.le_refl 4) (.inl rfl)
      (Nat.lt_trans hn (by decide))
    obtain ⟨c, s, hp, hc⟩ := padded_eq_cons 4 year.toNat
    have hminus : c ≠ '-' := by
      rintro rfl
      cases hc
    have hplus : c ≠ '+' := by
      rintro rfl
      cases hc
    have hcast : ((year.toNat : Nat) : Int) = year := by omega
    rw [trimStart_padded]
    rw [hp, List.cons_append] at hread ⊢
    simp [hminus, hplus, hread, Except.map, hcast, hbounds]
  · -- a sign, and as many digits as are needed
    have hn : year.natAbs < numberLimit := Nat.lt_trans (m := 1000000) (by omega) (by decide)
    have hread := @readNumber_append _ ('-' :: rest) (padded 4 year.natAbs ++ '-' :: rest).length
      (padded_ne_nil 4 year.natAbs) (isDigit_of_mem_padded 4 year.natAbs) (by simp) (.inr hstop)
    rw [ofDigitChars_padded] at hread
    by_cases hneg : year < 0
    · have hcast : -((year.natAbs : Nat) : Int) = year := by omega
      rw [if_pos hneg, List.cons_append, trimStart_cons (by decide)]
      simp only [hread hn, Except.map, hcast]
      exact if_pos hbounds
    · have hcast : ((year.natAbs : Nat) : Int) = year := by omega
      rw [if_neg hneg, List.cons_append, trimStart_cons (by decide)]
      simp only [hread hn, Except.map, hcast]
      exact if_pos hbounds

/-! ### Fractions and zones -/

theorem noDigit_zone (zone : Zone) : NoDigit zone.text := by
  intro c hc
  cases zone <;> cases hc <;> rfl

theorem dropWhile_zone (zone : Zone) :
    (zone.text.dropWhile fun c => (digit? c).isSome) = zone.text := by
  cases zone <;> rfl

theorem readOffset_zone (zone : Zone) : readOffset (trimStart zone.text) = .ok (0, []) := by
  cases zone <;> rfl

/-- So many decimals are read as nanoseconds. -/
theorem readDecimals_padded {k n : Nat} (hk : 0 < k) (hle : k ≤ 9) (hn : n < 10 ^ k)
    (zone : Zone) :
    readDecimals (padded k n ++ zone.text) = .ok (n * 10 ^ (9 - k), zone.text) := by
  have hlim : n < numberLimit :=
    Nat.lt_of_lt_of_le hn (Nat.le_trans (Nat.pow_le_pow_right (by decide) hle) (by decide))
  rw [readDecimals, readNumber_padded hk hn hle (.inr (noDigit_zone zone)) hlim]
  simp [dropWhile_zone, length_padded hk hn]

theorem readFraction_fractionText {nanos : Nat} (h : nanos < nanosPerSecond) (zone : Zone) :
    readFraction (fractionText nanos ++ zone.text) = .ok (nanos, zone.text) := by
  unfold nanosPerSecond at h
  unfold fractionText
  split
  · subst nanos
    cases zone <;> rfl
  · split
    · rw [List.cons_append, readFraction, readDecimals_padded (by decide) (by decide) (by omega)]
      congr 2
      omega
    · split
      · rw [List.cons_append, readFraction, readDecimals_padded (by decide) (by decide) (by omega)]
        congr 2
        omega
      · rw [List.cons_append, readFraction, readDecimals_padded (by decide) (by decide) (by omega)]
        simp

/-! ### Whole time stamps -/

/-- A date that exists is read from its text. -/
theorem readDate_append {d : Date} (hd : d.isValid = true) (rest : List Char) :
    readDate (yearText d.year ++ '-' :: (padded 2 d.month ++ '-' :: (padded 2 d.day ++ rest))) =
      .ok (d, rest) := by
  simp only [Date.isValid, Bool.and_eq_true, decide_eq_true_eq] at hd
  obtain ⟨⟨⟨⟨⟨hlo, hhi⟩, hm⟩, hm'⟩, hday⟩, hday'⟩ := hd
  have hday'' := Nat.le_trans hday' (daysInMonth_le _ _)
  simp only [readDate, bind, Except.bind, readYear_yearText hlo hhi,
    readMark_cons (c := '-') (by decide), readField_padded ⟨hm, hm'⟩ (by omega),
    readField_padded ⟨hday, hday''⟩ (by omega)]
  rfl

namespace Instant

variable (t : Instant)

/-- The time stamp that is written. The second of a leap second is 60. -/
def stamp : Stamp :=
  { date := t.date
    hour := t.secondOfDay / 3600
    minute := t.secondOfDay / 60 % 60
    second := t.secondOfDay % 60 + t.nanos / nanosPerSecond
    nanos := t.nanos % nanosPerSecond
    offset := 0 }

/-- The second and the nanoseconds that are written. -/
theorem leap_cases :
    (t.nanos < nanosPerSecond ∧ t.nanos / nanosPerSecond = 0 ∧
      t.nanos % nanosPerSecond = t.nanos) ∨
    (nanosPerSecond ≤ t.nanos ∧ t.nanos / nanosPerSecond = 1 ∧
      t.nanos % nanosPerSecond + nanosPerSecond = t.nanos) := by
  have hlt := t.nanos_lt
  unfold nanosPerSecond at *
  omega

/-- Days begin with a minute. -/
theorem secondOfDay_mod : (t.secondOfDay % 60 : Int) = t.seconds % 60 := by
  unfold secondOfDay secondsPerDay
  omega

theorem readStamp_chars (zone : Zone) : readStamp (t.chars zone) = .ok t.stamp := by
  have hday := t.secondOfDay_lt
  have hhour : 0 ≤ t.secondOfDay / 3600 ∧ t.secondOfDay / 3600 ≤ 23 := by omega
  have hminute : 0 ≤ t.secondOfDay / 60 % 60 ∧ t.secondOfDay / 60 % 60 ≤ 59 := by omega
  have hsecond : 0 ≤ t.secondOfDay % 60 + t.nanos / nanosPerSecond ∧
      t.secondOfDay % 60 + t.nanos / nanosPerSecond ≤ 60 := by
    have hleap := t.leap_cases
    omega
  have hnanos : t.nanos % nanosPerSecond < nanosPerSecond := Nat.mod_lt _ (by decide)
  have hmark := fun rest => readMark_cons (c := ':') (by decide) rest
  have hsep : ∀ rest, readSeparator ('T' :: rest) = .ok ((), rest) := fun rest => by
    simp [readSeparator]
  simp only [chars, List.append_assoc, List.cons_append]
  simp only [readStamp, bind, Except.bind, readDate_append t.date_isValid, hsep, hmark,
    readField_padded hhour (by omega), readField_padded hminute (by omega),
    readField_padded hsecond (by omega), readFraction_fractionText hnanos, readOffset_zone]
  rfl

/-! ### The instant that is read -/

/-- A leap second that does not end its minute is not the last second of the range. -/
theorem seconds_lt_of_not_isRegular {t : Instant} (h : ¬t.IsRegular) :
    nanosPerSecond ≤ t.nanos ∧ t.seconds % 60 ≠ 59 ∧ t.seconds < maxSeconds := by
  obtain ⟨hnanos, hsecond⟩ := Classical.not_imp.mp h
  have hmax : maxSeconds % 60 = 59 := by decide
  obtain ⟨-, hle⟩ := t.inRange
  exact ⟨hnanos, hsecond, by omega⟩

/-- The regular instant with the same text. A leap second that does not end its minute counts as the
second behind it. -/
def settled (t : Instant) : Instant :=
  if h : t.IsRegular then t
  else
    { seconds := t.seconds + 1
      nanos := t.nanos - nanosPerSecond
      inRange := by
        have hlt := seconds_lt_of_not_isRegular h
        have hrange := t.inRange
        omega
      nanos_lt := Nat.lt_of_le_of_lt (Nat.sub_le ..) t.nanos_lt }

theorem settled_of_isRegular {t : Instant} (h : t.IsRegular) : t.settled = t := dif_pos h

theorem settled_of_not_isRegular {t : Instant} (h : ¬t.IsRegular) :
    t.settled.seconds = t.seconds + 1 ∧ t.settled.nanos = t.nanos - nanosPerSecond := by
  rw [settled, dif_neg h]
  exact ⟨rfl, rfl⟩

theorem settled_isRegular : t.settled.IsRegular := by
  by_cases h : t.IsRegular
  · rw [settled_of_isRegular h]
    exact h
  · intro hleap
    obtain ⟨-, hnanos⟩ := settled_of_not_isRegular h
    have hlt := t.nanos_lt
    omega

theorem settled_eq_self_iff : t.settled = t ↔ t.IsRegular :=
  ⟨fun h => h ▸ t.settled_isRegular, settled_of_isRegular⟩

/-- An instant and the regular one have the same stamp, and so the same text. -/
theorem stamp_settled : t.settled.stamp = t.stamp ∧
    ∀ zone, t.settled.chars zone = t.chars zone := by
  by_cases h : t.IsRegular
  · rw [settled_of_isRegular h]
    exact ⟨rfl, fun _ => rfl⟩
  obtain ⟨hseconds, hnanos⟩ := settled_of_not_isRegular h
  obtain ⟨hleap, hne, -⟩ := seconds_lt_of_not_isRegular h
  have hlt := t.nanos_lt
  have hdate : t.settled.date = t.date := by
    unfold date
    rw [hseconds]
    congr 1
    unfold secondsPerDay
    omega
  -- the second behind it lies in the same minute
  have hday : t.settled.secondOfDay = t.secondOfDay + 1 ∧ t.secondOfDay % 60 ≠ 59 := by
    unfold secondOfDay
    rw [hseconds]
    unfold secondsPerDay
    omega
  have hhour : t.settled.secondOfDay / 3600 = t.secondOfDay / 3600 := by omega
  have hminute : t.settled.secondOfDay / 60 % 60 = t.secondOfDay / 60 % 60 := by omega
  have hsecond : t.settled.secondOfDay % 60 + t.settled.nanos / nanosPerSecond =
      t.secondOfDay % 60 + t.nanos / nanosPerSecond := by
    rw [hnanos]
    unfold nanosPerSecond at *
    omega
  have hfraction : t.settled.nanos % nanosPerSecond = t.nanos % nanosPerSecond := by
    rw [hnanos]
    unfold nanosPerSecond at *
    omega
  constructor
  · unfold stamp
    rw [hdate, hhour, hminute, hsecond, hfraction]
  · intro zone
    unfold chars
    dsimp only
    rw [hdate, hhour, hminute, hsecond, hfraction]

theorem instant_stamp_of_isRegular {t : Instant} (h : t.IsRegular) :
    t.stamp.instant = .ok t := by
  have hseconds : t.date.toDay * secondsPerDay + (t.secondOfDay / 3600 * 3600 +
      t.secondOfDay / 60 % 60 * 60 + t.secondOfDay % 60 : Nat) = t.seconds := by
    rw [← t.seconds_eq]
    omega
  have hparts : ofParts? t.seconds t.nanos = some t := by
    unfold IsRegular at h
    rw [ofParts?, if_pos h, withParts?_eq_some_iff]
    exact ⟨rfl, rfl⟩
  unfold Stamp.instant stamp
  dsimp only
  rw [if_neg (by simp [t.date_isValid]), if_neg (by omega)]
  rcases t.leap_cases with ⟨hlt, hdiv, hmod⟩ | ⟨hleap, hdiv, hmod⟩
  · rw [hdiv, hmod, Nat.add_zero, if_neg (by omega), if_neg (by omega), hseconds, Int.sub_zero,
      hparts]
  · have hlast : t.secondOfDay % 60 = 59 := by
      have hend := h hleap
      rw [← t.secondOfDay_mod] at hend
      omega
    rw [hlast] at hseconds
    rw [hdiv, hlast, if_pos rfl, if_pos rfl, hseconds, Int.sub_zero, hmod, hparts]

theorem instant_stamp : t.stamp.instant = .ok t.settled := by
  rw [← t.stamp_settled.1]
  exact instant_stamp_of_isRegular t.settled_isRegular

/-- **What is written of an instant is read as the regular instant with its text.** -/
theorem read_chars (zone : Zone) : Instant.read (t.chars zone) = .ok t.settled := by
  rw [Instant.read, readStamp_chars]
  exact t.instant_stamp

theorem read?_storedText {t : Instant} (h : t.IsRegular) :
    Instant.read? t.storedText = some t := by
  simp [Instant.read?, storedText, read_chars, settled_of_isRegular h]

theorem isRegular_of_ofParts? {t : Instant} {seconds : Int} {nanos : Nat}
    (h : ofParts? seconds nanos = some t) : t.IsRegular := by
  unfold ofParts? at h
  split at h
  · rename_i hleap
    obtain ⟨rfl, rfl⟩ := withParts?_eq_some_iff.mp h
    exact hleap
  · cases h

/-- What is read is regular, whatever text it is read from. -/
theorem isRegular_of_read {t : Instant} {s : List Char} (h : Instant.read s = .ok t) :
    t.IsRegular := by
  unfold Instant.read at h
  cases hstamp : readStamp s with
  | error e =>
    rw [hstamp] at h
    cases h
  | ok p =>
    rw [hstamp] at h
    change p.instant = .ok t at h
    unfold Stamp.instant at h
    split at h
    · cases h
    split at h
    · cases h
    dsimp only at h
    split at h
    · rename_i hparts
      cases h
      exact isRegular_of_ofParts? hparts
    · cases h

/-- An instant that is so much later than a regular one is regular: a leap second is only left, or
moved about in. -/
theorem IsRegular.addNanos? {t u : Instant} {span : Int} (h : t.IsRegular)
    (hsum : t.addNanos? span = some u) : u.IsRegular := by
  have hcarry : ∀ {seconds nanos : Int}, addNanos?.carry seconds nanos = some u →
      u.IsRegular := by
    intro seconds nanos hu hleap
    obtain ⟨-, hnanos⟩ := withParts?_eq_some_iff.mp hu
    unfold nanosPerSecond at *
    omega
  unfold Instant.addNanos? at hsum
  dsimp only at hsum
  split at hsum
  · rename_i hin
    simp only [Bool.and_eq_true, decide_eq_true_eq] at hin
    obtain ⟨hseconds, -⟩ := withParts?_eq_some_iff.mp hsum
    intro _
    rw [hseconds]
    exact h hin.1.1
  · split at hsum
    · exact hcarry hsum
    · split at hsum
      · exact hcarry hsum
      · exact hcarry hsum

end Instant

end ChatRooms.Time

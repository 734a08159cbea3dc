import Mathlib.Data.List.Lex
import Mathlib.Order.Monotone.Basic
import Mathlib.Tactic.Linarith
import Mathlib.Tactic.Ring
import ChatRooms.Proofs.Text.Utf8
import ChatRooms.Proofs.Time.RoundTrip

/-!
The order of stored texts. In the years that are written with four digits and no sign, the texts of
regular instants stand in the order of the instants, character by character and byte by byte. Digits
are compared from the left, which orders numbers of one width. Fractions have different widths, but
a shorter one ends with the `+` of the zone, which stands before the point and before all digits.
-/

namespace ChatRooms.Time

open ChatRooms.Text

/-! ### Digits -/

theorem ofDigitChars_cons (c : Char) (ds : List Char) : Nat.ofDigitChars 10 (c :: ds) 0 =
    (c.toNat - '0'.toNat) * 10 ^ ds.length + Nat.ofDigitChars 10 ds 0 := by
  rw [Nat.ofDigitChars_cons, Nat.ofDigitChars_eq_ofDigitChars_zero]
  ring

theorem lt_iff_toNat_lt {c d : Char} : c < d ↔ c.toNat < d.toNat := UInt32.lt_iff_toNat_lt

theorem ofDigitChars_lt {ds : List Char} (h : ∀ c ∈ ds, c.isDigit = true) :
    Nat.ofDigitChars 10 ds 0 < 10 ^ ds.length := by
  induction ds with
  | nil => simp
  | cons c ds ih =>
    have hc := toNat_of_isDigit (h c List.mem_cons_self)
    have hrest := ih fun d hd => h d (List.mem_cons_of_mem c hd)
    have hvalue : c.toNat - '0'.toNat ≤ 9 := by
      have hzero : '0'.toNat = 48 := rfl
      omega
    have hmul := Nat.mul_le_mul_right (10 ^ ds.length) hvalue
    rw [ofDigitChars_cons, List.length_cons, Nat.pow_succ]
    omega

/-- Digits behind a point are compared as the fractions that they write, if no more digits follow
the shorter ones, or what follows them stands before all digits. -/
theorem append_lt_append_of_fraction_lt {xs ys s t : List Char}
    (hxs : ∀ c ∈ xs, c.isDigit = true) (hys : ∀ c ∈ ys, c.isDigit = true)
    (hstop : ys.length ≤ xs.length ∨ ∃ c r, s = c :: r ∧ c < '0')
    (h : Nat.ofDigitChars 10 xs 0 * 10 ^ ys.length < Nat.ofDigitChars 10 ys 0 * 10 ^ xs.length) :
    xs ++ s < ys ++ t := by
  induction xs generalizing ys with
  | nil =>
    cases ys with
    | nil => simp at h
    | cons d ys =>
      have hd := toNat_of_isDigit (hys d List.mem_cons_self)
      rcases hstop with hlen | ⟨c, r, rfl, hc⟩
      · simp at hlen
      · refine List.cons_lt_cons_iff.mpr (.inl (lt_iff_toNat_lt.mpr ?_))
        have hc' := lt_iff_toNat_lt.mp hc
        have hzero : '0'.toNat = 48 := rfl
        omega
  | cons c xs ih =>
    cases ys with
    | nil => simp at h
    | cons d ys =>
      have hc := toNat_of_isDigit (hxs c List.mem_cons_self)
      have hd := toNat_of_isDigit (hys d List.mem_cons_self)
      have hxs' := fun e he => hxs e (List.mem_cons_of_mem c he)
      have hys' := fun e he => hys e (List.mem_cons_of_mem d he)
      have hzero : '0'.toNat = 48 := rfl
      rw [List.cons_append, List.cons_append, List.cons_lt_cons_iff]
      simp only [ofDigitChars_cons, List.length_cons, Nat.pow_succ] at h
      rcases Nat.lt_trichotomy c.toNat d.toNat with hlt | heq | hgt
      · exact .inl (lt_iff_toNat_lt.mpr hlt)
      · have hcd : c = d := Char.toNat_inj.mp heq
        subst hcd
        refine .inr ⟨rfl, ih hxs' hys' (hstop.imp_left Nat.le_of_succ_le_succ) ?_⟩
        nlinarith
      · -- the fraction of `ys` is less than the next value of its first digit
        have hless := ofDigitChars_lt hys'
        have hnext : d.toNat - '0'.toNat + 1 ≤ c.toNat - '0'.toNat := by omega
        exfalso
        revert h
        generalize hv : c.toNat - '0'.toNat = v at hnext
        generalize hw : d.toNat - '0'.toNat = w at hnext
        generalize hx : 10 ^ xs.length = x
        generalize hy : 10 ^ ys.length = y at hless
        intro h
        have hxpos : 0 < x := by rw [← hx]; positivity
        nlinarith [Nat.mul_le_mul_right (x * y) hnext, Nat.mul_lt_mul_of_pos_right hless hxpos]

/-- A number of a fixed width is compared by its value, and then by what follows. -/
theorem padded_append_lt {k m n : Nat} (hk : 0 < k) (hm : m < 10 ^ k) (hn : n < 10 ^ k)
    {s t : List Char} (h : m < n ∨ m = n ∧ s < t) : padded k m ++ s < padded k n ++ t := by
  rcases h with h | ⟨rfl, h⟩
  · have hlen : (padded k m).length = (padded k n).length := by
      rw [length_padded hk hm, length_padded hk hn]
    refine append_lt_append_of_fraction_lt (isDigit_of_mem_padded k m) (isDigit_of_mem_padded k n)
      (.inl hlen.ge) ?_
    rw [ofDigitChars_padded, ofDigitChars_padded, hlen]
    exact Nat.mul_lt_mul_of_pos_right h (by positivity)
  · exact List.append_left_lt h

/-! ### Fractions -/

/-- A fraction is not written at all, or with some of its nine digits, behind which there are only
zeros. -/
theorem fractionText_cases {nanos : Nat} (h : nanos < nanosPerSecond) :
    (nanos = 0 ∧ fractionText nanos = []) ∨
    ∃ k n, 0 < k ∧ k ≤ 9 ∧ n < 10 ^ k ∧ n * 10 ^ (9 - k) = nanos ∧
      fractionText nanos = '.' :: padded k n := by
  unfold nanosPerSecond at h
  unfold fractionText
  split
  · rename_i hzero
    exact .inl ⟨hzero, rfl⟩
  · right
    split
    · exact ⟨3, nanos / 1000000, by decide, by decide, by omega, by omega, rfl⟩
    · split
      · exact ⟨6, nanos / 1000, by decide, by decide, by omega, by omega, rfl⟩
      · exact ⟨9, nanos, by decide, by decide, by omega, by omega, rfl⟩

/-- Fractions of any width stand in their order before the zone of a stored text. -/
theorem fractionText_append_lt {m n : Nat} (hm : m < nanosPerSecond) (hn : n < nanosPerSecond)
    (h : m < n) :
    fractionText m ++ Zone.offset.text < fractionText n ++ Zone.offset.text := by
  rcases fractionText_cases hn with ⟨hzero, -⟩ | ⟨k', n', hk', hle', hn', rfl, hn⟩
  · omega
  rw [hn]
  rcases fractionText_cases hm with ⟨-, hm⟩ | ⟨k, m', hk, hle, hm', rfl, hm⟩
  · rw [hm]
    exact List.cons_lt_cons_iff.mpr (.inl (by decide))
  · rw [hm]
    refine List.cons_lt_cons_iff.mpr (.inr ⟨rfl, ?_⟩)
    refine append_lt_append_of_fraction_lt (isDigit_of_mem_padded k m')
      (isDigit_of_mem_padded k' n') (.inr ⟨'+', _, rfl, by decide⟩) ?_
    rw [ofDigitChars_padded, ofDigitChars_padded, length_padded hk hm', length_padded hk' hn']
    -- both sides are compared after they have been written with nine digits
    have hnine := Nat.pow_sub_mul_pow 10 hle
    have hnine' := Nat.pow_sub_mul_pow 10 hle'
    by_contra hge
    have hscaled := Nat.mul_le_mul_right (10 ^ (9 - k) * 10 ^ (9 - k')) (Nat.le_of_not_lt hge)
    have hleft : n' * 10 ^ k * (10 ^ (9 - k) * 10 ^ (9 - k')) = n' * 10 ^ (9 - k') * 10 ^ 9 := by
      rw [← hnine]
      ring
    have hright : m' * 10 ^ k' * (10 ^ (9 - k) * 10 ^ (9 - k')) = m' * 10 ^ (9 - k) * 10 ^ 9 := by
      rw [← hnine']
      ring
    rw [hleft, hright] at hscaled
    omega

/-! ### Dates -/

theorem daysBeforeMonth_mono (leap : Bool) : Monotone (daysBeforeMonth leap) := by
  refine monotone_nat_of_le_succ fun month => ?_
  cases month with
  | zero => exact Nat.le_refl _
  | succ month =>
    rw [daysBeforeMonth_succ]
    exact Nat.le_add_right ..

namespace Date

/-- The date stands in the calendar, in whatever year. -/
structure Stands (d : Date) : Prop where
  month : 1 ≤ d.month ∧ d.month ≤ 12
  day : 1 ≤ d.day ∧ d.day ≤ daysInMonth (isLeapYear d.year) d.month

theorem stands_ofDay (day : Int) : (ofDay day).Stands := by
  obtain ⟨-, hmonth, hmonth', hday, hday', -⟩ := ofDay_spec day
  exact ⟨⟨hmonth, hmonth'⟩, ⟨hday, hday'⟩⟩

namespace Stands

variable {d e : Date}

/-- A month ends before the first day of each later one. -/
theorem before_month (h : d.Stands) {month : Nat} (hm : d.month < month) :
    daysBeforeMonth (isLeapYear d.year) d.month + (d.day - 1) <
      daysBeforeMonth (isLeapYear d.year) month := by
  have hmonth := h.month
  have hday := h.day
  have hnext := daysBeforeMonth_mono (isLeapYear d.year) hm
  obtain ⟨month', hmonth'⟩ : ∃ month', d.month = month' + 1 := ⟨d.month - 1, by omega⟩
  rw [Nat.succ_eq_add_one, hmonth', daysBeforeMonth_succ, ← hmonth'] at hnext
  omega

/-- A year ends before the first day of each later one. -/
theorem before_year (h : d.Stands) {year : Int} (hy : d.year < year) :
    d.toDay < daysBeforeYear year - epoch := by
  have hmonth : d.month < 13 := Nat.lt_succ_of_le h.month.2
  have hend := h.before_month hmonth
  have hsucc := daysBeforeYear_succ d.year
  have hmono := daysBeforeYear_mono (a := d.year + 1) (b := year) (by omega)
  rw [daysBeforeMonth_end] at hend
  unfold toDay
  split at hend <;> simp_all <;> omega

/-- Dates stand in the order of their days. -/
theorem lex_of_toDay_lt (hd : d.Stands) (he : e.Stands) (h : d.toDay < e.toDay) :
    d.year < e.year ∨ d.year = e.year ∧
      (d.month < e.month ∨ d.month = e.month ∧ d.day < e.day) := by
  have hstart : daysBeforeYear d.year - epoch ≤ d.toDay := by
    unfold toDay
    omega
  rcases lt_trichotomy d.year e.year with hy | hy | hy
  · exact .inl hy
  · refine .inr ⟨hy, ?_⟩
    rcases Nat.lt_trichotomy d.month e.month with hm | hm | hm
    · exact .inl hm
    · have hday := hd.day
      have hday' := he.day
      unfold toDay at h
      rw [hy, hm] at h
      exact .inr ⟨hm, by omega⟩
    · have hbefore := he.before_month hm
      unfold toDay at h
      rw [hy] at h
      omega
  · have hbefore := he.before_year hy
    omega

end Stands

end Date

/-! ### Time stamps -/

/-- The parts of one time stamp come before those of another, compared from the year down to the
fraction. -/
def Stamp.Precedes (p q : Stamp) : Prop :=
  p.date.year < q.date.year ∨ p.date.year = q.date.year ∧
    (p.date.month < q.date.month ∨ p.date.month = q.date.month ∧
      (p.date.day < q.date.day ∨ p.date.day = q.date.day ∧
        (p.hour < q.hour ∨ p.hour = q.hour ∧
          (p.minute < q.minute ∨ p.minute = q.minute ∧
            (p.second < q.second ∨ p.second = q.second ∧ p.nanos < q.nanos)))))

namespace Instant

variable {t u : Instant}

theorem before_iff : t.before u = true ↔
    t.seconds < u.seconds ∨ t.seconds = u.seconds ∧ t.nanos < u.nanos := by
  simp [before]

/-- Of two instants one comes before the other, or they are the same. -/
theorem before_trichotomy (t u : Instant) : t.before u = true ∨ t = u ∨ u.before t = true := by
  rw [before_iff, before_iff]
  rcases lt_trichotomy t.seconds u.seconds with hs | hs | hs
  · exact .inl (.inl hs)
  · rcases Nat.lt_trichotomy t.nanos u.nanos with hn | hn | hn
    · exact .inl (.inr ⟨hs, hn⟩)
    · exact .inr (.inl (Instant.ext hs hn))
    · exact .inr (.inr (.inr ⟨hs.symm, hn⟩))
  · exact .inr (.inr (.inl hs))

/-- What comes before is written with earlier parts, a leap second as second 60 included. -/
theorem precedes_of_before (ht : t.IsRegular) (h : t.before u = true) :
    t.stamp.Precedes u.stamp := by
  rw [before_iff] at h
  have htime := t.leap_cases
  have htime' := u.leap_cases
  have hlast : nanosPerSecond ≤ t.nanos → t.secondOfDay % 60 = 59 := by
    intro hleap
    have hend := ht hleap
    rw [← t.secondOfDay_mod] at hend
    omega
  have hday : t.seconds / secondsPerDay < u.seconds / secondsPerDay ∨
      t.seconds / secondsPerDay = u.seconds / secondsPerDay ∧
        (t.secondOfDay < u.secondOfDay ∨ t.secondOfDay = u.secondOfDay ∧ t.nanos < u.nanos) := by
    unfold secondOfDay secondsPerDay
    omega
  rcases hday with hday | ⟨hday, hrest⟩
  · have hlt : t.date.toDay < u.date.toDay := by
      unfold date
      rw [Date.toDay_ofDay, Date.toDay_ofDay]
      exact hday
    have hlex := (Date.stands_ofDay _).lex_of_toDay_lt (Date.stands_ofDay _) hlt
    exact hlex.imp_right fun ⟨hy, hrest⟩ =>
      ⟨hy, hrest.imp_right fun ⟨hm, hd⟩ => ⟨hm, .inl hd⟩⟩
  · have hdate : t.date = u.date := congrArg Date.ofDay hday
    unfold Stamp.Precedes stamp
    dsimp only
    rw [hdate]
    omega

/-- The year is written with four digits and no sign. -/
def HasPlainYear (t : Instant) : Prop := 0 ≤ t.date.year ∧ t.date.year ≤ 9999

instance : Decidable t.HasPlainYear := inferInstanceAs (Decidable (_ ∧ _))

/-- Texts stand in the order of the parts of their time stamps. -/
theorem chars_lt_of_precedes (ht : t.HasPlainYear) (hu : u.HasPlainYear)
    (h : t.stamp.Precedes u.stamp) : t.chars .offset < u.chars .offset := by
  have hfits : ∀ v : Instant, v.HasPlainYear → yearText v.date.year = padded 4 v.date.year.toNat ∧
      v.date.year.toNat < 10 ^ 4 ∧ v.date.month < 10 ^ 2 ∧ v.date.day < 10 ^ 2 ∧
      v.secondOfDay / 3600 < 10 ^ 2 ∧ v.secondOfDay / 60 % 60 < 10 ^ 2 ∧
      v.secondOfDay % 60 + v.nanos / nanosPerSecond < 10 ^ 2 ∧
      v.nanos % nanosPerSecond < nanosPerSecond := by
    intro v hv
    obtain ⟨hmonth, hday⟩ := Date.stands_ofDay (v.seconds / secondsPerDay)
    have hmax := daysInMonth_le (isLeapYear v.date.year) v.date.month
    have hsecond := v.secondOfDay_lt
    have hleap := v.leap_cases
    obtain ⟨hlo, hhi⟩ := hv
    rw [← date] at hmonth hday
    refine ⟨if_pos ⟨hlo, hhi⟩, by omega, by omega, by omega, by omega, by omega, by omega,
      Nat.mod_lt _ (by decide)⟩
  obtain ⟨hyear, hy, hmo, hd, hh, hmi, hs, hn⟩ := hfits t ht
  obtain ⟨hyear', hy', hmo', hd', hh', hmi', hs', hn'⟩ := hfits u hu
  have hsep : ∀ (c : Char) {s s' : List Char}, s < s' → c :: s < c :: s' := fun c _ _ h =>
    List.cons_lt_cons_iff.mpr (.inr ⟨rfl, h⟩)
  unfold Stamp.Precedes stamp at h
  dsimp only at h
  simp only [chars, hyear, hyear', List.append_assoc, List.cons_append]
  have hcast : t.date.year < u.date.year ↔ t.date.year.toNat < u.date.year.toNat := by
    have := ht.1
    have := hu.1
    omega
  -- the parts are compared one after the other, each one at its width
  refine padded_append_lt (by decide) hy hy'
    (h.imp hcast.mp (And.imp (congrArg Int.toNat) fun h => hsep '-' ?_))
  refine padded_append_lt (by decide) hmo hmo' (h.imp_right (And.imp_right fun h => hsep '-' ?_))
  refine padded_append_lt (by decide) hd hd' (h.imp_right (And.imp_right fun h => hsep 'T' ?_))
  refine padded_append_lt (by decide) hh hh' (h.imp_right (And.imp_right fun h => hsep ':' ?_))
  refine padded_append_lt (by decide) hmi hmi' (h.imp_right (And.imp_right fun h => hsep ':' ?_))
  refine padded_append_lt (by decide) hs hs' (h.imp_right (And.imp_right fun h => ?_))
  exact fractionText_append_lt hn hn' h

/-! ### Stored texts -/

section Stored

variable (ht : t.IsRegular) (hu : u.IsRegular) (hyear : t.HasPlainYear) (hyear' : u.HasPlainYear)

include ht hu hyear hyear'

/-- The characters of stored texts stand in the order of their instants. -/
theorem chars_lt_iff : t.chars .offset < u.chars .offset ↔ t.before u = true := by
  constructor
  · intro h
    rcases before_trichotomy t u with hb | rfl | hb
    · exact hb
    · exact absurd h (List.lt_irrefl _)
    · exact absurd (chars_lt_of_precedes hyear' hyear (precedes_of_before hu hb))
        (List.lt_asymm h)
  · intro h
    exact chars_lt_of_precedes hyear hyear' (precedes_of_before ht h)

theorem storedText_lt_iff : t.storedText < u.storedText ↔ t.before u = true := by
  rw [String.lt_iff_toList_lt, storedText, storedText, String.toList_ofList, String.toList_ofList]
  exact chars_lt_iff ht hu hyear hyear'

theorem encode_storedText_lt_iff :
    Utf8.encode t.storedText.toList < Utf8.encode u.storedText.toList ↔ t.before u = true := by
  rw [Utf8.encode_lt_encode_iff, ← String.lt_iff_toList_lt]
  exact storedText_lt_iff ht hu hyear hyear'

end Stored

end Instant

end ChatRooms.Time

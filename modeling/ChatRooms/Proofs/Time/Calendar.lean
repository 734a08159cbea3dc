import Mathlib.Tactic.ByContra
import Mathlib.Tactic.Set
import ChatRooms.Time.Writer

/-!
The calendar: the date of a day exists, and its day number is that day again. A year begins before
the days in it, and so does a month. Spans are added to the nanosecond.
-/

namespace ChatRooms.Time

/-! ### Years -/

theorem daysBeforeYear_succ (year : Int) :
    daysBeforeYear (year + 1) = daysBeforeYear year + if isLeapYear year then 366 else 365 := by
  unfold daysBeforeYear isLeapYear
  dsimp only
  split <;> simp_all <;> omega

/-- The leap days before a year, by groups of four, a hundred and four hundred years. -/
theorem daysBeforeYear_eq (year : Int) :
    daysBeforeYear year = 365 * year + (year - 1) / 4 - (year - 1) / 4 / 25 +
      (year - 1) / 4 / 25 / 4 + 1 := by
  unfold daysBeforeYear
  dsimp only
  omega

theorem daysBeforeYear_mono {a b : Int} (h : a ≤ b) : daysBeforeYear a ≤ daysBeforeYear b := by
  rw [daysBeforeYear_eq, daysBeforeYear_eq]
  omega

/-- Four hundred years have 146097 days, and no year is far from its share of them. -/
theorem daysBeforeYear_near (year : Int) :
    146097 * year - 400 < 400 * daysBeforeYear year ∧
      400 * daysBeforeYear year < 146097 * year + 800 := by
  rw [daysBeforeYear_eq]
  omega

/-- Every day lies in its year. -/
theorem yearOf_spec (n : Int) :
    daysBeforeYear (Date.yearOf n) ≤ n ∧ n < daysBeforeYear (Date.yearOf n + 1) := by
  -- the year of the average is the right one, or is beside it
  obtain ⟨hlo, hhi⟩ := daysBeforeYear_near (n * 400 / 146097)
  obtain ⟨hlo', hhi'⟩ := daysBeforeYear_near (n * 400 / 146097 + 1)
  have hbefore := daysBeforeYear_succ (n * 400 / 146097 - 1)
  have hafter := daysBeforeYear_succ (n * 400 / 146097 + 1)
  rw [Int.sub_add_cancel] at hbefore
  unfold Date.yearOf
  dsimp only
  split
  · rw [Int.sub_add_cancel]
    split at hbefore <;> omega
  · split
    · split at hafter <;> omega
    · omega

/-! ### Months -/

theorem daysBeforeMonth_succ (leap : Bool) (month : Nat) :
    daysBeforeMonth leap (month + 2) =
      daysBeforeMonth leap (month + 1) + daysInMonth leap (month + 1) := rfl

theorem daysInMonth_le (leap : Bool) (month : Nat) : daysInMonth leap month ≤ 31 := by
  unfold daysInMonth
  split <;> try split
  all_goals decide

/-- The month and the day that are found for a day of a year, which lies before the end of the month
from which the search goes down. -/
theorem monthAndDay_spec (leap : Bool) {dayOfYear month : Nat}
    (h : dayOfYear < daysBeforeMonth leap (month + 1)) :
    let (m, d) := Date.monthAndDay leap dayOfYear month
    1 ≤ m ∧ m ≤ month ∧ 1 ≤ d ∧ d ≤ daysInMonth leap m ∧
      daysBeforeMonth leap m + (d - 1) = dayOfYear := by
  induction month with
  | zero => exact absurd h (Nat.not_lt_zero _)
  | succ month ih =>
    unfold Date.monthAndDay
    by_cases hm : daysBeforeMonth leap (month + 1) ≤ dayOfYear
    · rw [daysBeforeMonth_succ] at h
      rw [if_pos hm]
      dsimp only
      omega
    · obtain ⟨h₁, h₂, hrest⟩ := ih (by omega)
      rw [if_neg hm]
      exact ⟨h₁, by omega, hrest⟩

theorem daysBeforeMonth_end (leap : Bool) :
    daysBeforeMonth leap 13 = if leap then 366 else 365 := by
  cases leap <;> rfl

/-! ### Dates -/

namespace Date

/-- Where a day lies: in a year, and in a month of it. -/
theorem ofDay_spec (day : Int) :
    let d := ofDay day
    d.year = yearOf (day + epoch) ∧ 1 ≤ d.month ∧ d.month ≤ 12 ∧ 1 ≤ d.day ∧
      d.day ≤ daysInMonth (isLeapYear d.year) d.month ∧ d.toDay = day := by
  obtain ⟨hstart, hend⟩ := yearOf_spec (day + epoch)
  rw [daysBeforeYear_succ] at hend
  set year := yearOf (day + epoch) with hyear
  have hlt : (day + epoch - daysBeforeYear year).toNat <
      daysBeforeMonth (isLeapYear year) (12 + 1) := by
    rw [daysBeforeMonth_end]
    split at hend <;> simp_all <;> omega
  have hspec := monthAndDay_spec (isLeapYear year) hlt
  unfold toDay ofDay
  dsimp only
  rw [← hyear]
  revert hspec
  rcases monthAndDay (isLeapYear year) (day + epoch - daysBeforeYear year).toNat 12 with ⟨m, d⟩
  rintro ⟨h₁, h₂, h₃, h₄, h₅⟩
  refine ⟨rfl, h₁, h₂, h₃, h₄, ?_⟩
  dsimp only
  omega

theorem toDay_ofDay (day : Int) : (ofDay day).toDay = day := (ofDay_spec day).2.2.2.2.2

end Date

namespace Instant

variable (t : Instant)

/-- The day of an instant lies in a year that can be represented. -/
theorem year_bounds : minYear ≤ t.date.year ∧ t.date.year ≤ maxYear := by
  obtain ⟨hmin, hmax⟩ := t.inRange
  obtain ⟨hyear, -⟩ := Date.ofDay_spec (t.seconds / secondsPerDay)
  obtain ⟨hstart, hend⟩ := yearOf_spec (t.seconds / secondsPerDay + epoch)
  rw [← hyear] at hstart hend
  have hlo : daysBeforeYear minYear ≤ t.seconds / secondsPerDay + epoch := by
    have e : minSeconds = (daysBeforeYear minYear - epoch) * secondsPerDay := by decide
    rw [e] at hmin
    unfold secondsPerDay at *
    omega
  have hhi : t.seconds / secondsPerDay + epoch < daysBeforeYear (maxYear + 1) := by
    have e : maxSeconds = (daysBeforeYear (maxYear + 1) - epoch) * secondsPerDay - 1 := by decide
    rw [e] at hmax
    unfold secondsPerDay at *
    omega
  constructor
  · by_contra hlt
    have := daysBeforeYear_mono (a := t.date.year + 1) (b := minYear) (by omega)
    unfold date at this
    omega
  · by_contra hlt
    have := daysBeforeYear_mono (a := maxYear + 1) (b := t.date.year) (by omega)
    unfold date at this
    omega

/-- The date of an instant exists. -/
theorem date_isValid : t.date.isValid = true := by
  obtain ⟨-, h₁, h₂, h₃, h₄, -⟩ := Date.ofDay_spec (t.seconds / secondsPerDay)
  obtain ⟨hlo, hhi⟩ := t.year_bounds
  unfold date at hlo hhi ⊢
  simp [Date.isValid, hlo, hhi, h₁, h₂, h₃, h₄]

/-- The second of the day of an instant lies within a day. -/
theorem secondOfDay_lt : t.secondOfDay < 86400 := by
  unfold secondOfDay secondsPerDay
  omega

/-- An instant's seconds are those of its date and of the time of its day. -/
theorem seconds_eq : t.date.toDay * secondsPerDay + (t.secondOfDay : Nat) = t.seconds := by
  unfold date secondOfDay
  rw [Date.toDay_ofDay]
  unfold secondsPerDay
  omega

/-! ### Spans -/

/-- The nanoseconds from the beginning of 1970 to an instant, leap seconds apart. -/
def sinceEpoch : Int := t.seconds * nanosPerSecond + t.nanos

theorem sinceEpoch_carry {seconds nanos : Int} {u : Instant}
    (h : addNanos?.carry seconds nanos = some u) :
    u.sinceEpoch = seconds * nanosPerSecond + nanos := by
  unfold addNanos?.carry withParts? at h
  split at h
  · cases h
    have hsplit := Int.ediv_mul_add_emod nanos nanosPerSecond
    have hpos := Int.emod_nonneg nanos (b := nanosPerSecond) (by decide)
    rw [sinceEpoch, Int.toNat_of_nonneg hpos, Int.add_mul]
    omega
  · cases h

/-- Outside leap seconds, an instant that is so many nanoseconds later is exactly so much later. -/
theorem sinceEpoch_addNanos? {t u : Instant} {span : Int} (hleap : t.nanos < nanosPerSecond)
    (h : t.addNanos? span = some u) : u.sinceEpoch = t.sinceEpoch + span := by
  have hspan := Int.mul_tdiv_add_tmod span nanosPerSecond
  have hin : ¬nanosPerSecond ≤ t.nanos := by omega
  simp only [addNanos?, hin, decide_false, Bool.false_and, Bool.false_eq_true, if_false] at h
  rw [sinceEpoch_carry h, sinceEpoch, Int.add_mul]
  unfold nanosPerSecond at *
  omega

/-! ### Spans of whole seconds -/

theorem withParts?_eq_some_iff {t : Instant} {seconds : Int} {nanos : Nat} :
    withParts? seconds nanos = some t ↔ t.seconds = seconds ∧ t.nanos = nanos := by
  unfold withParts?
  constructor
  · intro h
    split at h
    · cases h
      exact ⟨rfl, rfl⟩
    · cases h
  · rintro ⟨rfl, rfl⟩
    exact dif_pos ⟨t.inRange, t.nanos_lt⟩

theorem withParts?_isSome_iff {seconds : Int} {nanos : Nat} :
    (withParts? seconds nanos).isSome = true ↔
      (minSeconds ≤ seconds ∧ seconds ≤ maxSeconds) ∧ nanos < 2 * nanosPerSecond := by
  unfold withParts?
  split <;> simp_all

theorem carry_isSome_iff {seconds nanos : Int} (h : 0 ≤ nanos ∧ nanos < nanosPerSecond) :
    (addNanos?.carry seconds nanos).isSome = true ↔
      minSeconds ≤ seconds ∧ seconds ≤ maxSeconds := by
  have hdiv : nanos / (nanosPerSecond : Int) = 0 := Int.ediv_eq_zero_of_lt h.1 h.2
  have hmod : nanos % (nanosPerSecond : Int) = nanos := Int.emod_eq_of_lt h.1 h.2
  rw [addNanos?.carry, hdiv, hmod, Int.add_zero, withParts?_isSome_iff]
  constructor
  · exact fun hparts => hparts.1
  · intro hrange
    exact ⟨hrange, by omega⟩

/-- The second so many seconds later or earlier. The way back out of a leap second begins with the
second after it. -/
def reached (count : Int) : Int :=
  t.seconds + count + if count < 0 ∧ nanosPerSecond ≤ t.nanos then 1 else 0

/-- An instant so many seconds later or earlier can be represented exactly if its second can. -/
theorem addNanos?_isSome_iff (count : Int) :
    (t.addNanos? (count * nanosPerSecond)).isSome = true ↔
      minSeconds ≤ t.reached count ∧ t.reached count ≤ maxSeconds := by
  have hwhole : Int.tdiv (count * nanosPerSecond) nanosPerSecond = count :=
    Int.mul_tdiv_cancel count (by decide)
  have hrest : Int.tmod (count * nanosPerSecond) nanosPerSecond = 0 := Int.mul_tmod_left ..
  have hnanos := t.nanos_lt
  by_cases hleap : nanosPerSecond ≤ t.nanos
  · rcases Int.lt_trichotomy count 0 with hbefore | rfl | hafter
    · have hpath : t.addNanos? (count * nanosPerSecond) =
          addNanos?.carry (t.seconds + 1 + count) (t.nanos - nanosPerSecond) := by
        have hne : ¬count = 0 := by omega
        have hnot : ¬0 < count := by omega
        simp [addNanos?, hwhole, hrest, hleap, hne, hnot]
      rw [hpath, carry_isSome_iff (by omega), reached, if_pos ⟨hbefore, hleap⟩,
        Int.add_right_comm]
    · have hpath : t.addNanos? (0 * nanosPerSecond) = some t := by
        simp [addNanos?, addNanos?.ofSum, hleap, withParts?_eq_some_iff]
      have hself : t.reached 0 = t.seconds := by simp [reached]
      rw [hpath, hself]
      exact iff_of_true rfl t.inRange
    · have hpath : t.addNanos? (count * nanosPerSecond) =
          addNanos?.carry (t.seconds + count) (t.nanos - nanosPerSecond) := by
        have hne : ¬count = 0 := by omega
        simp [addNanos?, hwhole, hrest, hleap, hne, hafter]
      have hnot : ¬(count < 0 ∧ nanosPerSecond ≤ t.nanos) := by omega
      rw [hpath, carry_isSome_iff (by omega), reached, if_neg hnot, Int.add_zero]
  · have hpath : t.addNanos? (count * nanosPerSecond) =
        addNanos?.carry (t.seconds + count) t.nanos := by
      simp [addNanos?, hwhole, hrest, hleap]
    have hnot : ¬(count < 0 ∧ nanosPerSecond ≤ t.nanos) := by omega
    rw [hpath, carry_isSome_iff (by omega), reached, if_neg hnot, Int.add_zero]

end Instant

end ChatRooms.Time

import ChatRooms.Decimal.Integer
import ChatRooms.Proofs.Text.Blank

/-!
Which texts write which integers: a sign or none, and then ASCII digits, with as many zeros in front
as one likes. A minus sign is only for integers. The readers accept exactly these texts, if the
number lies within the bounds of its type.
-/

namespace ChatRooms.Decimal

open ChatRooms.Text

/-! ### The grammar -/

/-- Digits, at least one, write the number. -/
structure WritesDigits (ds : List Char) (n : Nat) : Prop where
  ne_nil : ds ≠ []
  digits : ∀ c ∈ ds, c.isDigit = true
  value : Nat.ofDigitChars 10 ds 0 = n

/-- The text writes the natural number. -/
inductive WritesNat : List Char → Nat → Prop where
  | plain {ds : List Char} {n : Nat} (h : WritesDigits ds n) : WritesNat ds n
  | plus {ds : List Char} {n : Nat} (h : WritesDigits ds n) : WritesNat ('+' :: ds) n

/-- The text writes the integer. -/
inductive WritesInt : List Char → Int → Prop where
  | nat {s : List Char} {n : Nat} (h : WritesNat s n) : WritesInt s n
  | minus {ds : List Char} {n : Nat} (h : WritesDigits ds n) : WritesInt ('-' :: ds) (-(n : Int))

variable {c : Char} {s ds : List Char} {n limit : Nat} {z : Int}

/-! ### Digits -/

theorem digit?_eq_some_iff {d : Nat} :
    digit? c = some d ↔ c.isDigit = true ∧ c.toNat - '0'.toNat = d := by
  have hc : ('0' ≤ c && c ≤ '9') = c.isDigit := by
    simp [Char.isDigit, Char.le_def]
  unfold digit?
  rw [hc]
  cases c.isDigit with
  | false => simp
  | true => simp

theorem digitsFrom_eq_some_iff (start : Nat) : digitsFrom start ds = some n ↔
    (∀ c ∈ ds, c.isDigit = true) ∧ Nat.ofDigitChars 10 ds start = n := by
  induction ds generalizing start with
  | nil => simp [digitsFrom]
  | cons c ds ih =>
    rw [digitsFrom, List.forall_mem_cons, Nat.ofDigitChars_cons, Nat.mul_comm 10 start]
    cases hd : digit? c with
    | none =>
      have hc : ¬c.isDigit = true := fun hc => by
        have hsome := digit?_eq_some_iff.mpr ⟨hc, rfl⟩
        rw [hd] at hsome
        cases hsome
      simp [hc]
    | some d =>
      obtain ⟨hc, rfl⟩ := digit?_eq_some_iff.mp hd
      dsimp only
      rw [ih]
      simp [hc]

theorem readDigits?_eq_some_iff : readDigits? ds = some n ↔ WritesDigits ds n := by
  unfold readDigits?
  cases ds with
  | nil => exact iff_of_false (by simp) fun h => h.ne_nil rfl
  | cons c ds =>
    rw [List.isEmpty_cons, if_neg (by decide), digitsFrom_eq_some_iff]
    exact ⟨fun ⟨hdigits, hvalue⟩ => ⟨List.cons_ne_nil c ds, hdigits, hvalue⟩,
      fun h => ⟨h.digits, h.value⟩⟩

namespace WritesDigits

/-- Digits begin with a digit. -/
theorem eq_cons (h : WritesDigits ds n) : ∃ c rest, ds = c :: rest ∧ c.isDigit = true := by
  cases ds with
  | nil => exact absurd rfl h.ne_nil
  | cons c rest => exact ⟨c, rest, rfl, h.digits c List.mem_cons_self⟩

theorem isTrimmed (h : WritesDigits ds n) : IsTrimmed ds :=
  ⟨fun c hc => isBlank_of_isDigit (h.digits c (List.mem_of_head? hc)),
    fun c hc => isBlank_of_isDigit (h.digits c (List.mem_of_getLast? hc))⟩

/-- A sign in front of digits leaves no blanks at the ends. -/
theorem isTrimmed_cons (h : WritesDigits ds n) (hc : isBlank c = false) : IsTrimmed (c :: ds) := by
  refine ⟨fun d hd => ?_, fun d hd => ?_⟩
  · obtain rfl : c = d := by simpa using hd
    exact hc
  · obtain ⟨e, rest, rfl, -⟩ := h.eq_cons
    rw [List.getLast?_cons_cons] at hd
    exact h.isTrimmed.2 d hd

theorem toDigits (n : Nat) : WritesDigits (Nat.toDigits 10 n) n :=
  ⟨Nat.toDigits_ne_nil, fun _ hc => Nat.isDigit_of_mem_toDigits (by decide) (by decide) hc,
    Nat.ofDigitChars_ten_toDigits⟩

end WritesDigits

/-! ### The readers -/

theorem readNat?_eq_filter : readNat? limit s =
    (readDigits? (match s with | '+' :: rest => rest | _ => s)).filter (· < limit) := by
  unfold readNat?
  dsimp only
  generalize readDigits? _ = digits
  cases digits with
  | none => rfl
  | some m => simp [Option.filter]

/-- A natural number is read from the texts that write it. -/
theorem readNat?_eq_some_iff : readNat? limit s = some n ↔ n < limit ∧ WritesNat s n := by
  rw [readNat?_eq_filter, Option.filter_eq_some_iff, readDigits?_eq_some_iff, decide_eq_true_eq,
    and_comm]
  refine and_congr_right fun _ => ⟨fun h => ?_, fun h => ?_⟩
  · split at h
    · exact .plus h
    · exact .plain h
  · cases h with
    | plus h => exact h
    | plain h =>
      split
      · -- a plus sign is no digit
        exact absurd (h.digits '+' List.mem_cons_self) (by decide)
      · exact h

/-- An integer is read from the texts that write it. -/
theorem readInt?_eq_some_iff (hlimit : 0 < limit) : readInt? limit s = some z ↔
    (-(limit : Int) ≤ z ∧ z < limit) ∧ WritesInt s z := by
  constructor
  · intro h
    unfold readInt? at h
    split at h
    · rename_i ds
      cases hread : readDigits? ds with
      | none => simp [hread] at h
      | some n =>
        obtain ⟨hle, rfl⟩ : n ≤ limit ∧ -(n : Int) = z := by simpa [hread] using h
        exact ⟨by omega, .minus (readDigits?_eq_some_iff.mp hread)⟩
    · obtain ⟨n, hn, rfl⟩ := Option.map_eq_some_iff.mp h
      obtain ⟨hlt, hwrites⟩ := readNat?_eq_some_iff.mp hn
      exact ⟨by simp only [Int.ofNat_eq_natCast]; omega, .nat hwrites⟩
  · rintro ⟨⟨hlo, hhi⟩, h⟩
    cases h with
    | @minus ds n h =>
      have hle : n ≤ limit := by omega
      simp [readInt?, readDigits?_eq_some_iff.mpr h, hle]
    | @nat s n h =>
      have hread : readNat? limit s = some n := readNat?_eq_some_iff.mpr ⟨by omega, h⟩
      unfold readInt?
      split
      · -- nor is a minus sign
        cases h with
        | plain h => exact absurd (h.digits '-' List.mem_cons_self) (by decide)
      · rw [hread]
        rfl

/-! ### Texts of numbers -/

theorem WritesNat.isTrimmed (h : WritesNat s n) : IsTrimmed s := by
  cases h with
  | plain h => exact h.isTrimmed
  | plus h => exact h.isTrimmed_cons (by decide)

theorem WritesInt.isTrimmed (h : WritesInt s z) : IsTrimmed s := by
  cases h with
  | nat h => exact h.isTrimmed
  | minus h => exact h.isTrimmed_cons (by decide)

theorem writesNat_toString (n : Nat) : WritesNat (toString n).toList n := by
  have htext : (toString n).toList = Nat.toDigits 10 n := by simp
  rw [htext]
  exact .plain (.toDigits n)

theorem writesInt_toString (z : Int) : WritesInt (toString z).toList z := by
  cases z with
  | ofNat n => exact .nat (writesNat_toString n)
  | negSucc n =>
    have htext : (toString (Int.negSucc n)).toList = '-' :: Nat.toDigits 10 (n + 1) := by
      simp [toString, Int.repr, Nat.repr]
    rw [htext]
    exact .minus (.toDigits (n + 1))

end ChatRooms.Decimal

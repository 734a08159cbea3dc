import ChatRooms.Decimal.Integer
import ChatRooms.Proofs.Json.Grammar

/-!
Numbers are skipped as the grammar has them. A number ends where nothing follows that it could go on
with.
-/

namespace ChatRooms.Json

open ChatRooms.Text ChatRooms.Text.Symbol Grammar

/-! ### Digits -/

@[simp] theorem isDigit_char (c : Char) : isDigit (.char c) = c.isDigit := by
  simp [isDigit, Char.isDigit, Char.le_def]

theorem skipDigits_complete {t r : List Char} (ht : Digits t) (hr : EndsDigits r) :
    skipDigits (ofChars (t ++ r)) = ofChars r := by
  induction t with
  | nil =>
    cases r with
    | nil => rfl
    | cons c r => simp [skipDigits, hr c rfl]
  | cons c t ih =>
    have hc : c.isDigit = true := ht c (by simp)
    have htail := ih fun d hd => ht d (by simp [hd])
    simpa [skipDigits, hc] using htail

theorem skipDigits_sound (s : List Char) :
    ∃ t r, s = t ++ r ∧ skipDigits (ofChars s) = ofChars r ∧ Digits t := by
  induction s with
  | nil => exact ⟨[], [], rfl, rfl, by simp [Digits]⟩
  | cons c s ih =>
    cases hc : c.isDigit with
    | false => exact ⟨[], c :: s, rfl, by simp [skipDigits, hc], by simp [Digits]⟩
    | true =>
      obtain ⟨t, r, rfl, hskip, ht⟩ := ih
      exact ⟨c :: t, r, rfl, by simpa [skipDigits, hc] using hskip, ht.cons hc⟩

/-! ### Exponents -/

theorem skipSign_complete {sign t : List Char} (hsign : Sign sign)
    (ht : ∀ c ∈ t.head?, c.isDigit = true) : skipSign (ofChars (sign ++ t)) = ofChars t := by
  cases hsign with
  | none =>
    cases t with
    | nil => rfl
    | cons c t =>
      have hc := ht c rfl
      have hplus : c ≠ '+' := by
        rintro rfl
        cases hc
      have hminus : c ≠ '-' := by
        rintro rfl
        cases hc
      simp [skipSign, hplus, hminus]
  | plus | minus => simp [skipSign]

theorem skipSign_sound (s : List Char) :
    ∃ sign r, s = sign ++ r ∧ skipSign (ofChars s) = ofChars r ∧ Sign sign := by
  cases s with
  | nil => exact ⟨[], [], rfl, rfl, .none⟩
  | cons c s =>
    by_cases hplus : c = '+'
    · exact ⟨['+'], s, by simp [hplus], by simp [skipSign, hplus], .plus⟩
    · by_cases hminus : c = '-'
      · exact ⟨['-'], s, by simp [hminus], by simp [skipSign, hminus], .minus⟩
      · exact ⟨[], c :: s, rfl, by simp [skipSign, hplus, hminus], .none⟩

theorem skipExponent_complete {sign t r : List Char} (hsign : Sign sign) (hne : t ≠ [])
    (ht : Digits t) (hr : EndsDigits r) :
    skipExponent (ofChars (sign ++ (t ++ r))) = .ok ((), ofChars r) := by
  obtain ⟨c, t, rfl⟩ := List.exists_cons_of_ne_nil hne
  have hc : c.isDigit = true := ht c (by simp)
  have hskip := skipDigits_complete ht.tail hr
  rw [ofChars_append] at hskip
  unfold skipExponent
  rw [skipSign_complete hsign (by simp [hc])]
  simp [hc, hskip]

theorem skipExponent_sound {s : List Char} {rest : List Symbol}
    (h : skipExponent (ofChars s) = .ok ((), rest)) :
    ∃ sign t r, s = sign ++ (t ++ r) ∧ rest = ofChars r ∧ Sign sign ∧ t ≠ [] ∧ Digits t := by
  obtain ⟨sign, s, rfl, hskip, hsign⟩ := skipSign_sound s
  unfold skipExponent at h
  rw [hskip] at h
  cases s with
  | nil => cases h
  | cons c s =>
    simp only [ofChars_cons, isDigit_char] at h
    split at h
    · rename_i hc
      cases h
      obtain ⟨t, r, rfl, hrest, ht⟩ := skipDigits_sound s
      exact ⟨sign, c :: t, r, by simp, hrest, hsign, by simp, ht.cons hc⟩
    · cases h

theorem skipExponent?_complete {t r : List Char} (ht : Exponent t) (hr : EndsNumber r) :
    skipExponent? (ofChars (t ++ r)) = .ok ((), ofChars r) := by
  cases ht with
  | none =>
    cases r with
    | nil => rfl
    | cons c r =>
      obtain ⟨-, -, hlower, hupper⟩ := hr c rfl
      simp [skipExponent?, hlower, hupper]
  | digits he hsign hne ht =>
    have hskip := skipExponent_complete hsign hne ht hr.endsDigits
    rw [List.cons_append, ofChars_cons, List.append_assoc]
    simp only [skipExponent?, is_char, Bool.or_eq_true, beq_iff_eq]
    rw [if_pos he, hskip]

theorem skipExponent?_sound {s : List Char} {rest : List Symbol}
    (h : skipExponent? (ofChars s) = .ok ((), rest)) :
    ∃ t r, s = t ++ r ∧ rest = ofChars r ∧ Exponent t := by
  cases s with
  | nil =>
    cases h
    exact ⟨[], [], rfl, rfl, .none⟩
  | cons c s =>
    simp only [skipExponent?, ofChars_cons, is_char, Bool.or_eq_true, beq_iff_eq] at h
    split at h
    · rename_i hc
      obtain ⟨sign, t, r, rfl, hrest, hsign, hne, ht⟩ := skipExponent_sound h
      exact ⟨c :: (sign ++ t), r, by simp, hrest, .digits hc hsign hne ht⟩
    · cases h
      exact ⟨[], c :: s, rfl, rfl, .none⟩

/-! ### Fractions -/

/-- What follows the decimals does not go on with them, nor does it begin others. -/
theorem Grammar.Exponent.endsDecimals {t r : List Char} (ht : Exponent t) (hr : EndsNumber r) :
    ∀ c ∈ (t ++ r).head?, c.isDigit = false ∧ c ≠ '.' := by
  intro c hc
  cases ht with
  | none =>
    obtain ⟨hdigit, hpoint, -⟩ := hr c hc
    exact ⟨hdigit, hpoint⟩
  | digits he =>
    cases hc
    rcases he with rfl | rfl <;> decide

theorem skipFraction_complete {f e r : List Char} (hf : Fraction f) (he : Exponent e)
    (hr : EndsNumber r) : skipFraction (ofChars (f ++ (e ++ r))) = .ok ((), ofChars r) := by
  have hskip := skipExponent?_complete he hr
  have hends := he.endsDecimals hr
  generalize e ++ r = s at hskip hends
  cases hf with
  | none =>
    cases s with
    | nil => exact hskip
    | cons c s =>
      simp only [List.nil_append, skipFraction, ofChars_cons, is_char, beq_iff_eq]
      rw [if_neg (hends c rfl).2]
      exact hskip
  | digits hne hd =>
    rename_i t
    obtain ⟨c, t, rfl⟩ := List.exists_cons_of_ne_nil hne
    have hc : c.isDigit = true := hd c (by simp)
    have hdecimals := skipDigits_complete hd.tail fun c hc => (hends c hc).1
    simp [skipFraction, hc, -ofChars_append, hdecimals, hskip]

theorem skipFraction_sound {s : List Char} {rest : List Symbol}
    (h : skipFraction (ofChars s) = .ok ((), rest)) :
    ∃ f e r, s = f ++ (e ++ r) ∧ rest = ofChars r ∧ Fraction f ∧ Exponent e := by
  cases s with
  | nil =>
    cases h
    exact ⟨[], [], [], rfl, rfl, .none, .none⟩
  | cons c s =>
    simp only [skipFraction, ofChars_cons, is_char, beq_iff_eq] at h
    split at h
    · rename_i hc
      subst hc
      cases s with
      | nil => cases h
      | cons d s =>
        simp only [ofChars_cons, isDigit_char] at h
        split at h
        · rename_i hd
          obtain ⟨t, s, rfl, hskip, ht⟩ := skipDigits_sound s
          rw [hskip] at h
          obtain ⟨e, r, rfl, hrest, he⟩ := skipExponent?_sound h
          exact ⟨'.' :: d :: t, e, r, by simp, hrest, .digits (by simp) (ht.cons hd), he⟩
        · cases h
    · obtain ⟨e, r, hs, hrest, he⟩ := skipExponent?_sound (s := c :: s) h
      exact ⟨[], e, r, hs, hrest, .none, he⟩

/-! ### Whole numbers -/

theorem skipUnsigned_complete {t r : List Char} (ht : Unsigned t) (hr : EndsNumber r) :
    skipUnsigned (ofChars (t ++ r)) = .ok ((), ofChars r) := by
  obtain ⟨hw, hf, he⟩ := ht
  rename_i whole fraction exponent
  have hskip := skipFraction_complete hf he hr
  have hends : EndsDigits (fraction ++ (exponent ++ r)) := by
    cases hf with
    | none => exact fun c hc => (he.endsDecimals hr c hc).1
    | digits =>
      rintro c hc
      cases hc
      rfl
  rw [List.append_assoc, List.append_assoc]
  generalize fraction ++ (exponent ++ r) = s at hskip hends
  cases hw with
  | zero =>
    cases s with
    | nil =>
      cases r with
      | nil => rfl
      | cons c r => cases hskip
    | cons c s =>
      have hc := hends c rfl
      simp only [List.cons_append, List.nil_append, skipUnsigned, ofChars_cons, is_char,
        beq_self_eq_true, if_true, isDigit_char, hc]
      exact hskip
  | digits hc hzero ht =>
    rw [List.cons_append, ofChars_cons]
    simp only [skipUnsigned, is_char, beq_iff_eq, if_neg hzero, isDigit_char, hc, if_true]
    rw [skipDigits_complete ht hends, hskip]

theorem skipUnsigned_sound {s : List Char} {rest : List Symbol}
    (h : skipUnsigned (ofChars s) = .ok ((), rest)) :
    ∃ t r, s = t ++ r ∧ rest = ofChars r ∧ Unsigned t := by
  have hfraction : ∀ {w s}, Whole w → skipFraction (ofChars s) = .ok ((), rest) →
      ∃ t r, w ++ s = t ++ r ∧ rest = ofChars r ∧ Unsigned t := by
    intro w s hw h
    obtain ⟨f, e, r, rfl, hrest, hf, he⟩ := skipFraction_sound h
    exact ⟨_, r, by simp, hrest, .parts hw hf he⟩
  cases s with
  | nil => cases h
  | cons c s =>
    simp only [skipUnsigned, ofChars_cons, is_char, beq_iff_eq, isDigit_char] at h
    split at h
    · rename_i hc
      subst hc
      cases s with
      | nil => exact hfraction (s := []) .zero h
      | cons d s =>
        simp only [ofChars_cons, isDigit_char] at h
        split at h
        · cases h
        · exact hfraction (s := d :: s) .zero h
    · rename_i hzero
      split at h
      · rename_i hc
        obtain ⟨t, s, rfl, hskip, ht⟩ := skipDigits_sound s
        rw [hskip] at h
        exact hfraction (.digits hc hzero ht) h
      · cases h

/-! ### Natural numbers -/

namespace Grammar

/-- A natural number below a limit. -/
inductive Natural (limit : Nat) : List Char → Nat → Prop
  | digits {t : List Char} (h : Whole t) (hlimit : Nat.ofDigitChars 10 t 0 < limit) :
    Natural limit t (Nat.ofDigitChars 10 t 0)

theorem Natural.number {limit n : Nat} {t : List Char} (h : Natural limit t n) : Number t := by
  obtain ⟨h, -⟩ := h
  have hparts := Unsigned.parts h .none .none
  rw [List.append_nil, List.append_nil] at hparts
  exact .unsigned hparts

end Grammar

theorem digitValue_lt {c : Char} (hc : c.isDigit = true) : digitValue (.char c) < 10 := by
  simp only [Char.isDigit, Bool.and_eq_true, decide_eq_true_eq, UInt32.le_iff_toNat_le] at hc
  have hnine : c.toNat ≤ 57 := hc.2
  change c.toNat - 48 < 10
  omega

theorem takeDigits_complete {limit n taken : Nat} {t r : List Char} (ht : Digits t)
    (hlimit : Nat.ofDigitChars 10 t n < limit) (hr : EndsDigits r) :
    takeDigits limit n taken (ofChars (t ++ r)) =
      (Nat.ofDigitChars 10 t n, taken + t.length, ofChars r) := by
  induction t generalizing n taken with
  | nil =>
    cases r with
    | nil => rfl
    | cons c r => simp [takeDigits, hr c rfl]
  | cons c t ih =>
    have hc : c.isDigit = true := ht c (by simp)
    rw [Nat.ofDigitChars_cons, Nat.mul_comm 10] at hlimit ⊢
    have hstep := Decimal.le_ofDigitChars (n * 10 + (c.toNat - '0'.toNat)) t
    have hfits : n * 10 + digitValue (.char c) < limit := Nat.lt_of_le_of_lt hstep hlimit
    rw [List.cons_append, ofChars_cons, takeDigits, if_pos (by simp [hc, hfits]),
      show digitValue (.char c) = c.toNat - '0'.toNat from rfl, ih ht.tail hlimit, List.length_cons,
      Nat.add_assoc, Nat.add_comm 1]

theorem takeDigits_sound (limit n taken : Nat) (s : List Char) (hn : n < limit) :
    ∃ t r, s = t ++ r ∧ Digits t ∧ Nat.ofDigitChars 10 t n < limit ∧
      takeDigits limit n taken (ofChars s) =
        (Nat.ofDigitChars 10 t n, taken + t.length, ofChars r) := by
  induction s generalizing n taken with
  | nil => exact ⟨[], [], rfl, by simp [Digits], hn, rfl⟩
  | cons c s ih =>
    rw [ofChars_cons, takeDigits]
    split
    · rename_i hc
      simp only [isDigit_char, Bool.and_eq_true, decide_eq_true_eq] at hc
      obtain ⟨t, r, rfl, ht, hlimit, htake⟩ := ih (n * 10 + digitValue (.char c)) (taken + 1) hc.2
      refine ⟨c :: t, r, rfl, ht.cons hc.1, ?_, ?_⟩
      · rw [Nat.ofDigitChars_cons, Nat.mul_comm 10]
        exact hlimit
      · rw [htake, Nat.ofDigitChars_cons, Nat.mul_comm 10, List.length_cons, Nat.add_assoc,
          Nat.add_comm 1]
        rfl
    · exact ⟨[], c :: s, rfl, by simp [Digits], hn, rfl⟩

theorem readTail_complete {n : Nat} {r : List Char} (hr : EndsNumber r) :
    readTail false n (ofChars r) = .ok (.natural n, ofChars r) := by
  cases r with
  | nil => rfl
  | cons c r =>
    obtain ⟨-, hpoint, hlower, hupper⟩ := hr c rfl
    simp [readTail, hpoint, hlower, hupper]

/-- A natural number is read with its value. -/
theorem readNumber_complete {t r : List Char} {n : Nat} (ht : Natural Numeral.limit t n)
    (hr : EndsNumber r) :
    ∃ c u, t = c :: u ∧ c.isDigit = true ∧
      readNumber (.char c) (ofChars (u ++ r)) = .ok (.natural n, ofChars r) := by
  obtain ⟨hw, hlimit⟩ := ht
  cases hw with
  | zero =>
    refine ⟨'0', [], rfl, rfl, ?_⟩
    cases r with
    | nil => rfl
    | cons c r =>
      have hc := hr.endsDigits c rfl
      have htail := readTail_complete (n := 0) hr
      rw [ofChars_cons] at htail
      simp [readNumber, readUnsigned, hc, htail, Nat.ofDigitChars_cons]
  | digits hc hzero ht =>
    rename_i c t
    have htake := @takeDigits_complete _ _ 0 _ r (ht.cons hc) hlimit hr.endsDigits
    have hminus : c ≠ '-' := by
      rintro rfl
      cases hc
    refine ⟨c, t, rfl, hc, ?_⟩
    rw [List.cons_append, ofChars_cons] at htake
    simp only [readNumber, is_char, beq_iff_eq, if_neg hminus, readUnsigned, if_neg hzero,
      isDigit_char, hc, if_true, htake]
    cases r with
    | nil => rfl
    | cons d r =>
      have hd := hr.endsDigits d rfl
      simp only [ofChars_cons, isDigit_char, hd, Bool.false_eq_true, if_false]
      exact readTail_complete hr

/-! ### Numbers that are not natural -/

/-- The reading gives no natural number. -/
def NotNatural (result : Reading Numeral) : Prop := ∀ n rest, result ≠ .ok (.natural n, rest)

theorem notNatural_readParts (negative : Bool) (significand : Nat) (exponent : Int)
    (s : List Symbol) : NotNatural (readParts negative significand exponent s) := by
  intro n rest h
  unfold readParts at h
  split at h <;> cases h

theorem notNatural_readExponent (negative : Bool) (significand : Nat) (exponent : Int)
    (s : List Symbol) : NotNatural (readExponent negative significand exponent s) := by
  intro n rest h
  unfold readExponent at h
  generalize readSign s = signed at h
  dsimp only at h
  split at h
  · cases h
  · split at h
    · split at h
      · split at h
        · split at h <;> cases h
        · exact notNatural_readParts _ _ _ _ _ _ h
      · exact notNatural_readParts _ _ _ _ _ _ h
    · cases h

theorem notNatural_readExponent? (negative : Bool) (significand : Nat) (exponent : Int)
    (s : List Symbol) : NotNatural (readExponent? negative significand exponent s) := by
  intro n rest h
  unfold readExponent? at h
  split at h
  · split at h
    · exact notNatural_readExponent _ _ _ _ _ _ h
    · exact notNatural_readParts _ _ _ _ _ _ h
  · exact notNatural_readParts _ _ _ _ _ _ h

theorem notNatural_readFraction (negative : Bool) (significand : Nat) (exponent : Int)
    (s : List Symbol) : NotNatural (readFraction negative significand exponent s) := by
  intro n rest h
  unfold readFraction at h
  split at h
  · cases h
  · split at h
    · exact notNatural_readExponent? _ _ _ _ _ _ h
    · cases h

theorem notNatural_readLongTail (negative : Bool) (m : Nat) (s : List Symbol) :
    NotNatural (readLongTail negative m s) := by
  intro n rest h
  unfold readLongTail at h
  dsimp only at h
  split at h
  · split at h
    · exact notNatural_readFraction _ _ _ _ _ _ h
    · exact notNatural_readExponent? _ _ _ _ _ _ h
  · exact notNatural_readParts _ _ _ _ _ _ h

/-- A natural number goes on with nothing behind its digits. -/
theorem readTail_natural {negative : Bool} {m n : Nat} {s rest : List Symbol}
    (h : readTail negative m s = .ok (.natural n, rest)) :
    negative = false ∧ n = m ∧ rest = s := by
  have hinteger : ∀ {s : List Symbol},
      (Except.ok ((if !negative then .natural m
        else if m = 0 || Nat.pow 2 63 < m then .real (-Float.ofNat m)
        else .negative (-(m : Int))), s) : Reading Numeral) = .ok (.natural n, rest) →
      negative = false ∧ n = m ∧ rest = s := by
    intro s h
    cases negative with
    | false =>
      cases h
      exact ⟨rfl, rfl, rfl⟩
    | true =>
      simp only [Bool.not_true, Bool.false_eq_true, if_false] at h
      split at h <;> cases h
  unfold readTail at h
  dsimp only at h
  split at h
  · exact hinteger h
  · split at h
    · exact absurd h (notNatural_readFraction _ _ _ _ _ _)
    · split at h
      · exact absurd h (notNatural_readExponent _ _ _ _ _ _)
      · exact hinteger h

theorem readUnsigned_natural {negative : Bool} {s : List Char} {n : Nat} {rest : List Symbol}
    (h : readUnsigned negative (ofChars s) = .ok (.natural n, rest)) :
    negative = false ∧ ∃ t r, s = t ++ r ∧ rest = ofChars r ∧ Natural Numeral.limit t n := by
  cases s with
  | nil => cases h
  | cons c s =>
    simp only [readUnsigned, ofChars_cons, is_char, beq_iff_eq, isDigit_char] at h
    split at h
    · rename_i hc
      subst hc
      have htail : readTail negative 0 (ofChars s) = .ok (.natural n, rest) := by
        cases s with
        | nil => exact h
        | cons d s =>
          simp only [ofChars_cons] at h
          split at h
          · cases h
          · exact h
      obtain ⟨hneg, rfl, rfl⟩ := readTail_natural htail
      exact ⟨hneg, ['0'], s, rfl, rfl, .digits .zero (by decide)⟩
    · rename_i hzero
      split at h
      · rename_i hc
        -- the first digit fits, and others may follow
        have hfits : digitValue (.char c) < Numeral.limit :=
          Nat.lt_trans (digitValue_lt hc) (by decide)
        obtain ⟨t, r, rfl, ht, hlimit, htake⟩ :=
          takeDigits_sound Numeral.limit (0 * 10 + digitValue (.char c)) 1 s (by simpa using hfits)
        rw [takeDigits, if_pos (by simp [hc, hfits]), htake] at h
        have htail : readTail negative (Nat.ofDigitChars 10 (c :: t) 0) (ofChars r) =
            .ok (.natural n, rest) := by
          rw [Nat.ofDigitChars_cons, Nat.mul_comm 10]
          cases r with
          | nil => exact h
          | cons d r =>
            simp only [ofChars_cons] at h
            split at h
            · exact absurd h (notNatural_readLongTail _ _ _ _ _)
            · exact h
        obtain ⟨hneg, rfl, rfl⟩ := readTail_natural htail
        refine ⟨hneg, c :: t, r, rfl, rfl, .digits (.digits hc hzero ht) ?_⟩
        rw [Nat.ofDigitChars_cons, Nat.mul_comm 10]
        exact hlimit
      · cases h

theorem readNumber_natural {c : Char} {s : List Char} {n : Nat} {rest : List Symbol}
    (h : readNumber (.char c) (ofChars s) = .ok (.natural n, rest)) :
    ∃ t r, c :: s = t ++ r ∧ rest = ofChars r ∧ Natural Numeral.limit t n := by
  unfold readNumber at h
  split at h
  · cases (readUnsigned_natural h).1
  · exact (readUnsigned_natural (s := c :: s) h).2

end ChatRooms.Json

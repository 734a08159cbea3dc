import ChatRooms.Proofs.Json.Numbers
import ChatRooms.Proofs.Json.Strings

/-!
Values are skipped as the grammar has them, nested to any depth. Whatever is skipped is a value:
at each step the text holds what the open brackets still ask for. Every value is skipped: each
phrase costs a number of steps that its length bounds.
-/

namespace ChatRooms.Json

open ChatRooms.Text ChatRooms.Text.Symbol Grammar

/-! ### Space and words -/

/-- The text does not begin with space. -/
def NoSpace (t : List Char) : Prop := ∀ c ∈ t.head?, isSpace c = false

theorem noSpace_cons {c : Char} {r : List Char} (hc : isSpace c = false) : NoSpace (c :: r) := by
  intro d hd
  cases hd
  exact hc

theorem skipSpace_of_noSpace {r : List Char} (hr : NoSpace r) :
    skipSpace (ofChars r) = ofChars r := by
  cases r with
  | nil => rfl
  | cons c r => simp [skipSpace, isSpaceSymbol, hr c rfl]

theorem skipSpace_append {w : List Char} (hw : Space w) (r : List Char) :
    skipSpace (ofChars (w ++ r)) = skipSpace (ofChars r) := by
  induction w with
  | nil => rfl
  | cons c w ih =>
    obtain ⟨hc, hw⟩ := List.forall_mem_cons.mp hw
    rw [← ih hw]
    simp [skipSpace, isSpaceSymbol, hc]

theorem skipSpace_complete {w r : List Char} (hw : Space w) (hr : NoSpace r) :
    skipSpace (ofChars (w ++ r)) = ofChars r := by
  rw [skipSpace_append hw, skipSpace_of_noSpace hr]

theorem skipSpace_sound (s : List Char) :
    ∃ w r, s = w ++ r ∧ skipSpace (ofChars s) = ofChars r ∧ Space w := by
  induction s with
  | nil => exact ⟨[], [], rfl, rfl, by simp [Space]⟩
  | cons c s ih =>
    cases hc : isSpace c with
    | false =>
      exact ⟨[], c :: s, rfl, by simp [skipSpace, isSpaceSymbol, hc], by simp [Space]⟩
    | true =>
      obtain ⟨w, r, rfl, hskip, hw⟩ := ih
      refine ⟨c :: w, r, rfl, ?_, List.forall_mem_cons.mpr ⟨hc, hw⟩⟩
      simpa [skipSpace, isSpaceSymbol, hc] using hskip

theorem readWord_complete (word : List Char) (s : List Symbol) :
    readWord word (ofChars word ++ s) = .ok ((), s) := by
  induction word with
  | nil => rfl
  | cons c word ih => simp [readWord, ih]

theorem readWord_sound {word s : List Char} {rest : List Symbol}
    (h : readWord word (ofChars s) = .ok ((), rest)) :
    ∃ r, s = word ++ r ∧ rest = ofChars r := by
  induction word generalizing s with
  | nil =>
    cases h
    exact ⟨s, rfl, rfl⟩
  | cons c word ih =>
    cases s with
    | nil => cases h
    | cons d s =>
      simp only [readWord, ofChars_cons, is_char, beq_iff_eq] at h
      split at h
      · rename_i hc
        obtain ⟨r, rfl, hrest⟩ := ih h
        exact ⟨r, by simp [hc], hrest⟩
      · cases h

/-! ### Values without brackets -/

theorem skipScalar_sound {c : Char} {s : List Char} {rest : List Symbol}
    (h : skipScalar (.char c) (ofChars s) = .ok ((), rest)) :
    ∃ t r, c :: s = t ++ r ∧ rest = ofChars r ∧ Value t := by
  simp only [skipScalar, is_char, beq_iff_eq, isDigit_char] at h
  split at h
  · rename_i hc
    obtain ⟨r, rfl, hrest⟩ := readWord_sound h
    exact ⟨_, r, by rw [hc]; rfl, hrest, .null⟩
  · split at h
    · rename_i hc
      obtain ⟨r, rfl, hrest⟩ := readWord_sound h
      exact ⟨_, r, by rw [hc]; rfl, hrest, .true⟩
    · split at h
      · rename_i hc
        obtain ⟨r, rfl, hrest⟩ := readWord_sound h
        exact ⟨_, r, by rw [hc]; rfl, hrest, .false⟩
      · split at h
        · rename_i hc
          obtain ⟨t, r, rfl, hrest, ht⟩ := skipUnsigned_sound h
          exact ⟨'-' :: t, r, by rw [hc]; rfl, hrest, .number (.negative ht)⟩
        · split at h
          · obtain ⟨t, r, hs, hrest, ht⟩ := skipUnsigned_sound (s := c :: s) h
            exact ⟨t, r, hs, hrest, .number (.unsigned ht)⟩
          · split at h
            · rename_i hc
              obtain ⟨t, r, hs, hrest, ht⟩ := skipString_sound h
              exact ⟨t, r, by rw [hc, hs], hrest, .string ht⟩
            · cases h

/-- A character with which a value may begin, brackets apart. -/
def isStart (c : Char) : Bool :=
  c == '"' || c == '-' || c.isDigit || c == 'n' || c == 't' || c == 'f'

theorem ne_of_isStart {c d : Char} (hc : isStart c = true) (hd : isStart d = false) : c ≠ d := by
  rintro rfl
  rw [hc] at hd
  cases hd

theorem isSpace_of_isStart {c : Char} (hc : isStart c = true) : isSpace c = false := by
  have hne {d : Char} (hd : isStart d = false) : (c == d) = false := by
    simpa using ne_of_isStart hc hd
  simp [isSpace, hne (d := ' ') rfl, hne (d := '\n') rfl, hne (d := '\t') rfl,
    hne (d := '\r') rfl]

theorem Grammar.Unsigned.digit {t : List Char} (h : Unsigned t) :
    ∃ c u, t = c :: u ∧ c.isDigit = true := by
  obtain ⟨hw, -, -⟩ := h
  cases hw with
  | zero => exact ⟨'0', _, rfl, rfl⟩
  | digits hc => exact ⟨_, _, rfl, hc⟩

/-- A number is skipped from its first character on. -/
theorem skipScalar_number {t r : List Char} (ht : Number t) (hr : EndsNumber r) :
    ∃ c u, t = c :: u ∧ isStart c = true ∧
      skipScalar (.char c) (ofChars (u ++ r)) = .ok ((), ofChars r) := by
  cases ht with
  | unsigned ht =>
    have hskip := skipUnsigned_complete ht hr
    obtain ⟨c, u, rfl, hc⟩ := ht.digit
    rw [List.cons_append, ofChars_cons] at hskip
    have hne : ∀ {d : Char}, d.isDigit = false → c ≠ d := by
      rintro d hd rfl
      rw [hc] at hd
      cases hd
    refine ⟨c, u, rfl, by simp [isStart, hc], ?_⟩
    simp only [skipScalar, is_char, beq_iff_eq, isDigit_char, hc, if_true,
      if_neg (hne (d := 'n') rfl), if_neg (hne (d := 't') rfl), if_neg (hne (d := 'f') rfl),
      if_neg (hne (d := '-') rfl)]
    exact hskip
  | negative ht => exact ⟨'-', _, rfl, rfl, skipUnsigned_complete ht hr⟩

theorem skipScalar_string {t : List Char} (ht : Token t) (r : List Char) :
    ∃ c u, t = c :: u ∧ isStart c = true ∧
      skipScalar (.char c) (ofChars (u ++ r)) = .ok ((), ofChars r) := by
  obtain ⟨u, rfl, hskip⟩ := skipString_complete ht (ofChars r)
  rw [← ofChars_append] at hskip
  exact ⟨'"', u, rfl, rfl, hskip⟩

/-! ### Keys -/

theorem skipKey_sound {s : List Char} {rest : List Symbol}
    (h : skipKey (ofChars s) = .ok ((), rest)) :
    ∃ w k x r, s = w ++ (k ++ (x ++ ':' :: r)) ∧ rest = ofChars r ∧ Space w ∧ Token k ∧
      Space x := by
  obtain ⟨w, s, rfl, hskip, hw⟩ := skipSpace_sound s
  unfold skipKey at h
  rw [hskip] at h
  cases s with
  | nil => cases h
  | cons c s =>
    simp only [ofChars_cons, is_char, beq_iff_eq] at h
    split at h
    · rename_i hc
      split at h
      · cases h
      · rename_i hread
        obtain ⟨k, s', hs, rfl, hk⟩ := skipString_sound hread
        obtain ⟨x, s'', rfl, hskip', hx⟩ := skipSpace_sound s'
        rw [hskip'] at h
        cases s'' with
        | nil => cases h
        | cons d r =>
          simp only [ofChars_cons, is_char, beq_iff_eq] at h
          split at h
          · rename_i hd
            cases h
            exact ⟨w, k, x, r, by rw [hc, hs, hd], rfl, hw, hk, hx⟩
          · cases h
    · cases h

theorem skipKey_complete {k x r : List Char} {s : List Symbol} (hk : Token k) (hx : Space x)
    (hs : skipSpace s = ofChars (k ++ (x ++ ':' :: r))) : skipKey s = .ok ((), ofChars r) := by
  obtain ⟨u, rfl, hskip⟩ := skipString_complete hk (ofChars (x ++ ':' :: r))
  have hcolon : skipSpace (ofChars (x ++ ':' :: r)) = ofChars (':' :: r) :=
    skipSpace_complete hx (noSpace_cons rfl)
  unfold skipKey
  rw [hs, List.cons_append, ofChars_cons]
  simp only [is_char, beq_self_eq_true, if_true]
  rw [ofChars_append, hskip]
  simp only [hcolon, ofChars_cons, is_char, beq_self_eq_true, if_true]

/-! ### Whatever is skipped is a value -/

/-- What follows an entry of a bracket, up to its end: space, or a comma and more entries. -/
inductive Tail (b : Bracket) : List Char → Prop
  | space {w : List Char} (hw : Space w) : Tail b w
  | comma {w t : List Char} (hw : Space w) (ht : Derives (.entries b) t) : Tail b (w ++ ',' :: t)

theorem Grammar.Derives.entries {b : Bracket} {w t u : List Char} (hw : Space w)
    (ht : Derives (.entry b) t) (hu : Tail b u) : Derives (.entries b) (w ++ (t ++ u)) := by
  cases hu with
  | space hz => exact .last hw ht hz
  | comma hz hu => exact .more hw ht hz hu

/-- Space may be added in front of entries. -/
theorem Grammar.Derives.space_entries {b : Bracket} {w t : List Char} (hw : Space w)
    (ht : Derives (.entries b) t) : Derives (.entries b) (w ++ t) := by
  cases ht with
  | last hw' ht hz =>
    rw [← List.append_assoc]
    exact .last (hw.append hw') ht hz
  | more hw' ht hz hu =>
    rw [← List.append_assoc]
    exact .more (hw.append hw') ht hz hu

/-- The text holds what the open brackets still ask for behind an entry of the innermost one. -/
def Closes : List Bracket → List Char → Prop
  | [], t => t = []
  | b :: open', t => ∃ u r, t = u ++ b.closing :: r ∧ Tail b u ∧ Closes open' r

/-- The text holds a value, and then what the open brackets ask for. -/
def ClosesValue (open' : List Bracket) (t : List Char) : Prop :=
  ∃ w v r, t = w ++ (v ++ r) ∧ Space w ∧ Value v ∧ Closes open' r

/-- The text holds what is looked for, and then what closes the open brackets. -/
def Fulfils : Want → List Bracket → List Char → Prop
  | .next, open', t => Closes open' t
  | .value, open', t => ClosesValue open' t
  | .entry, b :: open', t =>
    ∃ u r, t = u ++ b.closing :: r ∧ Derives (.entries b) u ∧ Closes open' r
  | .entry, [], t => ClosesValue [] t
  | .first, [], t => t = []
  | .first, b :: open', t =>
    ∃ u r, t = u ++ b.closing :: r ∧ (Space u ∨ Derives (.entries b) u) ∧ Closes open' r

/-- What is looked for after a step fulfils, with what the step takes, what was looked for. -/
def StepSound (want : Want) (open' : List Bracket) (s : List Char) :
    Option (Want × List Bracket) × List Symbol → Prop
  | (none, rest) => rest = ofChars s ∧ Fulfils want open' []
  | (some (want', open''), rest) => ∃ t r, s = t ++ r ∧ rest = ofChars r ∧
      ∀ u, Fulfils want' open'' u → Fulfils want open' (t ++ u)

theorem stepSound_value {open' : List Bracket} {s : List Char}
    {result : Option (Want × List Bracket) × List Symbol}
    (h : skipStep .value open' (ofChars s) = .ok result) : StepSound .value open' s result := by
  obtain ⟨w, s, rfl, hskip, hw⟩ := skipSpace_sound s
  have hbracket : ∀ (b : Bracket) (u : List Char), Fulfils .first (b :: open') u →
      Fulfils .value open' (w ++ b.opening :: u) := by
    rintro b u ⟨v, r, rfl, hv | hv, hr⟩
    · exact ⟨w, _, r, by simp, hw, .empty b hv, hr⟩
    · exact ⟨w, _, r, by simp, hw, .bracket hv, hr⟩
  simp only [skipStep, hskip] at h
  cases s with
  | nil => cases h
  | cons c s =>
    simp only [ofChars_cons, is_char, beq_iff_eq] at h
    split at h
    · rename_i hc
      cases h
      exact ⟨w ++ [c], s, by simp, rfl, fun u hu => by
        rw [hc, List.append_assoc]
        exact hbracket .list u hu⟩
    · split at h
      · rename_i hc
        cases h
        exact ⟨w ++ [c], s, by simp, rfl, fun u hu => by
          rw [hc, List.append_assoc]
          exact hbracket .object u hu⟩
      · split at h
        · cases h
        · rename_i hscalar
          cases h
          obtain ⟨t, r, hs, rfl, ht⟩ := skipScalar_sound hscalar
          exact ⟨w ++ t, r, by rw [hs, List.append_assoc], rfl, fun u hu =>
            ⟨w, t, u, List.append_assoc .., hw, ht, hu⟩⟩

theorem stepSound_first {open' : List Bracket} {s : List Char}
    {result : Option (Want × List Bracket) × List Symbol}
    (h : skipStep .first open' (ofChars s) = .ok result) : StepSound .first open' s result := by
  cases open' with
  | nil =>
    cases h
    exact ⟨rfl, rfl⟩
  | cons b open' =>
    obtain ⟨w, s, rfl, hskip, hw⟩ := skipSpace_sound s
    simp only [skipStep, hskip] at h
    cases s with
    | nil => cases h
    | cons c s =>
      simp only [ofChars_cons, is_char, beq_iff_eq] at h
      split at h
      · rename_i hc
        cases h
        exact ⟨w ++ [c], s, by simp, rfl, fun u hu => ⟨w, u, by simp [hc], .inl hw, hu⟩⟩
      · cases h
        refine ⟨w, c :: s, rfl, rfl, ?_⟩
        rintro _ ⟨u, r, rfl, hu, hr⟩
        exact ⟨w ++ u, r, by simp, .inr (hu.space_entries hw), hr⟩

theorem stepSound_next {open' : List Bracket} {s : List Char}
    {result : Option (Want × List Bracket) × List Symbol}
    (h : skipStep .next open' (ofChars s) = .ok result) : StepSound .next open' s result := by
  cases open' with
  | nil =>
    cases h
    exact ⟨rfl, rfl⟩
  | cons b open' =>
    obtain ⟨w, s, rfl, hskip, hw⟩ := skipSpace_sound s
    simp only [skipStep, hskip] at h
    cases s with
    | nil => cases h
    | cons c s =>
      simp only [ofChars_cons, is_char, beq_iff_eq] at h
      split at h
      · rename_i hc
        cases h
        refine ⟨w ++ [c], s, by simp, rfl, ?_⟩
        rintro _ ⟨u, r, rfl, hu, hr⟩
        exact ⟨w ++ ',' :: u, r, by simp [hc], .comma hw hu, hr⟩
      · split at h
        · rename_i hc
          cases h
          exact ⟨w ++ [c], s, by simp, rfl, fun u hu => ⟨w, u, by simp [hc], .space hw, hu⟩⟩
        · cases h

/-- An entry begins with its value, a member with its key. -/
theorem stepSound_entry {open' : List Bracket} {s : List Char}
    {result : Option (Want × List Bracket) × List Symbol}
    (h : skipStep .entry open' (ofChars s) = .ok result) : StepSound .entry open' s result := by
  match open' with
  | [] =>
    cases h
    exact ⟨[], s, rfl, rfl, fun u hu => hu⟩
  | .list :: open' =>
    cases h
    refine ⟨[], s, rfl, rfl, ?_⟩
    rintro _ ⟨w, v, _, rfl, hw, hv, u, r, rfl, hu, hr⟩
    exact ⟨w ++ (v ++ u), r, by simp, .entries hw (.element hv) hu, hr⟩
  | .object :: open' =>
    simp only [skipStep] at h
    split at h
    · cases h
    · rename_i hkey
      cases h
      obtain ⟨w, k, x, s, rfl, rfl, hw, hk, hx⟩ := skipKey_sound hkey
      refine ⟨w ++ (k ++ (x ++ [':'])), s, by simp, rfl, ?_⟩
      rintro _ ⟨y, v, _, rfl, hy, hv, u, r, rfl, hu, hr⟩
      exact ⟨w ++ ((k ++ (x ++ ':' :: (y ++ v))) ++ u), r, by simp,
        .entries hw (.member hk hx hy hv) hu, hr⟩

theorem stepSound {want : Want} {open' : List Bracket} {s : List Char}
    {result : Option (Want × List Bracket) × List Symbol}
    (h : skipStep want open' (ofChars s) = .ok result) : StepSound want open' s result := by
  cases want with
  | value => exact stepSound_value h
  | first => exact stepSound_first h
  | next => exact stepSound_next h
  | entry => exact stepSound_entry h

theorem skipFrom_sound {steps : Nat} {want : Want} {open' : List Bracket} {s : List Char}
    {rest : List Symbol} (h : skipFrom steps want open' (ofChars s) = .ok ((), rest)) :
    ∃ t r, s = t ++ r ∧ rest = ofChars r ∧ Fulfils want open' t := by
  induction steps generalizing want open' s with
  | zero => cases h
  | succ steps ih =>
    unfold skipFrom at h
    split at h
    · cases h
    · rename_i hstep
      cases h
      have hsound := stepSound hstep
      exact ⟨[], s, rfl, hsound.1, hsound.2⟩
    · rename_i hstep
      have hsound := stepSound hstep
      obtain ⟨t, s, rfl, rfl, hfulfils⟩ := hsound
      obtain ⟨u, r, rfl, hrest, hu⟩ := ih h
      exact ⟨t ++ u, r, by simp, hrest, hfulfils u hu⟩

/-- **Whatever is skipped is a value**, perhaps with space before it. -/
theorem skipValue_sound {s : List Char} {rest : List Symbol}
    (h : skipValue (ofChars s) = .ok ((), rest)) :
    ∃ w v r, s = w ++ (v ++ r) ∧ rest = ofChars r ∧ Space w ∧ Value v := by
  obtain ⟨w, s, rfl, hskip, hw⟩ := skipSpace_sound s
  unfold skipValue at h
  rw [hskip] at h
  cases s with
  | nil => cases h
  | cons c s =>
    simp only [ofChars_cons] at h
    split at h
    · obtain ⟨t, r, hs, hrest, x, v, u, rfl, hx, hv, hu⟩ := skipFrom_sound (s := c :: s) h
      rw [hs]
      cases hu
      exact ⟨w ++ x, v, r, by simp, hrest, hw.append hx, hv⟩
    · obtain ⟨v, r, hs, hrest, hv⟩ := skipScalar_sound h
      exact ⟨w, v, r, by rw [hs], hrest, hw, hv⟩

/-! ### Every value is skipped -/

/-- A character with which a value or an entry may begin. -/
def Begins (c : Char) : Prop := isStart c = true ∨ ∃ b : Bracket, c = b.opening

theorem Begins.noSpace {c : Char} (h : Begins c) : isSpace c = false := by
  rcases h with h | ⟨b, rfl⟩
  · exact isSpace_of_isStart h
  · cases b <;> rfl

theorem Begins.ne_closing {c : Char} (h : Begins c) (b : Bracket) : c ≠ b.closing := by
  rcases h with h | ⟨b', rfl⟩
  · exact ne_of_isStart h (by cases b <;> rfl)
  · cases b <;> cases b' <;> decide

/-- Values and entries begin with such a character. -/
theorem Grammar.Derives.begins {p : Phrase} {t : List Char} (h : Derives p t)
    (hp : ∀ b, p ≠ .entries b) : ∃ c u, t = c :: u ∧ Begins c := by
  induction h with
  | null | true | false => exact ⟨_, _, rfl, .inl rfl⟩
  | number h =>
    obtain ⟨c, u, rfl, hc, -⟩ := skipScalar_number h (r := []) (by simp [EndsNumber])
    exact ⟨c, u, rfl, .inl hc⟩
  | string h =>
    obtain ⟨c, u, rfl, hc, -⟩ := skipScalar_string h []
    exact ⟨c, u, rfl, .inl hc⟩
  | empty b => exact ⟨_, _, rfl, .inr ⟨b, rfl⟩⟩
  | bracket => exact ⟨_, _, rfl, .inr ⟨_, rfl⟩⟩
  | element _ ih => exact ih fun _ => by simp
  | member hk =>
    obtain ⟨c, u, rfl, hc, -⟩ := skipScalar_string hk []
    exact ⟨c, _, rfl, .inl hc⟩
  | last | more => exact absurd rfl (hp _)

/-- Behind the space, entries begin so too. -/
theorem Grammar.Derives.begins_entries {b : Bracket} {t : List Char}
    (h : Derives (.entries b) t) (r : List Char) :
    ∃ c u, skipSpace (ofChars (t ++ r)) = ofChars (c :: u) ∧ Begins c := by
  cases h with
  | last hw ht | more hw ht =>
    obtain ⟨c, u, rfl, hc⟩ := ht.begins fun _ => by simp
    rw [List.append_assoc, skipSpace_append hw, List.append_assoc, List.cons_append,
      skipSpace_of_noSpace (noSpace_cons hc.noSpace)]
    exact ⟨c, _, rfl, hc⟩

/-- Space before a value or an entry is passed over. -/
theorem skipSpace_begins {w t : List Char} (hw : Space w) (ht : ∃ c u, t = c :: u ∧ Begins c)
    (r : List Char) : skipSpace (ofChars (w ++ (t ++ r))) = ofChars (t ++ r) := by
  obtain ⟨c, u, rfl, hc⟩ := ht
  exact skipSpace_complete hw (noSpace_cons hc.noSpace)

/-- Skipping a phrase takes so many steps, and leaves what follows. -/
def SkipsIn (cost : Nat) : Phrase → List Char → Prop
  | .value, t => ∀ {steps open' s r}, EndsNumber r → skipSpace s = ofChars (t ++ r) →
      skipFrom (steps + cost) .value open' s = skipFrom steps .next open' (ofChars r)
  | .entry b, t => ∀ {steps open' s r}, EndsNumber r → skipSpace s = ofChars (t ++ r) →
      skipFrom (steps + cost) .entry (b :: open') s = skipFrom steps .next (b :: open') (ofChars r)
  | .entries b, t => ∀ {steps open' s r}, skipSpace s = skipSpace (ofChars (t ++ b.closing :: r)) →
      skipFrom (steps + cost) .entry (b :: open') s = skipFrom steps .next open' (ofChars r)

theorem skipsIn_scalar {t : List Char}
    (h : ∀ r, EndsNumber r → ∃ c u, t = c :: u ∧ isStart c = true ∧
      skipScalar (.char c) (ofChars (u ++ r)) = .ok ((), ofChars r)) : SkipsIn 1 .value t := by
  intro steps open' s r hr hs
  obtain ⟨c, u, rfl, hc, hskip⟩ := h r hr
  have hlist : c ≠ '[' := ne_of_isStart hc rfl
  have hobject : c ≠ '\x7b' := ne_of_isStart hc rfl
  rw [List.cons_append, ofChars_cons] at hs
  simp [skipFrom, skipStep, hs, hlist, hobject, hskip, -ofChars_append]

theorem skipFrom_open {steps : Nat} {open' : List Bracket} {s : List Symbol} {r : List Char}
    (b : Bracket) (hs : skipSpace s = ofChars (b.opening :: r)) :
    skipFrom (steps + 1) .value open' s = skipFrom steps .first (b :: open') (ofChars r) := by
  rw [ofChars_cons] at hs
  cases b <;> simp [skipFrom, skipStep, hs, Bracket.opening]

theorem skipFrom_close {steps : Nat} {b : Bracket} {open' : List Bracket} {s : List Symbol}
    {r : List Char} (hs : skipSpace s = ofChars (b.closing :: r)) :
    skipFrom (steps + 1) .next (b :: open') s = skipFrom steps .next open' (ofChars r) := by
  rw [ofChars_cons] at hs
  cases b <;> simp [skipFrom, skipStep, hs, Bracket.closing]

theorem skipFrom_close_first {steps : Nat} {b : Bracket} {open' : List Bracket} {s : List Symbol}
    {r : List Char} (hs : skipSpace s = ofChars (b.closing :: r)) :
    skipFrom (steps + 1) .first (b :: open') s = skipFrom steps .next open' (ofChars r) := by
  rw [ofChars_cons] at hs
  simp [skipFrom, skipStep, hs]

theorem skipFrom_enter {steps : Nat} {b : Bracket} {open' : List Bracket} {s : List Symbol}
    {c : Char} {r : List Char} (hc : Begins c) (hs : skipSpace s = ofChars (c :: r)) :
    skipFrom (steps + 1) .first (b :: open') s =
      skipFrom steps .entry (b :: open') (ofChars (c :: r)) := by
  rw [ofChars_cons] at hs
  simp [skipFrom, skipStep, hs, hc.ne_closing b]

theorem skipFrom_comma {steps : Nat} {b : Bracket} {open' : List Bracket} {s : List Symbol}
    {r : List Char} (hs : skipSpace s = ofChars (',' :: r)) :
    skipFrom (steps + 1) .next (b :: open') s = skipFrom steps .entry (b :: open') (ofChars r) := by
  rw [ofChars_cons] at hs
  simp [skipFrom, skipStep, hs]

/-- Space, a comma and a closing character end a number. -/
theorem endsNumber_append {z r : List Char} {c : Char} (hz : Space z)
    (hc : c = ',' ∨ ∃ b : Bracket, c = b.closing) : EndsNumber (z ++ c :: r) := by
  intro d hd
  cases z with
  | nil =>
    cases hd
    rcases hc with rfl | ⟨b, rfl⟩
    · decide
    · cases b <;> decide
  | cons e z =>
    cases hd
    have he : isSpace d = true := hz d (by simp)
    simp only [isSpace, Bool.or_eq_true, beq_iff_eq] at he
    rcases he with ((rfl | rfl) | rfl) | rfl <;> decide

theorem isSpace_closing (b : Bracket) : isSpace b.closing = false := by
  cases b <;> rfl

/-- How much a phrase costs less than three steps for each of its characters. -/
def Grammar.Phrase.slack : Phrase → Nat
  | .value => 2
  | .entry _ => 1
  | .entries _ => 0

/-- **Every phrase is skipped** in at most three steps for each of its characters. -/
theorem exists_skipsIn {p : Phrase} {t : List Char} (h : Derives p t) :
    ∃ cost, cost + p.slack ≤ 3 * t.length ∧ SkipsIn cost p t := by
  induction h with
  | null =>
    refine ⟨1, by decide, skipsIn_scalar fun r _ => ⟨'n', ['u', 'l', 'l'], rfl, rfl, ?_⟩⟩
    rw [ofChars_append]
    exact readWord_complete ['u', 'l', 'l'] (ofChars r)
  | true =>
    refine ⟨1, by decide, skipsIn_scalar fun r _ => ⟨'t', ['r', 'u', 'e'], rfl, rfl, ?_⟩⟩
    rw [ofChars_append]
    exact readWord_complete ['r', 'u', 'e'] (ofChars r)
  | false =>
    refine ⟨1, by decide, skipsIn_scalar fun r _ => ⟨'f', ['a', 'l', 's', 'e'], rfl, rfl, ?_⟩⟩
    rw [ofChars_append]
    exact readWord_complete ['a', 'l', 's', 'e'] (ofChars r)
  | number h =>
    refine ⟨1, ?_, skipsIn_scalar fun r hr => skipScalar_number h hr⟩
    obtain ⟨c, u, rfl, -⟩ := skipScalar_number h (r := []) (by simp [EndsNumber])
    simp only [Phrase.slack, List.length_cons]
    omega
  | string h =>
    refine ⟨1, ?_, skipsIn_scalar fun r _ => skipScalar_string h r⟩
    obtain ⟨c, u, rfl, -⟩ := skipScalar_string h []
    simp only [Phrase.slack, List.length_cons]
    omega
  | @empty b w hw =>
    refine ⟨2, ?_, fun {steps open' s r} _ hs => ?_⟩
    · simp only [Phrase.slack, List.length_cons, List.length_append, List.length_nil]
      omega
    · rw [List.cons_append, List.append_assoc] at hs
      rw [skipFrom_open b hs, skipFrom_close_first]
      exact skipSpace_complete hw (noSpace_cons (isSpace_closing b))
  | @bracket b t ht ih =>
    obtain ⟨cost, hle, hskip⟩ := ih
    refine ⟨cost + 1 + 1, ?_, fun {steps open' s r} _ hs => ?_⟩
    · simp only [Phrase.slack, List.length_cons, List.length_append, List.length_nil] at hle ⊢
      omega
    · -- the first entry stands behind the space
      obtain ⟨c, u, hcu, hc⟩ := ht.begins_entries (b.closing :: r)
      rw [List.cons_append, List.append_assoc, List.singleton_append] at hs
      rw [← Nat.add_assoc, ← Nat.add_assoc, skipFrom_open b hs, skipFrom_enter hc hcu]
      refine hskip ?_
      rw [skipSpace_of_noSpace (noSpace_cons hc.noSpace), ← hcu]
  | @element t ht ih =>
    obtain ⟨cost, hle, hskip⟩ := ih
    refine ⟨cost + 1, ?_, fun hr hs => hskip hr hs⟩
    simp only [Phrase.slack] at hle ⊢
    omega
  | @member k w x v hk hw hx hv ih =>
    obtain ⟨cost, hle, hskip⟩ := ih
    refine ⟨cost + 1, ?_, fun {steps open' s r} hr hs => ?_⟩
    · simp only [Phrase.slack, List.length_cons, List.length_append] at hle ⊢
      omega
    · have hs' : skipSpace s = ofChars (k ++ (w ++ ':' :: (x ++ (v ++ r)))) := by
        rw [hs]
        simp
      have hstep : skipFrom (steps + cost + 1) .entry (.object :: open') s =
          skipFrom (steps + cost) .value (.object :: open') (ofChars (x ++ (v ++ r))) := by
        simp only [skipFrom, skipStep, skipKey_complete hk hw hs']
      rw [← Nat.add_assoc, hstep]
      exact hskip hr (skipSpace_begins hx (hv.begins fun _ => by simp) r)
  | @last b w t z hw ht hz ih =>
    obtain ⟨cost, hle, hskip⟩ := ih
    refine ⟨1 + cost, ?_, fun {steps open' s r} hs => ?_⟩
    · simp only [Phrase.slack, List.length_append] at hle ⊢
      omega
    · have hs' : skipSpace s = ofChars (t ++ (z ++ b.closing :: r)) := by
        rw [hs, List.append_assoc, List.append_assoc,
          skipSpace_begins hw (ht.begins fun _ => by simp)]
      rw [← Nat.add_assoc, hskip (endsNumber_append hz (.inr ⟨b, rfl⟩)) hs', skipFrom_close]
      exact skipSpace_complete hz (noSpace_cons (isSpace_closing b))
  | @more b w t z u hw ht hz hu iht ihu =>
    obtain ⟨cost, hle, hskip⟩ := iht
    obtain ⟨cost', hle', hskip'⟩ := ihu
    refine ⟨cost' + 1 + cost, ?_, fun {steps open' s r} hs => ?_⟩
    · simp only [Phrase.slack, List.length_cons, List.length_append] at hle hle' ⊢
      omega
    · have hs' : skipSpace s = ofChars (t ++ (z ++ ',' :: (u ++ b.closing :: r))) := by
        have hbegins := skipSpace_begins hw (ht.begins fun _ => by simp)
        rw [hs, ← hbegins]
        simp
      rw [← Nat.add_assoc, ← Nat.add_assoc, hskip (endsNumber_append hz (.inl rfl)) hs',
        skipFrom_comma (skipSpace_complete hz (noSpace_cons rfl))]
      exact hskip' rfl

/-- A value that is skipped in steps and opens no bracket is skipped at once. -/
theorem skipScalar_of_skipFrom {steps : Nat} {c : Char} {s rest : List Symbol}
    (hlist : c ≠ '[') (hobject : c ≠ '\x7b') (hc : skipSpace (.char c :: s) = .char c :: s)
    (h : skipFrom (steps + 1) .value [] (.char c :: s) = .ok ((), rest)) :
    skipScalar (.char c) s = .ok ((), rest) := by
  simp only [skipFrom, skipStep, hc, is_char, beq_iff_eq, if_neg hlist, if_neg hobject] at h
  cases hscalar : skipScalar (.char c) s with
  | error f =>
    rw [hscalar] at h
    cases h
  | ok result =>
    rw [hscalar] at h
    cases steps with
    | zero => cases h
    | succ steps => exact h

/-- **Every value is skipped**, with the space before it. -/
theorem skipValue_complete {w v r : List Char} (hw : Space w) (hv : Value v) (hr : EndsNumber r) :
    skipValue (ofChars (w ++ (v ++ r))) = .ok ((), ofChars r) := by
  obtain ⟨cost, hle, hskip⟩ := exists_skipsIn hv
  have hbegins := hv.begins fun _ => by simp
  have hspace := skipSpace_begins hw hbegins r
  have hself := skipSpace_begins (w := []) (by simp [Space]) hbegins r
  unfold skipValue
  rw [hspace]
  obtain ⟨c, u, rfl, -⟩ := hbegins
  simp only [List.cons_append, ofChars_cons, is_char, Bool.or_eq_true, beq_iff_eq]
  split
  · -- there are more steps than the value costs
    obtain ⟨steps, hsteps⟩ : ∃ steps, 3 * (u ++ r).length + 6 = steps + 1 + cost := by
      refine ⟨3 * (u ++ r).length + 5 - cost, ?_⟩
      simp only [Phrase.slack, List.length_cons, List.length_append] at hle ⊢
      omega
    have hlen : 3 * (Symbol.char c :: ofChars (u ++ r)).length + 3 = steps + 1 + cost := by
      rw [← hsteps, List.length_cons, length_ofChars]
      omega
    rw [hlen]
    exact hskip hr hself
  · rename_i hbracket
    obtain ⟨hlist, hobject⟩ := not_or.mp hbracket
    have hrun : skipFrom (1 + cost) .value [] (ofChars (c :: (u ++ r))) = .ok ((), ofChars r) :=
      hskip hr hself
    rw [Nat.add_comm] at hrun
    exact skipScalar_of_skipFrom hlist hobject hself hrun

end ChatRooms.Json

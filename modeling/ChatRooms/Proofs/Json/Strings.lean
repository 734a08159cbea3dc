import ChatRooms.Proofs.Json.Grammar

/-!
String tokens are read as the grammar has them. Each reader is sound, in that it takes a phrase of
the grammar from the beginning of the text, and complete, in that it takes any phrase that stands
there.
-/

namespace ChatRooms.Json

open ChatRooms.Text ChatRooms.Text.Symbol Grammar

/-! ### Numeric escapes -/

theorem readHex4_complete {a b c d : Char} {n : Nat}
    (h : hex4? (.char a) (.char b) (.char c) (.char d) = some n) (s : List Symbol) :
    readHex4 (.char a :: .char b :: .char c :: .char d :: s) = .ok (n, s) := by
  have hbytes : 4 ≤ Symbol.bytes [.char a, .char b, .char c, .char d] := by
    have ha := a.utf8Size_pos
    have hb := b.utf8Size_pos
    have hc := c.utf8Size_pos
    have hd := d.utf8Size_pos
    simp [Symbol.bytes, Symbol.width]
    omega
  simp [readHex4, hbytes, h]

theorem readHex4_sound {s : List Char} {n : Nat} {rest : List Symbol}
    (h : readHex4 (ofChars s) = .ok (n, rest)) :
    ∃ t r, s = t ++ r ∧ rest = ofChars r ∧ t.length = 4 ∧ Code t n := by
  unfold readHex4 at h
  split at h
  · match s with
    | [] | [_] | [_, _] | [_, _, _] => cases h
    | a :: b :: c :: d :: r =>
      simp only [ofChars_cons] at h
      split at h
      · rename_i hn
        cases h
        exact ⟨[a, b, c, d], r, rfl, rfl, rfl, .digits hn⟩
      · cases h
  · cases h

/-! ### Escapes -/

theorem shortEscape?_u : shortEscape? 'u' = none := by decide

theorem not_isLowSurrogate {n : Nat} (h : isHighSurrogate n = true) :
    isLowSurrogate n = false := by
  simp only [isHighSurrogate, isLowSurrogate, Bool.and_eq_true, decide_eq_true_eq,
    Bool.and_eq_false_iff, decide_eq_false_iff_not] at h ⊢
  omega

theorem readEscape_complete {t : List Char} {c : Char} (h : Letter ('\\' :: t) c)
    (s : List Symbol) : readEscape (ofChars t ++ s) = .ok (c, t.length) := by
  cases h with
  | plain _ hescape => exact absurd rfl hescape
  | short h => simp [readEscape, h]
  | code h hhigh hlow =>
    cases h with
    | digits h => simp [readEscape, shortEscape?_u, readHex4_complete h, hhigh, hlow]
  | pair ht hu hhigh hlow hc =>
    cases ht with
    | digits ht =>
      cases hu with
      | digits hu =>
        simp [readEscape, shortEscape?_u, readHex4_complete ht, not_isLowSurrogate hhigh, hhigh,
          readLowSurrogate, readHex4_complete hu, hlow, hc, Except.map]

theorem readLowSurrogate_sound {high : Nat} {s : List Char} {c : Char}
    (h : readLowSurrogate high (ofChars s) = .ok c) :
    ∃ u low r, s = '\\' :: 'u' :: (u ++ r) ∧ u.length = 4 ∧ Code u low ∧
      isLowSurrogate low = true ∧
      c = Char.ofNat (0x10000 + (high - 0xD800) * 0x400 + (low - 0xDC00)) := by
  match s with
  | [] => cases h
  | [x] =>
    simp only [readLowSurrogate, ofChars_cons, ofChars_nil] at h
    split at h <;> cases h
  | x :: y :: s =>
    simp only [readLowSurrogate, ofChars_cons, is_char, beq_iff_eq] at h
    split at h
    · rename_i hx
      split at h
      · rename_i hy
        subst hx hy
        split at h
        · cases h
        · rename_i low rest hread
          obtain ⟨u, r, rfl, -, hlen, hcode⟩ := readHex4_sound hread
          split at h
          · rename_i hlow
            exact ⟨u, low, r, rfl, hlen, hcode, hlow, (Except.ok.inj h).symm⟩
          · cases h
      · cases h
    · cases h

theorem readEscape_sound {s : List Char} {c : Char} {size : Nat}
    (h : readEscape (ofChars s) = .ok (c, size)) :
    ∃ t r, s = t ++ r ∧ t.length = size ∧ Letter ('\\' :: t) c := by
  cases s with
  | nil => cases h
  | cons e s =>
    simp only [readEscape, ofChars_cons] at h
    split at h
    · rename_i d hshort
      cases h
      exact ⟨[e], s, rfl, rfl, .short hshort⟩
    · split at h
      · rename_i he
        subst he
        split at h
        · cases h
        · rename_i n rest hread
          obtain ⟨t, r, rfl, rfl, hlen, hcode⟩ := readHex4_sound hread
          split at h
          · cases h
          · rename_i hlow
            split at h
            · rename_i hhigh
              cases hpair : readLowSurrogate n (ofChars r) with
              | error f =>
                rw [hpair] at h
                cases h
              | ok d =>
                rw [hpair] at h
                cases h
                obtain ⟨u, low, r, rfl, hulen, hu, hlow, hc⟩ := readLowSurrogate_sound hpair
                exact ⟨'u' :: (t ++ '\\' :: 'u' :: u), r, by simp, by simp [hlen, hulen],
                  .pair hcode hu hhigh hlow hc⟩
            · rename_i hhigh
              cases h
              exact ⟨'u' :: t, r, rfl, by simp [hlen],
                .code hcode (by simpa using hhigh) (by simpa using hlow)⟩
      · cases h

/-! ### Strings that are read -/

variable (start : List Symbol)

/-- The symbols of an escape that is read are passed over. -/
theorem readStringOnto_length (acc : List Char) (t : List Char) (s : List Symbol) :
    readStringOnto start acc 0 t.length (ofChars t ++ s) = readStringOnto start acc 0 0 s := by
  induction t with
  | nil => rfl
  | cons c t ih => exact ih

theorem readStringOnto_letter {t : List Char} {c : Char} (h : Letter t c) (acc : List Char)
    (s : List Symbol) :
    readStringOnto start acc 0 0 (ofChars t ++ s) = readStringOnto start (c :: acc) 0 0 s := by
  have hescaped : ∀ {t}, Letter ('\\' :: t) c →
      readStringOnto start acc 0 0 (ofChars ('\\' :: t) ++ s) =
        readStringOnto start (c :: acc) 0 0 s := by
    intro t h
    simp [readStringOnto, readEscape_complete h, readStringOnto_length]
  cases h with
  | plain hquote hescape hcontrol =>
    simp [readStringOnto, hquote, hescape, Nat.not_lt.mpr hcontrol]
  | short h => exact hescaped (.short h)
  | code h hhigh hlow => exact hescaped (.code h hhigh hlow)
  | pair ht hu hhigh hlow hc => exact hescaped (.pair ht hu hhigh hlow hc)

theorem readStringOnto_complete {t s : List Char} (h : Letters t s) (acc : List Char)
    (rest : List Symbol) :
    readStringOnto start acc 0 0 (ofChars t ++ .char '"' :: rest) =
      .ok (acc.reverse ++ s, rest) := by
  induction h generalizing acc with
  | nil => simp [readStringOnto]
  | cons h _ ih =>
    rw [ofChars_append, List.append_assoc, readStringOnto_letter start h, ih]
    simp

theorem readStringOnto_sound {acc v : List Char} {rest : List Symbol} :
    ∀ {s : List Char}, readStringOnto start acc 0 0 (ofChars s) = .ok (v, rest) →
      ∃ t u r, s = t ++ '"' :: r ∧ rest = ofChars r ∧ Letters t u ∧ v = acc.reverse ++ u := by
  intro s
  -- an escape is passed over at once, so that the induction is on the length
  induction hn : s.length using Nat.strongRecOn generalizing s acc with
  | _ n ih =>
    intro h
    cases s with
    | nil => cases h
    | cons c s =>
      have hletter : ∀ {d t r}, c :: s = t ++ r → t ≠ [] → Letter t d →
          readStringOnto start (d :: acc) 0 0 (ofChars r) = .ok (v, rest) →
          ∃ t u r, c :: s = t ++ '"' :: r ∧ rest = ofChars r ∧ Letters t u ∧
            v = acc.reverse ++ u := by
        intro d t r hs ht hd hr
        have hlen : r.length < n := by
          have hpos := List.length_pos_iff.mpr ht
          rw [← hn, hs, List.length_append]
          omega
        obtain ⟨t', u, r, rfl, hrest, hu, rfl⟩ := ih r.length hlen rfl hr
        exact ⟨t ++ t', d :: u, r, by rw [hs, List.append_assoc], hrest, .cons hd hu, by simp⟩
      simp only [ofChars_cons, readStringOnto, if_true] at h
      split at h
      · rename_i hc
        subst hc
        cases h
        exact ⟨[], [], s, rfl, rfl, .nil, by simp⟩
      · rename_i hquote
        split at h
        · rename_i hc
          subst hc
          split at h
          · cases h
          · rename_i d size hread
            obtain ⟨t, r, rfl, rfl, ht⟩ := readEscape_sound hread
            rw [ofChars_append, readStringOnto_length] at h
            exact hletter rfl (by simp) ht h
        · rename_i hescape
          split at h
          · cases h
          · rename_i hcontrol
            exact hletter (t := [c]) rfl (by simp)
              (.plain hquote hescape (Nat.not_lt.mp hcontrol)) h

/-- A string token is read behind its opening quote. -/
theorem readText_complete {t : List Char} {v : String} (h : Text t v) (rest : List Symbol) :
    ∃ u, t = '"' :: u ∧ readText (ofChars u ++ rest) = .ok (v, rest) := by
  obtain ⟨h⟩ := h
  exact ⟨_, rfl, by simp [readText, readString, readStringOnto_complete _ h]⟩

theorem readText_sound {s : List Char} {v : String} {rest : List Symbol}
    (h : readText (ofChars s) = .ok (v, rest)) :
    ∃ t r, '"' :: s = t ++ r ∧ rest = ofChars r ∧ Text t v := by
  unfold readText readString at h
  split at h
  · rename_i hread
    cases h
    obtain ⟨t, u, r, rfl, hrest, hu, rfl⟩ := readStringOnto_sound _ hread
    exact ⟨_, r, by simp, hrest, .quoted hu⟩
  · cases h

/-! ### Strings that are skipped -/

theorem skipStringFrom_length (t : List Char) (s : List Symbol) :
    skipStringFrom t.length (ofChars t ++ s) = skipStringFrom 0 s := by
  induction t with
  | nil => rfl
  | cons c t ih => exact ih

theorem skipStringFrom_shape {t : List Char} (h : Shape t) (s : List Symbol) :
    skipStringFrom 0 (ofChars t ++ s) = skipStringFrom 0 s := by
  cases h with
  | plain hquote hescape hcontrol =>
    simp [skipStringFrom, hquote, hescape, Nat.not_lt.mpr hcontrol]
  | short h => simp [skipStringFrom, h]
  | code h =>
    cases h with
    | digits h => simp [skipStringFrom, shortEscape?_u, readHex4_complete h]

theorem skipString_complete {t : List Char} (h : Token t) (rest : List Symbol) :
    ∃ u, t = '"' :: u ∧ skipString (ofChars u ++ rest) = .ok ((), rest) := by
  obtain ⟨h⟩ := h
  refine ⟨_, rfl, ?_⟩
  unfold skipString
  rw [ofChars_append, List.append_assoc]
  induction h with
  | nil => simp [skipStringFrom]
  | cons h _ ih => rw [ofChars_append, List.append_assoc, skipStringFrom_shape h, ih]

theorem skipStringFrom_sound {rest : List Symbol} :
    ∀ {s : List Char}, skipStringFrom 0 (ofChars s) = .ok ((), rest) →
      ∃ t r, s = t ++ '"' :: r ∧ rest = ofChars r ∧ Shapes t := by
  intro s
  induction hn : s.length using Nat.strongRecOn generalizing s with
  | _ n ih =>
    intro h
    have hshape : ∀ {t r}, s = t ++ r → t ≠ [] → Shape t →
        skipStringFrom 0 (ofChars r) = .ok ((), rest) →
        ∃ t r, s = t ++ '"' :: r ∧ rest = ofChars r ∧ Shapes t := by
      intro t r hs ht hd hr
      have hlen : r.length < n := by
        have hpos := List.length_pos_iff.mpr ht
        rw [← hn, hs, List.length_append]
        omega
      obtain ⟨t', r, rfl, hrest, hu⟩ := ih r.length hlen rfl hr
      exact ⟨t ++ t', r, by rw [hs, List.append_assoc], hrest, .cons hd hu⟩
    cases s with
    | nil => cases h
    | cons c s =>
      simp only [ofChars_cons, skipStringFrom] at h
      split at h
      · rename_i hc
        subst hc
        cases h
        exact ⟨[], s, rfl, rfl, .nil⟩
      · rename_i hquote
        split at h
        · rename_i hc
          subst hc
          cases s with
          | nil => cases h
          | cons e s =>
            simp only [ofChars_cons] at h
            split at h
            · rename_i hshort
              exact hshape (t := ['\\', e]) rfl (by simp) (.short hshort) h
            · split at h
              · rename_i he
                subst he
                split at h
                · cases h
                · rename_i hread
                  obtain ⟨t, r, rfl, -, hlen, hcode⟩ := readHex4_sound hread
                  have hskip := skipStringFrom_length ('u' :: t) (ofChars r)
                  rw [List.length_cons, hlen] at hskip
                  rw [ofChars_append] at h
                  exact hshape (t := '\\' :: 'u' :: t) rfl (by simp) (.code hcode)
                    (hskip.symm.trans h)
              · cases h
        · rename_i hescape
          split at h
          · cases h
          · rename_i hcontrol
            exact hshape (t := [c]) rfl (by simp)
              (.plain hquote hescape (Nat.not_lt.mp hcontrol)) h

theorem skipString_sound {s : List Char} {rest : List Symbol}
    (h : skipString (ofChars s) = .ok ((), rest)) :
    ∃ t r, '"' :: s = t ++ r ∧ rest = ofChars r ∧ Token t := by
  obtain ⟨t, r, rfl, hrest, ht⟩ := skipStringFrom_sound h
  exact ⟨_, r, by simp, hrest, .quoted ht⟩

/-! ### A string with a value has the shape of one -/

namespace Grammar

theorem Shapes.single {t : List Char} (h : Shape t) : Shapes t := by
  have hs := Shapes.cons h .nil
  rwa [List.append_nil] at hs

/-- An escape of a pair of surrogates is two escapes in shape. -/
theorem Letter.shapes {t : List Char} {c : Char} (h : Letter t c) : Shapes t := by
  cases h with
  | plain hquote hescape hcontrol => exact .single (.plain hquote hescape hcontrol)
  | short h => exact .single (.short (by simp [h]))
  | code h => exact .single (.code h)
  | pair ht hu => exact .cons (.code ht) (.single (.code hu))

theorem Shapes.append {t u : List Char} (ht : Shapes t) (hu : Shapes u) : Shapes (t ++ u) := by
  induction ht with
  | nil => exact hu
  | cons h _ ih =>
    rw [List.append_assoc]
    exact .cons h ih

theorem Letters.shapes {t s : List Char} (h : Letters t s) : Shapes t := by
  induction h with
  | nil => exact .nil
  | cons h _ ih => exact h.shapes.append ih

theorem Text.token {t : List Char} {v : String} (h : Text t v) : Token t := by
  obtain ⟨h⟩ := h
  exact .quoted h.shapes

end Grammar

end ChatRooms.Json

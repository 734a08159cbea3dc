import Mathlib.Data.List.SplitBy
import ChatRooms.Storage.DatabaseUrl
import ChatRooms.Proofs.Text.Utf8

/-!
What is opened under the URL of a path. Copies of the scheme and of two slashes are dropped from the
beginning, and escapes are decoded, so that the path comes back exactly if it has none of these. A
slash behind the first question mark is part of a parameter, and no parameter with a slash in it is
taken but the name of a driver.
-/

namespace ChatRooms.Text.Percent

/-! ### Escapes -/

/-- Somewhere in the bytes stands an escape. -/
def HasEscape (bytes : List UInt8) : Prop :=
  ∃ before rest, bytes = before ++ rest ∧ StartsEscape rest

theorem not_hasEscape_nil : ¬HasEscape [] := by
  rintro ⟨before, rest, h, a, b, tail, rfl, -⟩
  simp at h

theorem hasEscape_cons {b : UInt8} {rest : List UInt8} :
    HasEscape (b :: rest) ↔ StartsEscape (b :: rest) ∨ HasEscape rest := by
  constructor
  · rintro ⟨before, tail, h, hstarts⟩
    cases before with
    | nil =>
      obtain rfl : b :: rest = tail := h
      exact .inl hstarts
    | cons b' before =>
      obtain ⟨-, rfl⟩ := List.cons_eq_cons.mp h
      exact .inr ⟨before, tail, rfl, hstarts⟩
  · rintro (hstarts | ⟨before, tail, rfl, hstarts⟩)
    · exact ⟨[], b :: rest, rfl, hstarts⟩
    · exact ⟨b :: before, tail, rfl, hstarts⟩

theorem not_hasEscape_of_not_mem {bytes : List UInt8} (h : 0x25 ∉ bytes) : ¬HasEscape bytes := by
  rintro ⟨before, _, rfl, a, b, rest, rfl, -⟩
  simp at h

/-- No escape goes over a byte that can be no part of one. -/
theorem hasEscape_append_cons {c : UInt8} (hpercent : c ≠ 0x25) (hdigit : hexByte? c = none)
    {xs ys : List UInt8} : HasEscape (xs ++ c :: ys) ↔ HasEscape xs ∨ HasEscape ys := by
  induction xs with
  | nil =>
    have hstarts : ¬StartsEscape (c :: ys) := by
      rintro ⟨a, b, rest, h, -⟩
      exact hpercent (List.cons_eq_cons.mp h).1
    rw [List.nil_append, hasEscape_cons, or_iff_right hstarts, or_iff_right not_hasEscape_nil]
  | cons x xs ih =>
    have hstarts : StartsEscape (x :: (xs ++ c :: ys)) ↔ StartsEscape (x :: xs) := by
      match xs with
      | [] =>
        refine iff_of_false ?_ ?_
        · rintro ⟨a, b, rest, h, ha, -⟩
          cases h
          simp [hdigit] at ha
        · rintro ⟨a, b, rest, h, -⟩
          cases h
      | [y] =>
        refine iff_of_false ?_ ?_
        · rintro ⟨a, b, rest, h, -, hb⟩
          cases h
          simp [hdigit] at hb
        · rintro ⟨a, b, rest, h, -⟩
          cases h
      | y :: z :: xs =>
        constructor
        · rintro ⟨a, b, rest, h, hab⟩
          cases h
          exact ⟨_, _, _, rfl, hab⟩
        · rintro ⟨a, b, rest, h, hab⟩
          cases h
          exact ⟨_, _, _, rfl, hab⟩
    rw [List.cons_append, hasEscape_cons, hasEscape_cons, ih, hstarts, or_assoc]

namespace Decodes

variable {bytes out : List UInt8}

theorem length_le (h : Decodes bytes out) : out.length ≤ bytes.length := by
  induction h with
  | nil => exact Nat.le_refl 0
  | escape hx hy h ih => simp; omega
  | plain hno h ih => simpa using ih

/-- Bytes without escapes are left as they are. -/
theorem eq_of_not_hasEscape (h : Decodes bytes out) (hno : ¬HasEscape bytes) : out = bytes := by
  induction h with
  | nil => rfl
  | escape hx hy h ih =>
    exact absurd (hasEscape_cons.mpr (.inl ⟨_, _, _, rfl, by simp [hx], by simp [hy]⟩)) hno
  | plain hstarts h ih => rw [ih fun hrest => hno (hasEscape_cons.mpr (.inr hrest))]

/-- Each escape makes the bytes fewer. -/
theorem not_hasEscape_of_length (h : Decodes bytes out) (hlen : out.length = bytes.length) :
    ¬HasEscape bytes := by
  induction h with
  | nil => exact not_hasEscape_nil
  | escape hx hy h ih =>
    have hle := h.length_le
    simp at hlen
    omega
  | plain hstarts h ih =>
    rw [hasEscape_cons]
    exact fun hor => hor.elim hstarts (ih (by simpa using hlen))

/-- A byte that can be no part of an escape is kept. -/
theorem mem (h : Decodes bytes out) {b : UInt8} (hpercent : b ≠ 0x25) (hdigit : hexByte? b = none)
    (hb : b ∈ bytes) : b ∈ out := by
  induction h with
  | nil => exact hb
  | @escape a c x y rest out hx hy h ih =>
    have ha : b ≠ a := fun e => by rw [← e, hdigit] at hx; cases hx
    have hc : b ≠ c := fun e => by rw [← e, hdigit] at hy; cases hy
    simp only [List.mem_cons, hpercent, ha, hc, false_or] at hb
    exact List.mem_cons_of_mem _ (ih hb)
  | plain hstarts h ih =>
    rcases List.mem_cons.mp hb with rfl | hrest
    · exact List.mem_cons_self
    · exact List.mem_cons_of_mem _ (ih hrest)

end Decodes

/-! ### Slashes in forms -/

/-- A slash stays in the text of a name or a value. -/
theorem slash_mem_decodeFormText {bytes : List UInt8} (h : 0x2F ∈ bytes) :
    '/' ∈ (decodeFormText bytes).toList := by
  have hmap : (0x2F : UInt8) ∈ bytes.map fun b => if b = 0x2B then 0x20 else b :=
    List.mem_map.mpr ⟨0x2F, h, by decide⟩
  exact Utf8.mem_lenient (by decide) _ ((decodes_decode _).mem (by decide) (by decide) hmap)

/-- What is not the byte at which bytes are cut is on one of the two sides. -/
theorem mem_cutAt {b c : UInt8} {bytes : List UInt8} (h : c ∈ bytes) (hne : c ≠ b) :
    c ∈ (cutAt b bytes).1 ∨ c ∈ (cutAt b bytes).2 := by
  unfold cutAt
  induction bytes with
  | nil => cases h
  | cons d rest ih =>
    by_cases hd : d = b
    · subst hd
      right
      simpa [hne] using h
    · rcases List.mem_cons.mp h with rfl | hrest
      · simp [hd]
      · refine (ih hrest).imp (fun hin => ?_) (fun hin => ?_)
        · simp [hd, hin]
        · simpa [hd] using hin

/-- A slash in a form is in the name or the value of a pair. -/
theorem exists_mem_formPairs {bytes : List UInt8} (h : 0x2F ∈ bytes) :
    ∃ pair ∈ formPairs bytes, '/' ∈ pair.1.toList ∨ '/' ∈ pair.2.toList := by
  rw [← List.flatten_splitBy (fun x y => x != 0x26 && y != 0x26) bytes, List.mem_flatten] at h
  obtain ⟨piece, hpiece, hmem⟩ := h
  have hkept : piece ∈ (piecesAt 0x26 bytes).filter fun piece => piece != [0x26] := by
    refine List.mem_filter.mpr ⟨hpiece, bne_iff_ne.mpr ?_⟩
    rintro rfl
    revert hmem
    decide
  refine ⟨_, List.mem_map_of_mem hkept, ?_⟩
  exact (mem_cutAt hmem (by decide)).imp slash_mem_decodeFormText slash_mem_decodeFormText

end ChatRooms.Text.Percent

namespace ChatRooms.Storage

open ChatRooms.Text

/-! ### Parameters -/

/-- What a parameter can do. A slash in it leaves only the name of a driver. -/
theorem OpenOptions.set_cases (o : OpenOptions) (name value : String) :
    (∃ e, o.set name value = .error e) ∨
      o.set name value = .ok { o with fileSystem := some value } ∨
      o.set name value = .ok o ∧ '/' ∉ name.toList ∧ '/' ∉ value.toList := by
  -- a parameter that must have one of some values, none of which has a slash
  have hchoice : ∀ {r : Except UrlError OpenOptions} {known : String} (values : List String),
      r = (if values.contains value then .ok o else .error (.unknownValue value name)) →
      name = known → '/' ∉ known.toList → (∀ v ∈ values, '/' ∉ v.toList) →
      (∃ e, r = .error e) ∨ r = .ok { o with fileSystem := some value } ∨
        r = .ok o ∧ '/' ∉ name.toList ∧ '/' ∉ value.toList := by
    rintro r known values rfl rfl hname hvalues
    split
    · rename_i hvalue
      exact .inr (.inr ⟨rfl, hname, hvalues value (by simpa using hvalue)⟩)
    · exact .inl ⟨_, rfl⟩
  unfold OpenOptions.set
  split
  · exact hchoice _ rfl ‹_› (by decide) (by decide)
  split
  · exact hchoice _ rfl ‹_› (by decide) (by decide)
  split
  · exact hchoice _ rfl ‹_› (by decide) (by decide)
  split
  · exact .inr (.inl rfl)
  · exact .inl ⟨_, rfl⟩

/-- Parameters keep the path, and one of them with a slash asks for a driver. -/
theorem OpenOptions.foldlM_set {o o' : OpenOptions} {pairs : List (String × String)}
    (h : pairs.foldlM (fun o pair => o.set pair.1 pair.2) o = .ok o') :
    o'.path = o.path ∧ (o'.fileSystem = none → o.fileSystem = none ∧
      ∀ pair ∈ pairs, '/' ∉ pair.1.toList ∧ '/' ∉ pair.2.toList) := by
  induction pairs generalizing o with
  | nil =>
    cases h
    exact ⟨rfl, fun hnone => ⟨hnone, by simp⟩⟩
  | cons pair pairs ih =>
    rw [List.foldlM_cons] at h
    rcases o.set_cases pair.1 pair.2 with ⟨e, hset⟩ | hset | ⟨hset, hname, hvalue⟩
    · rw [hset] at h
      cases h
    · rw [hset] at h
      obtain ⟨hpath, hnone⟩ := ih h
      exact ⟨hpath, fun hfs => by cases (hnone hfs).1⟩
    · rw [hset] at h
      obtain ⟨hpath, hnone⟩ := ih h
      refine ⟨hpath, fun hfs => ⟨(hnone hfs).1, ?_⟩⟩
      rintro pair' (_ | ⟨_, hmem⟩)
      · exact ⟨hname, hvalue⟩
      · exact (hnone hfs).2 pair' hmem

/-! ### Beginnings that are dropped -/

/-- `rest` is what is left of a text without the copies of `start` at its beginning. -/
structure Strips (start s rest : List Char) : Prop where
  done : ¬start <+: rest
  copies : ∃ k, s = (List.replicate k start).flatten ++ rest

namespace Strips

variable {start s rest : List Char}

theorem suffix (h : Strips start s rest) : rest <:+ s := by
  obtain ⟨k, rfl⟩ := h.copies
  exact List.suffix_append _ _

theorem eq_of_not_prefix (h : Strips start s rest) (hno : ¬start <+: s) : rest = s := by
  obtain ⟨k, rfl⟩ := h.copies
  cases k with
  | zero => rfl
  | succ k =>
    refine absurd ?_ hno
    rw [List.replicate_succ, List.flatten_cons, List.append_assoc]
    exact List.prefix_append _ _

theorem of_append (h : Strips start (start ++ s) rest) : Strips start s rest := by
  obtain ⟨k, hk⟩ := h.copies
  refine ⟨h.done, ?_⟩
  cases k with
  | zero => exact absurd ⟨s, hk⟩ h.done
  | succ k =>
    rw [List.replicate_succ, List.flatten_cons, List.append_assoc] at hk
    exact ⟨k, List.append_cancel_left hk⟩

theorem of_copies {k : Nat} (h : Strips start ((List.replicate k start).flatten ++ s) rest) :
    Strips start s rest := by
  induction k with
  | zero => exact h
  | succ k ih =>
    rw [List.replicate_succ, List.flatten_cons, List.append_assoc] at h
    exact ih h.of_append

/-- What follows a character that no copy has is kept. -/
theorem append_cons (h : Strips start s rest) {c : Char} (hc : c ∉ start) {before after : List Char}
    (hs : s = before ++ c :: after) : ∃ before', rest = before' ++ c :: after := by
  obtain ⟨k, hk⟩ := h.copies
  have hcopies : c ∉ (List.replicate k start).flatten := by
    rintro hmem
    obtain ⟨l, hl, hcl⟩ := List.mem_flatten.mp hmem
    exact hc (List.eq_of_mem_replicate hl ▸ hcl)
  rcases List.append_eq_append_iff.mp (hs.symm.trans hk) with ⟨a, ha, hafter⟩ | ⟨a, -, hrest⟩
  · cases a with
    | nil => exact ⟨[], hafter.symm⟩
    | cons x a =>
      obtain ⟨rfl, -⟩ := List.cons_eq_cons.mp hafter
      exact absurd (by simp [ha]) hcopies
  · exact ⟨a, hrest⟩

end Strips

theorem strips_dropRepeated {start : List Char} (hstart : start ≠ []) {n : Nat} {s : List Char}
    (hn : s.length ≤ n) : Strips start s (dropRepeated start n s) := by
  have hpos : 0 < start.length := List.length_pos_iff.mpr hstart
  induction n generalizing s with
  | zero =>
    obtain rfl : s = [] := List.length_eq_zero_iff.mp (by omega)
    exact ⟨by simpa [dropRepeated] using hstart, 0, rfl⟩
  | succ n ih =>
    rw [dropRepeated]
    split
    · rename_i hprefix
      obtain ⟨tail, rfl⟩ := List.isPrefixOf_iff_prefix.mp hprefix
      rw [List.length_append] at hn
      rw [List.drop_left]
      obtain ⟨hdone, k, hk⟩ := @ih tail (by omega)
      refine ⟨hdone, k + 1, ?_⟩
      rw [List.replicate_succ, List.flatten_cons, List.append_assoc, ← hk]
    · rename_i hprefix
      exact ⟨fun h => hprefix (List.isPrefixOf_iff_prefix.mpr h), 0, rfl⟩

/-! ### Paths -/

/-- A path comes back from its URL as it is. -/
structure IsPlain (path : String) : Prop where
  noScheme : ¬"sqlite:".toList <+: path.toList
  noSlashes : ¬"//".toList <+: path.toList
  noEscape : ¬Percent.HasEscape (Utf8.encode path.toList)

theorem mem_drop_dropWhile {c d : Char} {before after : List Char} (h : d ∈ after) :
    d ∈ ((before ++ c :: after).dropWhile (· ≠ c)).drop 1 := by
  induction before with
  | nil => simpa using h
  | cons x before ih =>
    by_cases hx : x = c
    · simp [hx, h]
    · simpa [hx] using ih

/-- What is opened under the URL of a path, if nobody asks for a driver: the path without its
beginnings and with the escapes decoded. There is no slash behind a question mark. -/
theorem ofUrl_databaseUrl {path opened : String}
    (h : OpenOptions.ofUrl (databaseUrl path) = .ok ⟨opened, none⟩) :
    (∀ before after, path.toList = before ++ '?' :: after → '/' ∉ after) ∧
      ∃ bare rest, Strips "sqlite:".toList path.toList bare ∧ Strips "//".toList bare rest ∧
        Utf8.encode opened.toList = Percent.decode (Utf8.encode (rest.takeWhile (· ≠ '?'))) := by
  have hurl : (databaseUrl path).toList = "sqlite:".toList ++ path.toList := by
    simp [databaseUrl]
  unfold OpenOptions.ofUrl at h
  rw [hurl] at h
  dsimp only at h
  have hbare : Strips "sqlite:".toList ("sqlite:".toList ++ path.toList) _ :=
    strips_dropRepeated (by decide) (Nat.le_refl _)
  generalize dropRepeated "sqlite:".toList _ ("sqlite:".toList ++ path.toList) = bare at h hbare
  have hrest : Strips "//".toList bare _ := strips_dropRepeated (by decide) (Nat.le_refl _)
  generalize dropRepeated "//".toList bare.length bare = rest at h hrest
  split at h
  · cases h
  rename_i hfault
  obtain ⟨hpath, hnone⟩ := OpenOptions.foldlM_set h
  refine ⟨fun before after hquestion hslash => ?_, bare, rest, hbare.of_append, hrest, ?_⟩
  · obtain ⟨before', hbefore'⟩ := hbare.of_append.append_cons (by decide) hquestion
    obtain ⟨before'', rfl⟩ := hrest.append_cons (by decide) hbefore'
    have hbyte : 0x2F ∈ Utf8.encode
        (((before'' ++ '?' :: after).dropWhile (· ≠ '?')).drop 1) :=
      (Utf8.mem_encode_iff (by decide)).mpr (mem_drop_dropWhile hslash)
    obtain ⟨pair, hpair, hin⟩ := Percent.exists_mem_formPairs hbyte
    have hout := (hnone rfl).2 pair hpair
    exact hin.elim hout.1 hout.2
  · rw [show opened = _ from hpath]
    exact Utf8.encode_lenient _ hfault

/-- A path without a question mark is opened as it is exactly if it is plain. -/
theorem opened_eq_iff_isPlain {path opened : String} {bare rest : List Char}
    (hbare : Strips "sqlite:".toList path.toList bare) (hrest : Strips "//".toList bare rest)
    (hopened : Utf8.encode opened.toList = Percent.decode (Utf8.encode rest)) :
    opened = path ↔ IsPlain path := by
  have hdecodes := Percent.decodes_decode (Utf8.encode rest)
  rw [← hopened] at hdecodes
  constructor
  · intro heq
    obtain ⟨cut, hcut⟩ := hrest.suffix.trans hbare.suffix
    have hnil : cut = [] := by
      have hle := hdecodes.length_le
      rw [heq, ← hcut, Utf8.encode_append, List.length_append] at hle
      have hempty : Utf8.encode cut = [] := List.length_eq_zero_iff.mp (by omega)
      exact Utf8.encode_injective hempty
    obtain rfl : rest = path.toList := by rw [← hcut, hnil, List.nil_append]
    obtain rfl : bare = path.toList := hbare.suffix.eq_of_length_le hrest.suffix.length_le
    exact ⟨hbare.done, hrest.done, hdecodes.not_hasEscape_of_length (by rw [heq])⟩
  · intro hplain
    obtain rfl := hbare.eq_of_not_prefix hplain.noScheme
    obtain rfl := hrest.eq_of_not_prefix hplain.noSlashes
    have hbytes := hdecodes.eq_of_not_hasEscape hplain.noEscape
    exact String.toList_inj.mp (Utf8.encode_injective hbytes)

end ChatRooms.Storage

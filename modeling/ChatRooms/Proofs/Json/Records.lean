import ChatRooms.Proofs.Json.Kinds

/-!
A record is read from exactly the texts that write it: an object in which each field has one member,
or none if it may be left out, whatever other members there are, or a list of the fields in order.
-/

namespace ChatRooms.Json

open ChatRooms.Text ChatRooms.Text.Symbol Grammar

/-! ### Members and fields -/

/-- The texts of the values of a key, in the order of the members. -/
def valuesOf (ms : List (String × List Char)) (key : String) : List (List Char) :=
  (ms.filter (·.1 = key)).map (·.2)

@[simp] theorem valuesOf_nil (key : String) : valuesOf [] key = [] := rfl

theorem valuesOf_append (ms ms' : List (String × List Char)) (key : String) :
    valuesOf (ms ++ ms') key = valuesOf ms key ++ valuesOf ms' key := by
  simp [valuesOf]

theorem valuesOf_cons_self (ms : List (String × List Char)) (key : String) (t : List Char) :
    valuesOf ((key, t) :: ms) key = t :: valuesOf ms key := by
  simp [valuesOf]

theorem valuesOf_cons_of_ne (ms : List (String × List Char)) {key key' : String} (t : List Char)
    (h : key ≠ key') : valuesOf ((key, t) :: ms) key' = valuesOf ms key' := by
  simp [valuesOf, h]

/-- The values of a field's key write the field: there is one, or none if it may be left out. -/
def FieldIs (f : Field) (vs : List (List Char)) (v : f.kind.Carrier) : Prop :=
  (∃ t, vs = [t] ∧ Writes f.kind t v) ∨ vs = [] ∧ f.kind.absent? = some v

/-- The members of an object write a row. -/
def Fills : (fs : List Field) → List (String × List Char) → Row fs → Prop
  | [], _, () => True
  | f :: fs, ms, (v, row) => FieldIs f (valuesOf ms f.name) v ∧ Fills fs ms row

/-- The elements of a list write a row. -/
def Lists : (fs : List Field) → List (List Char) → Row fs → Prop
  | [], [], () => True
  | f :: fs, t :: ts, (v, row) => Writes f.kind t v ∧ Lists fs ts row
  | _, _, _ => False

/-- The members that were read so far have filled a slot. -/
def SlotIs (f : Field) (vs : List (List Char)) : Option f.kind.Carrier → Prop
  | none => vs = []
  | some v => ∃ t, vs = [t] ∧ Writes f.kind t v

/-- The members that were read so far have filled the slots. -/
def Holds : (fs : List Field) → List (String × List Char) → Slots fs → Prop
  | [], _, () => True
  | f :: fs, ms, (slot, slots) => SlotIs f (valuesOf ms f.name) slot ∧ Holds fs ms slots

theorem holds_empty (fs : List Field) : Holds fs [] (Slots.empty fs) := by
  induction fs with
  | nil => trivial
  | cons f fs ih => exact ⟨rfl, ih⟩

/-- A member with the name of no field fills no slot. -/
theorem Holds.append {fs : List Field} {ms : List (String × List Char)} {slots : Slots fs}
    (h : Holds fs ms slots) {key : String} (hkey : ∀ f ∈ fs, key ≠ f.name) (t : List Char) :
    Holds fs (ms ++ [(key, t)]) slots := by
  induction fs with
  | nil => trivial
  | cons f fs ih =>
    obtain ⟨hf, hfs⟩ := List.forall_mem_cons.mp hkey
    refine ⟨?_, ih h.2 hfs⟩
    rw [valuesOf_append, valuesOf_cons_of_ne _ _ hf, valuesOf_nil, List.append_nil]
    exact h.1

/-- The slots make the row that the members write. -/
theorem fills_of_row? {fs : List Field} {ms : List (String × List Char)} {slots : Slots fs}
    {row : Row fs} (h : Holds fs ms slots) (hrow : slots.row? = .ok row) : Fills fs ms row := by
  induction fs with
  | nil => trivial
  | cons f fs ih =>
    obtain ⟨slot, slots⟩ := slots
    obtain ⟨hslot, hslots⟩ := h
    simp only [Slots.row?] at hrow
    split at hrow
    · cases hrow
    · rename_i v hv
      split at hrow
      · cases hrow
      · rename_i row' hrow'
        cases hrow
        refine ⟨?_, ih hslots hrow'⟩
        cases slot with
        | none => exact .inr ⟨hslot, hv⟩
        | some v' =>
          cases hv
          exact .inl hslot

/-- The value of a text is no other. -/
theorem Grammar.Writes.unique {k : Kind} {t : List Char} {v v' : k.Carrier} (h : Writes k t v)
    (h' : Writes k t v') : v = v' := by
  have hends : EndsNumber [] := by simp [EndsNumber]
  have hread := readKind_complete k (w := []) (by simp [Space]) h hends
  rw [readKind_complete k (by simp [Space]) h' hends] at hread
  cases hread
  rfl

theorem row?_of_fills {fs : List Field} {ms : List (String × List Char)} {slots : Slots fs}
    {row : Row fs} (h : Holds fs ms slots) (hrow : Fills fs ms row) : slots.row? = .ok row := by
  induction fs with
  | nil => rfl
  | cons f fs ih =>
    obtain ⟨slot, slots⟩ := slots
    obtain ⟨v, row⟩ := row
    obtain ⟨hslot, hslots⟩ := h
    obtain ⟨hv, hrow⟩ := hrow
    have hfound : (slot <|> f.kind.absent?) = some v := by
      cases slot with
      | none =>
        rcases hv with ⟨t, ht, -⟩ | ⟨-, hv⟩
        · rw [show _ = [] from hslot] at ht
          cases ht
        · exact hv
      | some v' =>
        obtain ⟨t', ht', hwrites'⟩ := hslot
        rcases hv with ⟨t, ht, hwrites⟩ | ⟨hnil, -⟩
        · rw [ht'] at ht
          cases ht
          rw [hwrites'.unique hwrites]
          rfl
        · rw [ht'] at hnil
          cases hnil
    simp only [Slots.row?, hfound, ih hslots hrow]

/-! ### Members are read -/

theorem readColon_sound {s : List Char} {rest : List Symbol}
    (h : readColon (ofChars s) = .ok ((), rest)) :
    ∃ x r, s = x ++ ':' :: r ∧ rest = ofChars r ∧ Space x := by
  obtain ⟨x, s, rfl, hskip, hx⟩ := skipSpace_sound s
  unfold readColon at h
  rw [hskip] at h
  cases s with
  | nil => cases h
  | cons c r =>
    simp only [ofChars_cons, is_char, beq_iff_eq] at h
    split at h
    · rename_i hc
      cases h
      exact ⟨x, r, by rw [hc], rfl, hx⟩
    · cases h

theorem readColon_complete {x : List Char} (hx : Space x) (r : List Char) :
    readColon (ofChars (x ++ ':' :: r)) = .ok ((), ofChars r) := by
  unfold readColon
  rw [skipSpace_complete hx (noSpace_cons rfl)]
  rfl

theorem readMember_sound {key : String} {fs : List Field} {slots slots' : Slots fs} {s : List Char}
    {rest : List Symbol} (hnames : (fs.map (·.name)).Nodup)
    (h : readMember key (ofChars s) fs slots = .ok (slots', rest)) :
    ∃ x y t r, s = x ++ ':' :: (y ++ (t ++ r)) ∧ rest = ofChars r ∧ Space x ∧ Space y ∧ Value t ∧
      ∀ {ms}, Holds fs ms slots → Holds fs (ms ++ [(key, t)]) slots' := by
  induction fs with
  | nil =>
    simp only [readMember] at h
    split at h
    · cases h
    · rename_i hcolon
      obtain ⟨x, s, rfl, rfl, hx⟩ := readColon_sound hcolon
      split at h
      · cases h
      · rename_i hvalue
        cases h
        obtain ⟨y, t, r, rfl, hrest, hy, ht⟩ := skipValue_sound hvalue
        exact ⟨x, y, t, r, rfl, hrest, hx, hy, ht, fun _ => trivial⟩
  | cons f fs ih =>
    obtain ⟨slot, slots⟩ := slots
    rw [List.map_cons, List.nodup_cons] at hnames
    simp only [readMember] at h
    split at h
    · rename_i hkey
      subst hkey
      split at h
      · cases h
      · split at h
        · cases h
        · rename_i hcolon
          obtain ⟨x, s, rfl, rfl, hx⟩ := readColon_sound hcolon
          split at h
          · cases h
          · rename_i v _ hvalue
            cases h
            obtain ⟨y, t, r, rfl, hrest, hy, ht⟩ := readKind_sound _ hvalue
            refine ⟨x, y, t, r, rfl, hrest, hx, hy, ht.value, fun {ms} hms => ⟨?_, ?_⟩⟩
            · refine ⟨t, ?_, ht⟩
              rw [valuesOf_append, show valuesOf ms f.name = [] from hms.1, valuesOf_cons_self]
              rfl
            · refine hms.2.append (fun f' hf' heq => hnames.1 ?_) t
              exact List.mem_map.mpr ⟨f', hf', heq.symm⟩
    · rename_i hkey
      split at h
      · cases h
      · rename_i hmember
        cases h
        obtain ⟨x, y, t, r, hs, hrest, hx, hy, ht, hholds⟩ := ih hnames.2 hmember
        refine ⟨x, y, t, r, hs, hrest, hx, hy, ht, fun {ms} hms => ⟨?_, hholds hms.2⟩⟩
        rw [valuesOf_append, valuesOf_cons_of_ne _ _ hkey, valuesOf_nil, List.append_nil]
        exact hms.1

/-- The values of each field's key write the field, or there is none. -/
def Fits (fs : List Field) (ms : List (String × List Char)) : Prop :=
  ∀ f ∈ fs, valuesOf ms f.name = [] ∨ ∃ t v, valuesOf ms f.name = [t] ∧ Writes f.kind t v

theorem readMember_complete {key : String} {fs : List Field} {slots : Slots fs}
    {ms more : List (String × List Char)} {x y t r : List Char}
    (hnames : (fs.map (·.name)).Nodup) (hx : Space x) (hy : Space y) (ht : Value t)
    (hr : EndsNumber r) (hfits : Fits fs (ms ++ (key, t) :: more)) (h : Holds fs ms slots) :
    ∃ slots', readMember key (ofChars (x ++ ':' :: (y ++ (t ++ r)))) fs slots =
      .ok (slots', ofChars r) ∧ Holds fs (ms ++ [(key, t)]) slots' := by
  induction fs with
  | nil =>
    refine ⟨(), ?_, trivial⟩
    simp only [readMember, readColon_complete hx, skipValue_complete hy ht hr]
  | cons f fs ih =>
    obtain ⟨slot, slots⟩ := slots
    obtain ⟨hslot, hslots⟩ := h
    obtain ⟨hf, hfs⟩ := List.forall_mem_cons.mp hfits
    rw [List.map_cons, List.nodup_cons] at hnames
    by_cases hkey : key = f.name
    · subst hkey
      -- the member is the only one of its field, so that the slot is still empty
      rw [valuesOf_append, valuesOf_cons_self] at hf
      obtain ⟨v, hnone, hwrites⟩ : ∃ v, valuesOf ms f.name = [] ∧ Writes f.kind t v := by
        rcases hf with hnil | ⟨t', v, hone, hwrites⟩
        · simp at hnil
        · cases hms : valuesOf ms f.name with
          | nil =>
            rw [hms] at hone
            obtain ⟨rfl, -⟩ := List.cons.inj hone
            exact ⟨v, rfl, hwrites⟩
          | cons t'' ts =>
            rw [hms] at hone
            simp at hone
      cases slot with
      | some v' =>
        obtain ⟨t', ht', -⟩ := hslot
        rw [hnone] at ht'
        cases ht'
      | none =>
        refine ⟨(some v, slots), ?_, ?_, hslots.append (fun f' hf' heq => hnames.1 ?_) t⟩
        · simp only [readMember, if_true, readColon_complete hx,
            readKind_complete f.kind hy hwrites hr]
        · refine ⟨t, ?_, hwrites⟩
          rw [valuesOf_append, hnone, valuesOf_cons_self]
          rfl
        · exact List.mem_map.mpr ⟨f', hf', heq.symm⟩
    · obtain ⟨slots', hread, hholds⟩ := ih hnames.2 hfs hslots
      refine ⟨(slot, slots'), ?_, ?_, hholds⟩
      · simp only [readMember, if_neg hkey, hread]
      · rw [valuesOf_append, valuesOf_cons_of_ne _ _ hkey, valuesOf_nil, List.append_nil]
        exact hslot

/-! ### Objects are read -/

/-- What may stand before a key or the end of an object: nothing in front of the first member, and
otherwise a comma. -/
inductive Lead : Bool → List Char → Prop
  | first : Lead true []
  | comma {z : List Char} (hz : Space z) : Lead false (z ++ [','])

/-- Members up to the end of an object, of which some may be read already. -/
inductive Members (first : Bool) : List (String × List Char) → List Char → Prop
  | none {w : List Char} (hw : Space w) : Members first [] w
  | some {ms : List (String × List Char)} {lead t : List Char} (hlead : Lead first lead)
      (ht : Separated Member ms t) : Members first ms (lead ++ t)

theorem memberStart_stop {first : Bool} {s : List Char} {rest : List Symbol}
    (h : memberStart first (ofChars s) = .ok (.stop rest)) :
    ∃ w r, s = w ++ '\x7d' :: r ∧ rest = ofChars ('\x7d' :: r) ∧ Space w := by
  obtain ⟨w, s, rfl, hskip, hw⟩ := skipSpace_sound s
  simp only [memberStart, hskip] at h
  cases s with
  | nil => cases h
  | cons c s =>
    simp only [ofChars_cons, is_char, beq_iff_eq] at h
    split at h
    · rename_i hc
      cases h
      exact ⟨w, s, by rw [hc], by rw [hc, ofChars_cons], hw⟩
    · split at h
      · split at h <;> cases h
      · split at h
        · split at h
          · cases h
          · split at h
            · cases h
            · split at h <;> cases h
        · cases h

theorem memberStart_key {first : Bool} {s : List Char} {rest : List Symbol}
    (h : memberStart first (ofChars s) = .ok (.key rest)) :
    ∃ lead w r, s = lead ++ (w ++ '"' :: r) ∧ rest = ofChars r ∧ Lead first lead ∧ Space w := by
  obtain ⟨w, s, rfl, hskip, hw⟩ := skipSpace_sound s
  simp only [memberStart, hskip] at h
  cases s with
  | nil => cases h
  | cons c s =>
    simp only [ofChars_cons, is_char, beq_iff_eq] at h
    split at h
    · cases h
    · split at h
      · rename_i hfirst
        split at h
        · rename_i hc
          cases h
          exact ⟨[], w, s, by rw [hc]; rfl, rfl, hfirst ▸ .first, hw⟩
        · cases h
      · rename_i hfirst
        split at h
        · rename_i hc
          obtain ⟨x, s, rfl, hskip', hx⟩ := skipSpace_sound s
          rw [hskip'] at h
          cases s with
          | nil => cases h
          | cons d s =>
            simp only [ofChars_cons, is_char, beq_iff_eq] at h
            split at h
            · rename_i hd
              cases h
              have hfalse : first = false := by simpa using hfirst
              exact ⟨w ++ [','], x, s, by simp [hc, hd], rfl, hfalse ▸ .comma hw, hx⟩
            · split at h <;> cases h
        · cases h

theorem memberStart_key_complete {first : Bool} {lead w r : List Char} (hlead : Lead first lead)
    (hw : Space w) :
    memberStart first (ofChars (lead ++ (w ++ '"' :: r))) = .ok (.key (ofChars r)) := by
  have hquote : skipSpace (ofChars (w ++ '"' :: r)) = .char '"' :: ofChars r :=
    skipSpace_complete hw (noSpace_cons rfl)
  cases hlead with
  | first => simp [memberStart, hquote, -ofChars_append]
  | comma hz =>
    rw [List.append_assoc]
    have hcomma := skipSpace_complete (r := ',' :: (w ++ '"' :: r)) hz (noSpace_cons rfl)
    rw [ofChars_cons] at hcomma
    simp [memberStart, hcomma, hquote, -ofChars_append]

theorem memberStart_stop_complete {first : Bool} {w r : List Char} (hw : Space w) :
    memberStart first (ofChars (w ++ '\x7d' :: r)) = .ok (.stop (ofChars ('\x7d' :: r))) := by
  simp [memberStart, skipSpace_complete hw (noSpace_cons (c := '\x7d') rfl), -ofChars_append]

theorem readMembers_sound {fs : List Field} {steps : Nat} {first : Bool} {slots slots' : Slots fs}
    {s : List Char} {rest : List Symbol} (hnames : (fs.map (·.name)).Nodup)
    (h : readMembers fs steps first slots (ofChars s) = .ok (slots', rest)) :
    ∃ ms t r, s = t ++ '\x7d' :: r ∧ rest = ofChars ('\x7d' :: r) ∧ Members first ms t ∧
      ∀ {before}, Holds fs before slots → Holds fs (before ++ ms) slots' := by
  induction steps generalizing first slots s with
  | zero => cases h
  | succ steps ih =>
    unfold readMembers at h
    split at h
    · cases h
    · rename_i hstart
      cases h
      obtain ⟨w, r, rfl, rfl, hw⟩ := memberStart_stop hstart
      exact ⟨[], w, r, rfl, rfl, .none hw, fun hms => by rwa [List.append_nil]⟩
    · rename_i hstart
      obtain ⟨lead, w, s, rfl, rfl, hlead, hw⟩ := memberStart_key hstart
      split at h
      · cases h
      · rename_i key _ hkey
        obtain ⟨k, s', hs, rfl, hk⟩ := readText_sound hkey
        split at h
        · cases h
        · rename_i hmember
          obtain ⟨x, y, v, s'', rfl, rfl, hx, hy, hv, hholds⟩ := readMember_sound hnames hmember
          obtain ⟨ms, t, r, rfl, hrest, ht, hholds'⟩ := ih h
          refine ⟨(key, v) :: ms, lead ++ (w ++ (k ++ (x ++ ':' :: (y ++ (v ++ t))))), r, ?_, hrest,
            .some hlead ?_, fun {before} hms => ?_⟩
          · rw [hs]
            simp
          · cases ht with
            | none hz => exact .last (.entry hw hk hx hy hv hz)
            | some hlead' ht =>
              cases hlead' with
              | comma hz =>
                have hmore := Separated.more (Member.entry hw hk hx hy hv hz) ht
                simpa using hmore
          · have hlast := hholds' (hholds hms)
            rwa [List.append_assoc] at hlast

/-- One member is read; the space behind its value is left. -/
theorem readMembers_member {fs : List Field} (hnames : (fs.map (·.name)).Nodup)
    {m : String × List Char} {t : List Char} (hm : Member m t) :
    ∃ core z, t = core ++ z ∧ Space z ∧
      ∀ (steps) {first lead before more r} {slots : Slots fs}, Lead first lead → EndsNumber r →
        Fits fs (before ++ m :: more) → Holds fs before slots →
        ∃ slots', Holds fs (before ++ [m]) slots' ∧
          readMembers fs (steps + 1) first slots (ofChars (lead ++ (core ++ r))) =
            readMembers fs steps false slots' (ofChars r) := by
  obtain ⟨hw, hk, hx, hy, hv, hz⟩ := hm
  rename_i w k x y v z key
  refine ⟨w ++ (k ++ (x ++ ':' :: (y ++ v))), z, by simp, hz, ?_⟩
  intro steps first lead before more r slots hlead hr hfits hholds
  obtain ⟨slots', hread, hholds'⟩ := readMember_complete hnames hx hy hv hr hfits hholds
  obtain ⟨u, rfl, htext⟩ := readText_complete hk (ofChars (x ++ ':' :: (y ++ (v ++ r))))
  have hstart := memberStart_key_complete (r := u ++ (x ++ ':' :: (y ++ (v ++ r)))) hlead hw
  rw [ofChars_append u] at hstart
  refine ⟨slots', hholds', ?_⟩
  have hs : lead ++ (w ++ ('"' :: u ++ (x ++ ':' :: (y ++ v))) ++ r) =
      lead ++ (w ++ '"' :: (u ++ (x ++ ':' :: (y ++ (v ++ r))))) := by simp
  rw [hs, readMembers, hstart]
  dsimp only
  rw [htext]
  dsimp only
  rw [hread]

theorem readMembers_complete {fs : List Field} (hnames : (fs.map (·.name)).Nodup)
    {ms : List (String × List Char)} {t : List Char} (ht : Separated Member ms t) (r : List Char) :
    ∀ (before) {steps first lead} {slots : Slots fs}, ms.length < steps → Lead first lead →
      Fits fs (before ++ ms) → Holds fs before slots →
      ∃ slots', readMembers fs steps first slots (ofChars (lead ++ (t ++ '\x7d' :: r))) =
        .ok (slots', ofChars ('\x7d' :: r)) ∧ Holds fs (before ++ ms) slots' := by
  induction ht with
  | @last m t hm =>
    intro before steps first lead slots hsteps hlead hfits hholds
    obtain ⟨core, z, rfl, hz, hread⟩ := readMembers_member hnames hm
    obtain ⟨steps, rfl⟩ : ∃ n, steps = n + 1 + 1 := ⟨steps - 2, by simp at hsteps; omega⟩
    obtain ⟨slots', hholds', hstep⟩ :=
      hread (steps + 1) hlead (endsNumber_append (r := r) hz (.inr ⟨.object, rfl⟩)) hfits hholds
    refine ⟨slots', ?_, hholds'⟩
    rw [List.append_assoc]
    refine hstep.trans ?_
    rw [readMembers]
    simp only [Bracket.closing, memberStart_stop_complete hz]
  | @more m ms t u hm _ ih =>
    intro before steps first lead slots hsteps hlead hfits hholds
    obtain ⟨core, z, rfl, hz, hread⟩ := readMembers_member hnames hm
    obtain ⟨steps, rfl⟩ : ∃ n, steps = n + 1 := ⟨steps - 1, by simp at hsteps; omega⟩
    obtain ⟨slots', hholds', hstep⟩ :=
      hread steps hlead (endsNumber_append (r := u ++ '\x7d' :: r) hz (.inl rfl)) hfits hholds
    have hfits' : Fits fs (before ++ [m] ++ ms) := by simpa using hfits
    obtain ⟨slots'', hrest, hholds''⟩ :=
      ih (before ++ [m]) (Nat.lt_of_succ_lt_succ hsteps) (.comma hz) hfits' hholds'
    refine ⟨slots'', ?_, by simpa using hholds''⟩
    rw [List.append_assoc z, List.singleton_append] at hrest
    rw [← hrest, ← hstep]
    simp

theorem Fills.fits {fs : List Field} {ms : List (String × List Char)} {row : Row fs}
    (h : Fills fs ms row) : Fits fs ms := by
  induction fs with
  | nil => simp [Fits]
  | cons f fs ih =>
    obtain ⟨v, row⟩ := row
    refine List.forall_mem_cons.mpr ⟨?_, ih h.2⟩
    rcases h.1 with ⟨t, ht, hwrites⟩ | ⟨hnil, -⟩
    · exact .inr ⟨t, v, ht, hwrites⟩
    · exact .inl hnil

theorem endObject_stop (r : List Char) :
    endObject (ofChars ('\x7d' :: r)) = (.ok (), ofChars r) := by
  simp [endObject, skipSpace, isSpaceSymbol, isSpace]

theorem readObject_sound {fs : List Field} {s : List Char} {row : Row fs} {rest : List Symbol}
    (hnames : (fs.map (·.name)).Nodup) (h : readObject fs (ofChars s) = .ok (row, rest)) :
    ∃ ms t r, '\x7b' :: s = t ++ r ∧ rest = ofChars r ∧ Object ms t ∧ Fills fs ms row := by
  unfold readObject at h
  split at h
  · cases h
  · rename_i slots stop hmembers
    obtain ⟨ms, t, r, rfl, rfl, ht, hholds⟩ := readMembers_sound hnames hmembers
    cases hrow : slots.row? with
    | error name =>
      rw [hrow] at h
      cases h
    | ok row' =>
      rw [hrow] at h
      dsimp only at h
      rw [endObject_stop] at h
      cases h
      refine ⟨ms, '\x7b' :: (t ++ ['\x7d']), r, by simp, rfl, ?_,
        fills_of_row? (hholds (holds_empty fs)) hrow⟩
      cases ht with
      | none hw => exact .empty hw
      | some hlead ht =>
        cases hlead
        exact .members ht

theorem Grammar.Separated.length_le {ms : List (String × List Char)} {t : List Char}
    (h : Separated Member ms t) : ms.length ≤ t.length := by
  induction h with
  | last h =>
    obtain ⟨_, _, _, _, _, _⟩ := h
    simp
    omega
  | more h _ ih =>
    simp
    omega

theorem readObject_complete {fs : List Field} {ms : List (String × List Char)} {t : List Char}
    {row : Row fs} (hnames : (fs.map (·.name)).Nodup) (ht : Object ms t) (hrow : Fills fs ms row)
    (r : List Char) :
    ∃ u, t = '\x7b' :: u ∧ readObject fs (ofChars (u ++ r)) = .ok (row, ofChars r) := by
  have hread : ∀ {u}, (∃ slots, readMembers fs ((ofChars (u ++ '\x7d' :: r)).length + 1) true
      (Slots.empty fs) (ofChars (u ++ '\x7d' :: r)) = .ok (slots, ofChars ('\x7d' :: r)) ∧
      Holds fs ms slots) → readObject fs (ofChars (u ++ '\x7d' :: r)) = .ok (row, ofChars r) := by
    rintro u ⟨slots, hmembers, hholds⟩
    unfold readObject
    rw [hmembers]
    dsimp only
    rw [row?_of_fills hholds hrow]
    dsimp only
    rw [endObject_stop]
  cases ht with
  | empty hw =>
    refine ⟨_, rfl, ?_⟩
    rw [List.append_assoc]
    refine hread ⟨Slots.empty fs, ?_, holds_empty fs⟩
    simp only [readMembers, memberStart_stop_complete hw]
  | members ht =>
    refine ⟨_, rfl, ?_⟩
    rw [List.append_assoc]
    have hlen := ht.length_le
    exact hread (readMembers_complete hnames ht r [] (by simp; omega) .first hrow.fits
      (holds_empty fs))

/-! ### Lists are read -/

/-- Elements of a list behind the space and the comma that may stand before them. -/
inductive Elements (first : Bool) : List (List Char) → List Char → Prop
  | none : Elements first [] []
  | some {vs : List (List Char)} {lead t : List Char} (hlead : Lead first lead)
      (ht : ∀ z, Space z → Separated Element vs (t ++ z)) : Elements first vs (lead ++ t)

theorem elementStart_some {first : Bool} {s : List Char} {rest : List Symbol}
    (h : elementStart first (ofChars s) = .ok (some rest)) :
    ∃ lead w r, s = lead ++ (w ++ r) ∧ rest = ofChars r ∧ Lead first lead ∧ Space w := by
  obtain ⟨w, s, rfl, hskip, hw⟩ := skipSpace_sound s
  simp only [elementStart, hskip] at h
  cases s with
  | nil => cases h
  | cons c s =>
    simp only [ofChars_cons, is_char, beq_iff_eq] at h
    split at h
    · cases h
    · split at h
      · rename_i hfirst
        cases h
        exact ⟨[], w, c :: s, rfl, rfl, hfirst ▸ .first, hw⟩
      · rename_i hfirst
        have hfalse : first = false := by simpa using hfirst
        split at h
        · rename_i hc
          obtain ⟨x, s, rfl, hskip', hx⟩ := skipSpace_sound s
          rw [hskip'] at h
          cases s with
          | nil => cases h
          | cons d s =>
            simp only [ofChars_cons, is_char, beq_iff_eq] at h
            split at h
            · cases h
            · cases h
              exact ⟨w ++ [','], x, d :: s, by simp [hc], rfl, hfalse ▸ .comma hw, hx⟩
        · cases h

theorem elementStart_complete {first : Bool} {lead w t : List Char} (hlead : Lead first lead)
    (hw : Space w) (ht : ∃ c u, t = c :: u ∧ Begins c) (r : List Char) :
    elementStart first (ofChars (lead ++ (w ++ (t ++ r)))) = .ok (some (ofChars (t ++ r))) := by
  have hspace := skipSpace_begins hw ht r
  obtain ⟨c, u, rfl, hc⟩ := ht
  have hclosing : c ≠ ']' := hc.ne_closing .list
  rw [List.cons_append, ofChars_cons] at hspace ⊢
  cases hlead with
  | first => simp [elementStart, hspace, hclosing, -ofChars_append]
  | comma hz =>
    have hcomma := skipSpace_complete (r := ',' :: (w ++ c :: (u ++ r))) hz (noSpace_cons rfl)
    rw [ofChars_cons] at hcomma
    rw [List.append_assoc]
    simp [elementStart, hcomma, hspace, hclosing, -ofChars_append]

theorem readElements_sound {c : Schema} {index : Nat} {fs : List Field} {s : List Char}
    {row : Row fs} {rest : List Symbol}
    (h : readElements c index fs (ofChars s) = .ok (row, rest)) :
    ∃ vs t r, s = t ++ r ∧ rest = ofChars r ∧ Elements (index = 0) vs t ∧ Lists fs vs row := by
  induction fs generalizing index s with
  | nil =>
    cases h
    exact ⟨[], [], s, rfl, rfl, .none, trivial⟩
  | cons f fs ih =>
    simp only [readElements] at h
    split at h
    · cases h
    · cases h
    · rename_i hstart
      obtain ⟨lead, w, s, rfl, rfl, hlead, hw⟩ := elementStart_some hstart
      split at h
      · cases h
      · rename_i v _ hread
        obtain ⟨x, t, s, rfl, rfl, hx, ht⟩ := readKind_sound f.kind hread
        split at h
        · cases h
        · rename_i hrest
          cases h
          obtain ⟨vs, u, r, rfl, hr, hu, hlists⟩ := ih hrest
          refine ⟨t :: vs, lead ++ ((w ++ x) ++ (t ++ u)), r, by simp, hr,
            .some hlead fun z hz => ?_, ht, hlists⟩
          cases hu with
          | none =>
            have hlast := Separated.last (Element.entry (hw.append hx) ht.value hz)
            simpa using hlast
          | some hlead' hu =>
            cases hlead' with
            | comma hz' =>
              have hmore := Separated.more (Element.entry (hw.append hx) ht.value hz') (hu z hz)
              simpa using hmore

theorem endList_sound {s : List Char} {rest : List Symbol}
    (h : endList (ofChars s) = (.ok (), rest)) :
    ∃ z r, s = z ++ ']' :: r ∧ rest = ofChars r ∧ Space z := by
  obtain ⟨z, s, rfl, hskip, hz⟩ := skipSpace_sound s
  simp only [endList, hskip] at h
  cases s with
  | nil => cases h
  | cons c s =>
    simp only [ofChars_cons, is_char, beq_iff_eq] at h
    split at h
    · rename_i hc
      cases h
      exact ⟨z, s, by rw [hc], rfl, hz⟩
    · split at h
      · split at h <;> cases h
      · cases h

theorem endList_complete {z : List Char} (hz : Space z) (r : List Char) :
    endList (ofChars (z ++ ']' :: r)) = (.ok (), ofChars r) := by
  simp [endList, skipSpace_complete hz (noSpace_cons (c := ']') rfl), -ofChars_append]

/-- One element is read; the space behind it is left. -/
theorem readElements_element (c : Schema) {v t : List Char} (h : Element v t) :
    ∃ core z, t = core ++ z ∧ Space z ∧
      ∀ {index lead f fs x s rest} {row : Row fs}, Lead (index = 0) lead → Writes f.kind v x →
        EndsNumber s → readElements c (index + 1) fs (ofChars s) = .ok (row, rest) →
        readElements c index (f :: fs) (ofChars (lead ++ (core ++ s))) = .ok ((x, row), rest) := by
  obtain ⟨hw, hv, hz⟩ := h
  rename_i w z
  refine ⟨w ++ v, z, by simp, hz, ?_⟩
  intro index lead f fs x s rest row hlead hx hs hrest
  have hstart := elementStart_complete hlead hw (hv.begins fun _ => by simp) s
  have hread := readKind_complete f.kind (w := []) (by simp [Space]) hx hs
  rw [List.nil_append] at hread
  rw [List.append_assoc]
  simp only [readElements, hstart, hread, hrest]

theorem readElements_complete (c : Schema) {vs : List (List Char)} {t : List Char}
    (ht : Separated Element vs t) (r : List Char) :
    ∀ {index lead fs} {row : Row fs}, Lead (index = 0) lead → Lists fs vs row →
      ∃ z, Space z ∧ readElements c index fs (ofChars (lead ++ (t ++ ']' :: r))) =
        .ok (row, ofChars (z ++ ']' :: r)) := by
  induction ht with
  | @last v t hv =>
    intro index lead fs row hlead hrow
    obtain ⟨core, z, rfl, hz, hread⟩ := readElements_element c hv
    match fs, row with
    | [], () => cases hrow
    | [f], (x, ()) =>
      refine ⟨z, hz, ?_⟩
      rw [List.append_assoc]
      exact hread hlead hrow.1 (endsNumber_append hz (.inr ⟨.list, rfl⟩)) rfl
    | f :: f' :: fs, (x, row) => cases hrow.2
  | @more v vs t u hv _ ih =>
    intro index lead fs row hlead hrow
    obtain ⟨core, z, rfl, hz, hread⟩ := readElements_element c hv
    match fs, row with
    | [], () => cases hrow
    | f :: fs, (x, row) =>
      obtain ⟨hx, hrow⟩ := hrow
      obtain ⟨z', hz', hrest⟩ := @ih (index + 1) (z ++ [',']) fs row (.comma hz) hrow
      refine ⟨z', hz', ?_⟩
      rw [List.append_assoc z, List.singleton_append] at hrest
      rw [List.append_assoc, List.append_assoc]
      exact hread hlead hx (endsNumber_append hz (.inl rfl)) hrest

theorem readList_sound {c : Schema} {s : List Char} {row : Row c.fields} {rest : List Symbol}
    (h : readList c (ofChars s) = .ok (row, rest)) :
    ∃ vs t r, '[' :: s = t ++ r ∧ rest = ofChars r ∧ Sequence vs t ∧ Lists c.fields vs row := by
  unfold readList at h
  split at h
  · cases h
  · rename_i hread
    obtain ⟨vs, t, s, rfl, rfl, ht, hrow⟩ := readElements_sound hread
    split at h
    · rename_i hend
      cases h
      obtain ⟨z, r, rfl, hrest, hz⟩ := endList_sound hend
      refine ⟨vs, '[' :: ((t ++ z) ++ [']']), r, by simp, hrest, ?_, hrow⟩
      cases ht with
      | none => exact .empty hz
      | some hlead ht =>
        cases hlead
        exact .elements (ht z hz)
    · cases h

theorem readElements_none (c : Schema) {index : Nat} {fs : List Field} {row : Row fs}
    (h : Lists fs [] row) (s : List Symbol) : readElements c index fs s = .ok (row, s) := by
  match fs, row with
  | [], () => rfl
  | _ :: _, _ => cases h

theorem readList_complete {c : Schema} {vs : List (List Char)} {t : List Char}
    {row : Row c.fields} (ht : Sequence vs t) (hrow : Lists c.fields vs row) (r : List Char) :
    ∃ u, t = '[' :: u ∧ readList c (ofChars (u ++ r)) = .ok (row, ofChars r) := by
  cases ht with
  | empty hw =>
    refine ⟨_, rfl, ?_⟩
    rw [List.append_assoc, List.singleton_append]
    unfold readList
    rw [readElements_none c hrow]
    dsimp only
    rw [endList_complete hw]
  | elements ht =>
    refine ⟨_, rfl, ?_⟩
    obtain ⟨z, hz, hread⟩ := @readElements_complete c _ _ ht r 0 [] c.fields row .first hrow
    rw [List.append_assoc, List.singleton_append]
    unfold readList
    rw [List.nil_append] at hread
    rw [hread]
    dsimp only
    rw [endList_complete hz]

/-! ### Whole texts -/

theorem readRecord_sound {c : Schema} (hnames : (c.fields.map (·.name)).Nodup) {s : List Char}
    {row : Row c.fields} {rest : List Symbol} (h : readRecord c (ofChars s) = .ok (row, rest)) :
    ∃ w t r, s = w ++ (t ++ r) ∧ rest = ofChars r ∧ Space w ∧
      ((∃ ms, Object ms t ∧ Fills c.fields ms row) ∨
        ∃ vs, Sequence vs t ∧ Lists c.fields vs row) := by
  obtain ⟨w, s, rfl, hskip, hw⟩ := skipSpace_sound s
  unfold readRecord at h
  rw [hskip] at h
  cases s with
  | nil => cases h
  | cons d s =>
    simp only [ofChars_cons, is_char, beq_iff_eq] at h
    split at h
    · rename_i hd
      obtain ⟨ms, t, r, hs, hrest, ht, hrow⟩ := readObject_sound hnames h
      exact ⟨w, t, r, by rw [hd, hs], hrest, hw, .inl ⟨ms, ht, hrow⟩⟩
    · split at h
      · rename_i hd
        obtain ⟨vs, t, r, hs, hrest, ht, hrow⟩ := readList_sound h
        exact ⟨w, t, r, by rw [hd, hs], hrest, hw, .inr ⟨vs, ht, hrow⟩⟩
      · cases h

theorem readRecord_complete {c : Schema} (hnames : (c.fields.map (·.name)).Nodup)
    {w t : List Char} {row : Row c.fields} (hw : Space w)
    (ht : (∃ ms, Object ms t ∧ Fills c.fields ms row) ∨
      ∃ vs, Sequence vs t ∧ Lists c.fields vs row) (r : List Char) :
    readRecord c (ofChars (w ++ (t ++ r))) = .ok (row, ofChars r) := by
  unfold readRecord
  rcases ht with ⟨ms, ht, hrow⟩ | ⟨vs, ht, hrow⟩
  · obtain ⟨u, rfl, hread⟩ := readObject_complete hnames ht hrow r
    rw [List.cons_append, skipSpace_complete hw (noSpace_cons rfl), ofChars_cons]
    exact hread
  · obtain ⟨u, rfl, hread⟩ := readList_complete ht hrow r
    rw [List.cons_append, skipSpace_complete hw (noSpace_cons rfl), ofChars_cons]
    exact hread

/-- **A record is read from the texts that write it, and from no others**: an object whose members
fill the fields, or a list of the fields' values, with space around it. -/
theorem Schema.decode_ok_iff (c : Schema) (hnames : (c.fields.map (·.name)).Nodup) (s : List Char)
    (row : Row c.fields) :
    c.decode (ofChars s) = .ok row ↔ ∃ w t z, s = w ++ (t ++ z) ∧ Space w ∧ Space z ∧
      ((∃ ms, Object ms t ∧ Fills c.fields ms row) ∨
        ∃ vs, Sequence vs t ∧ Lists c.fields vs row) := by
  unfold Schema.decode readWhole
  constructor
  · intro h
    split at h
    · cases h
    · rename_i hread
      obtain ⟨w, t, r, rfl, rfl, hw, ht⟩ := readRecord_sound hnames hread
      obtain ⟨z, r, rfl, hskip, hz⟩ := skipSpace_sound r
      rw [hskip] at h
      cases r with
      | nil =>
        cases h
        exact ⟨w, t, z, by simp, hw, hz, ht⟩
      | cons d r => cases h
  · rintro ⟨w, t, z, rfl, hw, hz, ht⟩
    have hend : skipSpace (ofChars z) = [] := by
      have hskip := skipSpace_append hz []
      rwa [List.append_nil] at hskip
    rw [readRecord_complete hnames hw ht z]
    simp only [hend, List.isEmpty_nil, if_true]

end ChatRooms.Json

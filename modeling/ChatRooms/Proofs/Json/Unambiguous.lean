import ChatRooms.Proofs.Json.Skipping

/-!
A text is read in one way only: where phrases of a kind stand at the beginning of the same text,
they are the same phrase. The readers show it, since they take what the grammar has and leave the
rest.
-/

namespace ChatRooms.Json.Grammar

open ChatRooms.Text ChatRooms.Text.Symbol

theorem ofChars_inj {s t : List Char} (h : ofChars s = ofChars t) : s = t :=
  (List.map_inj_right fun _ _ hc => Symbol.char.inj hc).mp h

theorem Space.prefix_unique {w w' r r' : List Char} (hw : Space w) (hw' : Space w')
    (hr : NoSpace r) (hr' : NoSpace r') (h : w ++ r = w' ++ r') : r = r' := by
  have hskip := skipSpace_complete hw hr
  rw [h, skipSpace_complete hw' hr'] at hskip
  exact (ofChars_inj hskip).symm

theorem Text.prefix_unique {t t' r r' : List Char} {v v' : String} (ht : Text t v)
    (ht' : Text t' v') (h : t ++ r = t' ++ r') : v = v' ∧ r = r' := by
  obtain ⟨u, rfl, hread⟩ := readText_complete ht (ofChars r)
  obtain ⟨u', rfl, hread'⟩ := readText_complete ht' (ofChars r')
  rw [List.cons_append, List.cons_append, List.cons.injEq] at h
  rw [← ofChars_append, h.2, ofChars_append, hread'] at hread
  obtain ⟨hv, hr⟩ := Prod.mk.inj (Except.ok.inj hread)
  exact ⟨hv.symm, (ofChars_inj hr).symm⟩

theorem Derives.prefix_unique {v v' r r' : List Char} (hv : Value v) (hv' : Value v')
    (hr : EndsNumber r) (hr' : EndsNumber r') (h : v ++ r = v' ++ r') : v = v' ∧ r = r' := by
  have hspace : Space [] := by simp [Space]
  have hskip := skipValue_complete hspace hv hr
  rw [h, skipValue_complete hspace hv' hr'] at hskip
  obtain ⟨-, hrest⟩ := Prod.mk.inj (Except.ok.inj hskip)
  obtain rfl := ofChars_inj hrest
  exact ⟨List.append_cancel_right h, rfl⟩

/-- A character that may follow a member. -/
def EndsMember (c : Char) : Prop := c = ',' ∨ c = Bracket.object.closing

theorem EndsMember.endsNumber {c : Char} (hc : EndsMember c) {z : List Char} (hz : Space z)
    (r : List Char) : EndsNumber (z ++ c :: r) :=
  endsNumber_append hz (hc.imp id fun h => ⟨.object, h⟩)

theorem EndsMember.noSpace {c : Char} (hc : EndsMember c) (r : List Char) : NoSpace (c :: r) := by
  refine noSpace_cons ?_
  rcases hc with rfl | rfl <;> rfl

theorem Text.noSpace {t : List Char} {v : String} (h : Text t v) (r : List Char) :
    NoSpace (t ++ r) := by
  obtain ⟨h⟩ := h
  exact noSpace_cons rfl

theorem Member.prefix_unique {m m' : String × List Char} {t t' r r' : List Char} {c c' : Char}
    (hm : Member m t) (hm' : Member m' t') (hc : EndsMember c) (hc' : EndsMember c')
    (h : t ++ c :: r = t' ++ c' :: r') : m = m' ∧ c = c' ∧ r = r' := by
  obtain ⟨hw, hk, hx, hy, hv, hz⟩ := hm
  obtain ⟨hw', hk', hx', hy', hv', hz'⟩ := hm'
  simp only [List.append_assoc, List.cons_append] at h
  have hkey := hw.prefix_unique hw' (hk.noSpace _) (hk'.noSpace _) h
  obtain ⟨rfl, hcolon⟩ := hk.prefix_unique hk' hkey
  have hafter := hx.prefix_unique hx' (noSpace_cons rfl) (noSpace_cons rfl) hcolon
  have hnoSpace : ∀ {v : List Char} (s : List Char), Value v → NoSpace (v ++ s) := by
    intro v s hv
    obtain ⟨d, u, rfl, hd⟩ := hv.begins fun _ => by simp
    exact noSpace_cons hd.noSpace
  have hvalue := hy.prefix_unique hy' (hnoSpace _ hv) (hnoSpace _ hv') (List.cons.inj hafter).2
  obtain ⟨rfl, hend⟩ := hv.prefix_unique hv' (hc.endsNumber hz _) (hc'.endsNumber hz' _) hvalue
  have hlast := hz.prefix_unique hz' (hc.noSpace _) (hc'.noSpace _) hend
  obtain ⟨hcc, hrr⟩ := List.cons.inj hlast
  exact ⟨rfl, hcc, hrr⟩

theorem Separated.prefix_unique {ms ms' : List (String × List Char)} {t t' r r' : List Char}
    (h : Separated Member ms t) (h' : Separated Member ms' t')
    (heq : t ++ '\x7d' :: r = t' ++ '\x7d' :: r') : ms = ms' := by
  have hcomma : EndsMember ',' := .inl rfl
  have hclose : EndsMember '\x7d' := .inr rfl
  induction h generalizing ms' t' with
  | last hm =>
    cases h' with
    | last hm' =>
      obtain ⟨rfl, -, -⟩ := hm.prefix_unique hm' hclose hclose heq
      rfl
    | more hm' _ =>
      rw [List.append_assoc, List.cons_append] at heq
      obtain ⟨-, hne, -⟩ := hm.prefix_unique hm' hclose hcomma heq
      cases hne
  | more hm _ ih =>
    cases h' with
    | last hm' =>
      rw [List.append_assoc, List.cons_append] at heq
      obtain ⟨-, hne, -⟩ := hm.prefix_unique hm' hcomma hclose heq
      cases hne
    | more hm' hms' =>
      rw [List.append_assoc, List.append_assoc, List.cons_append, List.cons_append] at heq
      obtain ⟨rfl, -, hrest⟩ := hm.prefix_unique hm' hcomma hcomma heq
      rw [ih hms' hrest]

/-- A member does not begin with the end of an object. -/
theorem Separated.ne_empty {ms : List (String × List Char)} {t w r r' : List Char}
    (h : Separated Member ms t) (hw : Space w) : w ++ '\x7d' :: r ≠ t ++ r' := by
  have hmember : ∀ {m s} (s' : List Char), Member m s → w ++ '\x7d' :: r ≠ s ++ s' := by
    intro m s s' hm heq
    obtain ⟨hw', hk, -⟩ := hm
    rw [List.append_assoc, List.append_assoc] at heq
    have hquote := hw.prefix_unique hw' (noSpace_cons rfl) (hk.noSpace _) heq
    obtain ⟨hk⟩ := hk
    cases hquote
  cases h with
  | last hm => exact hmember r' hm
  | more hm _ =>
    rw [List.append_assoc]
    exact hmember _ hm

/-- **The members of an object are no others**, whatever follows it. -/
theorem Object.prefix_unique {ms ms' : List (String × List Char)} {t t' r r' : List Char}
    (h : Object ms t) (h' : Object ms' t') (heq : t ++ r = t' ++ r') : ms = ms' := by
  cases h with
  | empty hw =>
    cases h' with
    | empty => rfl
    | members h' =>
      simp only [List.cons_append, List.append_assoc, List.cons.injEq, true_and] at heq
      exact absurd heq (h'.ne_empty hw)
  | members h =>
    cases h' with
    | empty hw =>
      simp only [List.cons_append, List.append_assoc, List.cons.injEq, true_and] at heq
      exact absurd heq.symm (h.ne_empty hw)
    | members h' =>
      simp only [List.cons_append, List.append_assoc, List.cons.injEq, true_and] at heq
      exact h.prefix_unique h' heq

end ChatRooms.Json.Grammar

import ChatRooms.Proofs.Hub.Reachable
import ChatRooms.Proofs.Hub.Removal
import ChatRooms.Proofs.Hub.Stream

/-!
The handle of a connection, with which envelopes are put into its queue. Once the connection has
joined, the handle goes only after the connection is closed, whatever is done at the hub and in
whichever halves (`IsHandled.step`, `IsHandled.half`). So a queue that has ended is that of a
connection whose code is set for good, and into which nothing is put any more.
-/

namespace ChatRooms.Hub

/-- The handle is there, or the connection is closed. -/
def IsHandled (h : Hub) (id : Uuid) : Prop :=
  ∃ c, h.connection? id = some c ∧ (c.hasSender = true ∨ c.state = .closed)

/-- The connection has been closed with the code, and its handle is gone. -/
def IsRemoved (h : Hub) (id : Uuid) (code : UInt16) : Prop :=
  ∃ c, h.connection? id = some c ∧ c.hasSender = false ∧ c.state = .closed ∧ c.closeCode = code

theorem IsRemoved.isClosed {h : Hub} {id : Uuid} {code : UInt16} (hr : h.IsRemoved id code) :
    h.IsClosed id := by
  obtain ⟨c, hid, -, hclosed, -⟩ := hr
  exact ⟨c, hid, hclosed⟩

/-- Whoever drops a handle has closed the connection before. -/
def Half.isOrderly (h : Hub) : Half → Bool
  | .dropHandle id => h.hasClosed id
  | _ => true

theorem isHandled_of_closed {h' : Hub} {id : Uuid} {c c' : Connection} (hclosed : c.state = .closed)
    (hid' : h'.connection? id = some c') (hages : c.Ages c') : h'.IsHandled id := by
  have hlife : c'.life = c.life := hages.life hclosed
  refine ⟨c', hid', .inr ?_⟩
  rw [Connection.state, hlife]
  exact hclosed

section Handle

variable {h h' : Hub} {id : Uuid} {c : Connection} (hid : h.connection? id = some c)

include hid

theorem isHandled_of_same (hc : c.hasSender = true) (e : h'.connection? id = h.connection? id) :
    h'.IsHandled id :=
  ⟨c, e.trans hid, .inl hc⟩

theorem isHandled_of_map {f : Connection → Connection}
    (e : h'.connection? id = (h.connection? id).map f)
    (hf : (f c).hasSender = true ∨ (f c).state = .closed) : h'.IsHandled id :=
  ⟨f c, by rw [e, hid, Option.map_some], hf⟩

/-- What is done to one connection leaves the handle there, if it does for the connection itself. -/
theorem isHandled_update (hc : c.hasSender = true) (id' : Uuid) {f : Connection → Connection}
    (hf : id' = id → (f c).hasSender = true) : (h.update id' f).IsHandled id := by
  by_cases e : id' = id
  · exact isHandled_of_map hid ((connection?_update h id' id f).trans (if_pos e)) (.inl (hf e))
  · exact isHandled_of_same hid hc ((connection?_update h id' id f).trans (if_neg e))

theorem isHandled_close (hc : c.hasSender = true) (id' : Uuid) (code : UInt16) :
    (h.close id' code).2.IsHandled id := by
  by_cases e : id' = id
  · subst e
    by_cases hclosed : c.state = .closed
    · exact isHandled_of_same hid hc (by rw [close_of_closed hid hclosed])
    · refine isHandled_of_map hid (connection?_close hid hclosed code) (.inr ?_)
      split <;> simp
  · exact isHandled_of_same hid hc (connection?_close_of_ne h e code)

theorem isHandled_broadcast (hc : c.hasSender = true) (hw : h.WellFormed) (room : String)
    (e : Envelope) (exclude : Option Uuid) : (h.broadcast room e exclude).2.IsHandled id := by
  refine isHandled_of_map hid (connection?_broadcast (hw.nodup room) e exclude id) ?_
  split
  · by_cases hclosed : c.state = .closed
    · exact .inl (by simp [Connection.offered, hclosed, hc])
    · by_cases ha : c.accepts = true
      · exact .inl (by simp [Connection.offered, hclosed, ha, Connection.push, hc])
      · exact .inr (by simp [Connection.offered, hclosed, ha])
  · exact .inl hc

/-- What is closed stays closed, with its code, and a handle does not come back. -/
theorem isRemoved_of_ages {c' : Connection} {code : UInt16} (hr : h.IsRemoved id code)
    (hid' : h'.connection? id = some c') (hages : c.Ages c') : h'.IsRemoved id code := by
  obtain ⟨c₀, hid₀, hsender, hclosed, hcode⟩ := hr
  rw [hid] at hid₀
  cases hid₀
  have hlife : c'.life = c.life := hages.life hclosed
  have hgone : c'.hasSender = false := by
    by_contra hthere
    rw [Bool.not_eq_false] at hthere
    rw [hages.sender hthere] at hsender
    cases hsender
  refine ⟨c', hid', hgone, ?_, ?_⟩
  · rw [Connection.state, hlife]
    exact hclosed
  · rw [Connection.closeCode, hlife]
    exact hcode

end Handle

section Step

variable {h : Hub} {id : Uuid}

theorem IsHandled.half (hh : h.IsHandled id) {p : Half} (hp : p.isOrderly h = true) :
    (h.half p).IsHandled id := by
  obtain ⟨c, hid, hc⟩ := hh
  by_cases hclosed : c.state = .closed
  · obtain ⟨c', hid', hages, -⟩ := connection?_half p hid
    exact isHandled_of_closed hclosed hid' hages
  · have hsender : c.hasSender = true := hc.resolve_right hclosed
    cases p with
    | close id' code => exact isHandled_update hid hsender id' fun _ => hsender
    | dropHandle id' =>
      have hne : id' ≠ id := by
        rintro rfl
        simp [Half.isOrderly, hasClosed, hid, hclosed] at hp
      exact isHandled_update hid hsender id' fun e => absurd e hne
    | takeOut room id' => exact isHandled_of_same hid hsender rfl
    | prune room => exact isHandled_of_same hid hsender rfl
    | unlink room => exact isHandled_of_same hid hsender rfl

theorem IsRemoved.half {code : UInt16} (hr : h.IsRemoved id code) (p : Half) :
    (h.half p).IsRemoved id code := by
  obtain ⟨c, hid, hrest⟩ := hr
  obtain ⟨c', hid', hages, -⟩ := connection?_half p hid
  exact isRemoved_of_ages hid ⟨c, hid, hrest⟩ hid' hages

theorem queue_half (p : Half) : (h.half p).queue id = h.queue id := by
  cases p with
  | close id' code => exact queue_update id' id fun _ => rfl
  | dropHandle id' => exact queue_update id' id fun _ => rfl
  | takeOut room id' => rfl
  | prune room => rfl
  | unlink room => rfl

variable (hw : h.WellFormed) {op : Operation} (hop : op.isFresh h = true)

include hw hop

/-- Only a join uses the handle up before the connection is closed. -/
theorem IsHandled.step (hh : h.IsHandled id) (hj : ∀ room exists', op ≠ .join id room exists') :
    (h.step op).2.IsHandled id := by
  obtain ⟨c, hid, hc⟩ := hh
  by_cases hclosed : c.state = .closed
  · obtain ⟨c', hid', hages⟩ := ages_step hw hid hop
    exact isHandled_of_closed hclosed hid' hages
  · have hsender : c.hasSender = true := hc.resolve_right hclosed
    cases op with
    | openConnection id' identity room capacity =>
      refine isHandled_of_same hid hsender (Eq.trans ?_ hid.symm)
      exact connection?_openConnection_of_some (Option.isNone_iff_eq_none.mp hop) hid _ _ _
    | join id' room exists' =>
      have hne : id' ≠ id := fun e => hj room exists' (e ▸ rfl)
      exact isHandled_of_same hid hsender (step_join_of_ne h hne room exists').1
    | leave room id' =>
      by_cases e : id' ∈ h.members room ∧ id' = id
      · exact isHandled_of_map hid ((connection?_leave h room id' id).trans (if_pos e))
          (.inr (by simp))
      · exact isHandled_of_same hid hsender ((connection?_leave h room id' id).trans (if_neg e))
    | broadcast room e exclude => exact isHandled_broadcast hid hsender hw room e exclude
    | closeRoom room =>
      refine isHandled_of_map hid (connection?_closeRoom h room id) ?_
      split
      · exact .inr (by simp)
      · exact .inl hsender
    | handle id' raw now =>
      unfold Hub.step handle
      dsimp only
      split
      · exact ⟨c, hid, hc⟩
      · split
        · exact ⟨c, hid, hc⟩
        · split
          · exact isHandled_close hid hsender id' _
          · exact isHandled_broadcast hid hsender hw _ _ _
    | close id' code => exact isHandled_close hid hsender id' code
    | drop id' => exact isHandled_close hid hsender id' _
    | receive id' =>
      unfold Hub.step receive
      dsimp only
      split
      · exact ⟨c, hid, hc⟩
      · refine isHandled_update hid hsender id' fun _ => ?_
        unfold Connection.receive
        split <;> exact hsender
    | dropReceiver id' => exact isHandled_update hid hsender id' fun _ => hsender

theorem IsRemoved.step {code : UInt16} (hr : h.IsRemoved id code) :
    (h.step op).2.IsRemoved id code := by
  obtain ⟨c, hid, hrest⟩ := hr
  obtain ⟨c', hid', hages⟩ := ages_step hw hid hop
  exact isRemoved_of_ages hid ⟨c, hid, hrest⟩ hid' hages

end Step

end ChatRooms.Hub

import ChatRooms.Proofs.Hub.Entries

/-!
The hubs that can be met. Operations follow one another, but those that close connections do their
work in halves: a connection is closed and then taken out of its room, or the other way round, and
the entry of a room is unlinked before its members are closed. Another operation may come between
two halves. `Reachable` counts the hubs in between as well, and `Reachable.invariant` is what holds
of all of them. To close a connection counts as one step, although its state is exchanged before its
code is stored: that somebody reads the code between the two is left out.
-/

namespace ChatRooms.Hub

/-- A half of an operation that closes connections. Closing one of them counts as one step. -/
inductive Half where
  | close (id : Uuid) (code : UInt16)
  | dropHandle (id : Uuid)
  | takeOut (room : String) (id : Uuid)
  | prune (room : String)
  | unlink (room : String)
deriving DecidableEq

/-- Carries out a half of an operation. -/
def half (h : Hub) : Half → Hub
  | .close id code => h.update id (·.closed code)
  | .dropHandle id => h.update id .withoutSender
  | .takeOut room id => { h with rooms := h.rooms.modify room (·.without id) }
  | .prune room => h.prune room
  | .unlink room => { h with rooms := h.rooms.erase room }

/-- A hub that operations and halves of operations lead to. -/
inductive Reachable : Hub → Prop where
  | empty : Reachable empty
  | step {h : Hub} {op : Operation} : Reachable h → op.isFresh h = true → Reachable (h.step op).2
  | half {h : Hub} (p : Half) : Reachable h → Reachable (h.half p)

theorem Reachable.run {h : Hub} (hr : h.Reachable) {ops : List Operation}
    (hops : obeys Operation.isFresh h ops = true) : (h.run ops).Reachable := by
  induction ops generalizing h with
  | nil => exact hr
  | cons op ops ih =>
    rw [obeys, Bool.and_eq_true] at hops
    exact ih (hr.step hops.1) hops.2

/-! ### Halves of operations -/

section Half

variable {h : Hub} (p : Half)

theorem members_half (room : String) : ((h.half p).members room).Sublist (h.members room) := by
  cases p with
  | close id code => exact List.Sublist.refl _
  | dropHandle id => exact List.Sublist.refl _
  | takeOut room' id =>
    unfold half members
    dsimp only
    rw [Table.get?_modify]
    by_cases e : room' = room
    · rw [if_pos e]
      cases h.rooms.get? room with
      | none => exact List.Sublist.refl _
      | some entry => exact List.erase_sublist
    · rw [if_neg e]
  | prune room' =>
    unfold half
    dsimp only
    rw [members_prune]
  | unlink room' =>
    unfold half members
    dsimp only
    rw [Table.get?_erase]
    by_cases e : room' = room
    · rw [if_pos e]
      exact List.nil_sublist _
    · rw [if_neg e]

theorem isRetired_half (hr : ∀ room, h.isRetired room = false) (room : String) :
    (h.half p).isRetired room = false := by
  have hsame := hr room
  cases p with
  | close id code => exact hsame
  | dropHandle id => exact hsame
  | takeOut room' id =>
    unfold half isRetired at *
    dsimp only
    rw [Table.get?_modify]
    by_cases e : room' = room
    · rw [if_pos e]
      cases hg : h.rooms.get? room with
      | none => rfl
      | some entry => simpa [hg, RoomEntry.without] using hsame
    · rw [if_neg e]
      exact hsame
  | prune room' =>
    refine (isRetired_prune h room' room).trans ?_
    rw [hsame, ite_self]
  | unlink room' =>
    unfold half isRetired at *
    dsimp only
    rw [Table.get?_erase]
    by_cases e : room' = room
    · rw [if_pos e]
      rfl
    · rw [if_neg e]
      exact hsame

theorem connection?_half {id : Uuid} {c : Connection} (hid : h.connection? id = some c) :
    ∃ c', (h.half p).connection? id = some c' ∧ c.Ages c' ∧
      (c'.state = c.state ∨ c'.state = .closed) := by
  have hchanged : ∀ id' {f : Connection → Connection}, c.Ages (f c) →
      ((f c).state = c.state ∨ (f c).state = .closed) →
      ∃ c', (h.update id' f).connection? id = some c' ∧ c.Ages c' ∧
        (c'.state = c.state ∨ c'.state = .closed) := by
    intro id' f hages hstate
    rw [connection?_update, hid, Option.map_some]
    split
    · exact ⟨f c, rfl, hages, hstate⟩
    · exact ⟨c, rfl, .refl c, .inl rfl⟩
  cases p with
  | close id' code => exact hchanged id' (c.ages_closed code) (.inr (c.closed_isClosed code))
  | dropHandle id' => exact hchanged id' c.ages_withoutSender (.inl rfl)
  | takeOut room id' => exact ⟨c, hid, .refl c, .inl rfl⟩
  | prune room => exact ⟨c, hid, .refl c, .inl rfl⟩
  | unlink room => exact ⟨c, hid, .refl c, .inl rfl⟩

theorem WellFormed.half (hw : h.WellFormed) : (h.half p).WellFormed := by
  have hback : ∀ {room id}, id ∈ (h.half p).members room → id ∈ h.members room :=
    fun hin => (members_half p _).subset hin
  refine ⟨fun room => (hw.nodup room).sublist (members_half p room), fun hin => ?_,
    fun hin hin' => hw.one_room (hback hin) (hback hin'), isRetired_half p hw.unretired⟩
  obtain ⟨c, hid, hc⟩ := hw.entered (hback hin)
  obtain ⟨c', hid', -, e | e⟩ := connection?_half p hid
  · exact ⟨c', hid', e ▸ hc⟩
  · exact ⟨c', hid', by simp [e]⟩

end Half

/-! ### No key is there twice -/

/-- No room has two entries, and no identifier has two connections. -/
structure HasDistinctKeys (h : Hub) : Prop where
  rooms : h.HasDistinctRooms
  connections : (h.connections.map (·.1)).Nodup

/-- The same connections are there, in the same order, and the rooms are some of those that were
there before, in the same order. -/
structure KeepsOrder (h h' : Hub) : Prop where
  connections : h'.connections.map (·.1) = h.connections.map (·.1)
  rooms : (h'.rooms.map (·.1)).Sublist (h.rooms.map (·.1))

namespace KeepsOrder

theorem refl (h : Hub) : KeepsOrder h h := ⟨rfl, List.Sublist.refl _⟩

theorem trans {h₁ h₂ h₃ : Hub} (k : KeepsOrder h₁ h₂) (l : KeepsOrder h₂ h₃) : KeepsOrder h₁ h₃ :=
  ⟨l.connections.trans k.connections, l.rooms.trans k.rooms⟩

theorem update (h : Hub) (id : Uuid) (f : Connection → Connection) : KeepsOrder h (h.update id f) :=
  ⟨Table.map_fst_modify _ _ _, List.Sublist.refl _⟩

theorem modify (h : Hub) (room : String) (f : RoomEntry → RoomEntry) :
    KeepsOrder h { h with rooms := h.rooms.modify room f } := by
  refine ⟨rfl, ?_⟩
  dsimp only
  rw [Table.map_fst_modify]

theorem erase (h : Hub) (room : String) : KeepsOrder h { h with rooms := h.rooms.erase room } :=
  ⟨rfl, List.filter_sublist.map _⟩

theorem foldl {α : Type} {f : Hub → α → Hub} (hf : ∀ h a, KeepsOrder h (f h a)) (h : Hub)
    (as : List α) : KeepsOrder h (as.foldl f h) := by
  induction as generalizing h with
  | nil => exact refl h
  | cons a as ih => exact (hf h a).trans (ih (f h a))

theorem prune (h : Hub) (room : String) : KeepsOrder h (h.prune room) := by
  have hmodified := modify h room .retireIfEmpty
  unfold Hub.prune
  dsimp only
  split
  · exact hmodified.trans (erase _ room)
  · exact hmodified

theorem leave (h : Hub) (room : String) (id : Uuid) : KeepsOrder h (h.leave room id).2 := by
  unfold Hub.leave
  split
  · have htaken := (update h id fun c => (c.closed CloseCode.normal).withoutSender).trans
      (modify _ room (·.without id))
    dsimp only
    split
    · exact htaken.trans (prune _ room)
    · exact htaken
  · exact refl h

theorem close (h : Hub) (id : Uuid) (code : UInt16) : KeepsOrder h (h.close id code).2 := by
  unfold Hub.close
  split
  · exact refl h
  · split
    · exact refl h
    · exact (update h id _).trans (leave _ _ id)

theorem evict (room : String) (h : Hub) (id : Uuid) : KeepsOrder h (Hub.evict room h id) := by
  unfold Hub.evict
  split
  · exact refl h
  · split
    · exact refl h
    · exact (update h id _).trans (leave _ _ id)

theorem broadcastIn (h : Hub) (order : List Uuid) (room : String) (e : Envelope)
    (exclude : Option Uuid) : KeepsOrder h (h.broadcastIn order room e exclude).2 := by
  have hserved : ∀ (order : List Uuid) (d : Delivery),
      KeepsOrder d.hub (order.foldl (deliver e exclude) d).hub := by
    intro order
    induction order with
    | nil => exact fun d => refl d.hub
    | cons a order ih =>
      intro d
      refine KeepsOrder.trans ?_ (ih (deliver e exclude d a))
      rw [deliver_eq]
      dsimp only
      split
      · exact update _ _ _
      · exact refl _
  exact (hserved order ⟨h, 0, []⟩).trans (foldl (evict room) _ _)

theorem half (h : Hub) (p : Half) : KeepsOrder h (h.half p) := by
  cases p with
  | close id code => exact update h id _
  | dropHandle id => exact update h id _
  | takeOut room id => exact modify h room _
  | prune room => exact prune h room
  | unlink room => exact erase h room

end KeepsOrder

/-- Only the opening of a connection adds to the connections. -/
theorem connections_step (h : Hub) {op : Operation}
    (hop : ∀ id identity room capacity, op ≠ .openConnection id identity room capacity) :
    (h.step op).2.connections.map (·.1) = h.connections.map (·.1) := by
  cases op with
  | openConnection id identity room capacity => exact absurd rfl (hop id identity room capacity)
  | join id room exists' =>
    unfold step
    dsimp only
    cases hj : h.join room id exists' with
    | none => rfl
    | some p =>
      obtain ⟨r, h'⟩ := p
      have hentry : (h.withEntry room).connections = h.connections := by
        unfold withEntry
        split <;> rfl
      rcases join_cases hj with ⟨-, -, rfl⟩ | ⟨-, -, -, rfl⟩ | ⟨-, -, rfl, -⟩
      · exact (KeepsOrder.update h id _).connections
      · exact (KeepsOrder.update _ id _).connections.trans (by rw [hentry])
      · exact (KeepsOrder.update (h.withEntry room) id _).connections.trans (by rw [hentry])
  | leave room id => exact (KeepsOrder.leave h room id).connections
  | broadcast room e exclude => exact (KeepsOrder.broadcastIn h _ room e exclude).connections
  | closeRoom room =>
    exact (KeepsOrder.foldl (fun h id => KeepsOrder.update h id _) h (h.members room)).connections
  | handle id raw now =>
    unfold step handle
    dsimp only
    split
    · rfl
    · split
      · rfl
      · split
        · exact (KeepsOrder.close h id _).connections
        · exact (KeepsOrder.broadcastIn h _ _ _ _).connections
  | close id code => exact (KeepsOrder.close h id code).connections
  | drop id => exact (KeepsOrder.close h id _).connections
  | receive id =>
    unfold step receive
    dsimp only
    split
    · rfl
    · exact (KeepsOrder.update h id _).connections
  | dropReceiver id => exact (KeepsOrder.update h id _).connections

theorem HasDistinctKeys.step {h : Hub} (hd : h.HasDistinctKeys) {op : Operation}
    (hop : op.isFresh h = true) : (h.step op).2.HasDistinctKeys := by
  refine ⟨hd.rooms.step op, ?_⟩
  by_cases hopen : ∃ id identity room capacity, op = .openConnection id identity room capacity
  · obtain ⟨id, identity, room, capacity, rfl⟩ := hopen
    exact Table.nodup_keys_insert hd.connections (Option.isNone_iff_eq_none.mp hop) _
  · rw [connections_step h fun id identity room capacity e =>
      hopen ⟨id, identity, room, capacity, e⟩]
    exact hd.connections

theorem HasDistinctKeys.half {h : Hub} (hd : h.HasDistinctKeys) (p : Half) :
    (h.half p).HasDistinctKeys := by
  have hkept := KeepsOrder.half h p
  exact ⟨hd.rooms.sublist hkept.rooms, hkept.connections ▸ hd.connections⟩

/-- **What holds of every hub that can be met.** -/
theorem Reachable.invariant {h : Hub} (hr : h.Reachable) : h.WellFormed ∧ h.HasDistinctKeys := by
  induction hr with
  | empty => exact ⟨wellFormed_empty, List.nodup_nil, List.nodup_nil⟩
  | step _ hop ih => exact ⟨ih.1.step hop, ih.2.step hop⟩
  | half p _ ih => exact ⟨ih.1.half p, ih.2.half p⟩

end ChatRooms.Hub

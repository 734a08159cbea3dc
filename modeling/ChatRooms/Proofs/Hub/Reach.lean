import ChatRooms.Proofs.Hub.Membership

/-!
What an operation can change. An operation reaches the connection that it is on, and the members of
the room that it is on; every other connection stays as it is. No operation changes who is behind a
connection, and only its opening brings one into being.
-/

namespace ChatRooms

namespace Connection

@[simp] theorem withoutSender_identity (c : Connection) : c.withoutSender.identity = c.identity := rfl

@[simp] theorem withoutReceiver_identity (c : Connection) :
    c.withoutReceiver.identity = c.identity := rfl

@[simp] theorem offered_identity (c : Connection) (e : Envelope) :
    (c.offered e).identity = c.identity := by
  unfold offered
  split
  · rfl
  · split <;> rfl

@[simp] theorem receive_identity (c : Connection) : c.receive.2.identity = c.identity := by
  unfold receive
  split <;> rfl

end Connection

namespace Hub

/-- The operation is on the connection, or on a room in which the connection is. -/
def Operation.reaches (h : Hub) (id : Uuid) : Operation → Prop
  | .openConnection .. => False
  | .join id' .. | .close id' _ | .drop id' | .receive id' | .dropReceiver id' => id' = id
  | .leave room _ | .broadcast room .. | .closeRoom room => id ∈ h.members room
  | .handle id' .. => id' = id ∨ ∃ c, h.connection? id' = some c ∧ id ∈ h.members c.room

section Reach

variable {h : Hub} {id : Uuid} {c : Connection} (hid : h.connection? id = some c)

/-- The connection is still there, with the same client behind it, and it is unchanged unless it was
reached. -/
def Retains (h' : Hub) (id : Uuid) (c : Connection) (reached : Prop) : Prop :=
  ∃ c', h'.connection? id = some c' ∧ c'.identity = c.identity ∧ (reached ∨ c' = c)

include hid

theorem retains_of_map {h' : Hub} {reached : Prop} {f : Connection → Connection}
    (e : h'.connection? id = (h.connection? id).map f) (hf : (f c).identity = c.identity)
    (hr : reached ∨ f c = c) : Retains h' id c reached :=
  ⟨f c, by rw [e, hid, Option.map_some], hf, hr⟩

theorem retains_of_same {h' : Hub} {reached : Prop}
    (e : h'.connection? id = h.connection? id) : Retains h' id c reached :=
  ⟨c, e.trans hid, rfl, .inr rfl⟩

theorem retains_update {f : Connection → Connection} (hf : ∀ c, (f c).identity = c.identity)
    (id' : Uuid) : Retains (h.update id' f) id c (id' = id) := by
  by_cases e : id' = id
  · exact retains_of_map hid ((connection?_update h id' id f).trans (if_pos e)) (hf c) (.inl e)
  · exact retains_of_same hid ((connection?_update h id' id f).trans (if_neg e))

theorem retains_join (id' : Uuid) (room : String) (exists' : Bool) :
    Retains (h.step (.join id' room exists')).2 id c (id' = id) := by
  by_cases e : id' = id
  · subst e
    unfold step
    dsimp only
    cases hj : h.join room id' exists' with
    | none => exact retains_of_same hid rfl
    | some p =>
      obtain ⟨r, h'⟩ := p
      dsimp only
      rcases join_cases hj with ⟨-, -, rfl⟩ | ⟨-, -, -, rfl⟩ | ⟨-, -, rfl, -⟩
      · exact retains_update hid Connection.withoutSender_identity id'
      · exact retains_update ((connection?_withEntry h room id').trans hid)
          Connection.withoutSender_identity id'
      · exact retains_of_map hid ((connection?_joined h room id' id').trans (if_pos rfl)) rfl
          (.inl rfl)
  · exact retains_of_same hid (step_join_of_ne h e room exists').1

theorem retains_leave (room : String) (id' : Uuid) :
    Retains (h.leave room id').2 id c (id ∈ h.members room) := by
  by_cases e : id' ∈ h.members room ∧ id' = id
  · exact retains_of_map hid ((connection?_leave h room id' id).trans (if_pos e)) rfl
      (.inl (e.2 ▸ e.1))
  · exact retains_of_same hid ((connection?_leave h room id' id).trans (if_neg e))

theorem retains_close (id' : Uuid) (code : UInt16) :
    Retains (h.close id' code).2 id c (id' = id) := by
  by_cases e : id' = id
  · subst e
    by_cases hc : c.state = .closed
    · exact retains_of_same hid (by rw [close_of_closed hid hc])
    · refine retains_of_map hid (connection?_close hid hc code) ?_ (.inl rfl)
      split <;> rfl
  · exact retains_of_same hid (connection?_close_of_ne h e code)

theorem retains_closeRoom (room : String) :
    Retains (h.closeRoom room).2 id c (id ∈ h.members room) := by
  refine retains_of_map hid (connection?_closeRoom h room id) ?_ ?_
  · split <;> rfl
  · by_cases hin : id ∈ h.members room
    · exact .inl hin
    · exact .inr (if_neg hin)

variable (hw : h.WellFormed)

include hw

theorem retains_broadcast (room : String) (e : Envelope) (exclude : Option Uuid) :
    Retains (h.broadcast room e exclude).2 id c (id ∈ h.members room) := by
  refine retains_of_map hid (connection?_broadcast (hw.nodup room) e exclude id) ?_ ?_
  · split
    · exact c.offered_identity e
    · rfl
  · by_cases hin : id ∈ h.members room
    · exact .inl hin
    · exact .inr (if_neg fun hto => hin hto.1)

theorem retains_handle (id' : Uuid) (raw : String) (now : Time.Instant) :
    Retains (h.handle id' raw now).2 id c
      (id' = id ∨ ∃ c, h.connection? id' = some c ∧ id ∈ h.members c.room) := by
  unfold handle
  split
  · exact retains_of_same hid rfl
  · rename_i c₀ hid₀
    split
    · exact retains_of_same hid rfl
    · split
      · obtain ⟨c', hid', hsame, hr⟩ := retains_close hid id' _
        exact ⟨c', hid', hsame, hr.imp_left .inl⟩
      · obtain ⟨c', hid', hsame, hr⟩ := retains_broadcast hid hw c₀.room _ _
        exact ⟨c', hid', hsame, hr.imp_left fun hin => .inr ⟨c₀, hid₀, hin⟩⟩

/-- **What a step leaves of a connection.** The same client is behind it, and it is unchanged unless
the operation reaches it. -/
theorem retains_step {op : Operation} (hop : op.isFresh h = true) :
    Retains (h.step op).2 id c (op.reaches h id) := by
  cases op with
  | openConnection id' identity room capacity =>
    refine ⟨c, ?_, rfl, .inr rfl⟩
    exact connection?_openConnection_of_some (Option.isNone_iff_eq_none.mp hop) hid _ _ _
  | join id' room exists' => exact retains_join hid id' room exists'
  | leave room id' => exact retains_leave hid room id'
  | broadcast room e exclude => exact retains_broadcast hid hw room e exclude
  | closeRoom room => exact retains_closeRoom hid room
  | handle id' raw now => exact retains_handle hid hw id' raw now
  | close id' code => exact retains_close hid id' code
  | drop id' => exact retains_close hid id' _
  | receive id' =>
    unfold step receive
    dsimp only
    split
    · exact retains_of_same hid rfl
    · exact retains_update hid Connection.receive_identity id'
  | dropReceiver id' => exact retains_update hid Connection.withoutReceiver_identity id'

end Reach

/-- **Where a connection comes from.** It was there before the step, or the step has opened it. -/
theorem connection?_step_cases {h : Hub} (hw : h.WellFormed) {op : Operation}
    (hop : op.isFresh h = true) {id : Uuid} {c' : Connection}
    (hid' : (h.step op).2.connection? id = some c') :
    (∃ c, h.connection? id = some c ∧ c'.identity = c.identity ∧ c'.room = c.room ∧
      (op.reaches h id ∨ c' = c)) ∨
    h.connection? id = none ∧ ∃ capacity, op = .openConnection id c'.identity c'.room capacity ∧
      c' = .create c'.identity c'.room capacity := by
  cases hid : h.connection? id with
  | some c =>
    obtain ⟨c₁, hid₁, hsame, hr⟩ := retains_step hid hw hop
    obtain ⟨c₂, hid₂, hages⟩ := ages_step hw hid hop
    rw [hid'] at hid₁ hid₂
    cases hid₁
    cases hid₂
    exact .inl ⟨c, rfl, hsame, hages.room, hr⟩
  | none =>
    refine .inr ⟨rfl, ?_⟩
    rcases step_cases hw op with ⟨id', identity, room, capacity, rfl, e⟩ |
      ⟨id', room, c, rfl, hid₁, hc, e⟩ | s
    · rw [e, connection?_openConnection] at hid'
      split at hid'
      · rename_i e'
        cases hid'
        exact ⟨capacity, by rw [e']; rfl, rfl⟩
      · rw [hid] at hid'
        cases hid'
    · rw [e, connection?_joined] at hid'
      split at hid' <;>
      · rw [hid] at hid'
        cases hid'
    · rw [s.absent hid] at hid'
      cases hid'

end Hub

end ChatRooms

import ChatRooms.Proofs.Hub.Step

/-!
The queue of one connection under one operation. An operation that sends an envelope puts it at the
end of the queues of those who take it; a receiver takes from the front, or gives up the whole
queue; nothing else touches a queue. This is `queue_step`.
-/

namespace ChatRooms

namespace Connection

@[simp] theorem closed_queue (c : Connection) (code : UInt16) :
    (c.closed code).queue = c.queue := rfl

@[simp] theorem withoutSender_queue (c : Connection) : c.withoutSender.queue = c.queue := rfl
@[simp] theorem joined_queue (c : Connection) : c.joined.queue = c.queue := rfl

theorem receive_queue (c : Connection) : c.receive.2.queue = c.queue.tail := by
  unfold receive
  split
  · rename_i hq
    rw [hq]
    rfl
  · rename_i hq
    rw [hq]
    rfl

end Connection

namespace Hub

/-- The envelopes that wait for a connection, the oldest first. -/
def queue (h : Hub) (id : Uuid) : List Envelope := ((h.connection? id).map Connection.queue).getD []

/-- An envelope on its way to the members of a room but the excluded one. -/
structure Sending where
  room : String
  envelope : Envelope
  exclude : Option Uuid
deriving DecidableEq

/-- What an operation sends. The frame of a connection is sent if the connection has joined and the
frame is right. -/
def Operation.sending (h : Hub) : Operation → Option Sending
  | .broadcast room envelope exclude => some ⟨room, envelope, exclude⟩
  | .handle id raw now =>
    match h.connection? id with
    | none => none
    | some c =>
      if c.state ≠ .joined then none
      else
        match validate c.room raw with
        | .error _ => none
        | .ok frame => some ⟨c.room, .ofSender frame.roomId c.identity frame.content now, some id⟩
  | _ => none

variable {h : Hub}

/-- An operation that sends an envelope is the broadcast of it. -/
theorem step_of_sending {op : Operation} {s : Sending} (hs : op.sending h = some s) :
    (h.step op).2 = (h.broadcast s.room s.envelope s.exclude).2 := by
  cases op with
  | broadcast room envelope exclude =>
    cases hs
    rfl
  | handle id raw now =>
    unfold Operation.sending at hs
    unfold step handle
    dsimp only at hs ⊢
    cases hid : h.connection? id with
    | none =>
      rw [hid] at hs
      cases hs
    | some c =>
      rw [hid] at hs
      dsimp only at hs ⊢
      by_cases hc : c.state ≠ .joined
      · rw [if_pos hc] at hs
        cases hs
      · rw [if_neg hc] at hs ⊢
        cases hv : validate c.room raw with
        | error e =>
          rw [hv] at hs
          cases hs
        | ok frame =>
          rw [hv] at hs
          cases hs
          rfl
  | _ => cases hs

/-! ### What leaves a queue as it is -/

theorem queue_of_map {h' : Hub} {id : Uuid} {f : Connection → Connection}
    (e : h'.connection? id = (h.connection? id).map f) (hf : ∀ c, (f c).queue = c.queue) :
    h'.queue id = h.queue id := by
  unfold queue
  rw [e, Option.map_map]
  congr 2
  funext c
  exact hf c

theorem queue_update (id id' : Uuid) {f : Connection → Connection}
    (hf : ∀ c, (f c).queue = c.queue) : (h.update id f).queue id' = h.queue id' := by
  by_cases e : id = id'
  · exact queue_of_map (by rw [connection?_update, if_pos e]) hf
  · unfold queue
    rw [connection?_update, if_neg e]

theorem queue_joined (room : String) (id id' : Uuid) :
    (h.joined room id).queue id' = h.queue id' := by
  by_cases e : id = id'
  · exact queue_of_map (by rw [connection?_joined, if_pos e]) Connection.joined_queue
  · unfold queue
    rw [connection?_joined, if_neg e]

theorem queue_join {id : Uuid} {room : String} {exists' : Bool} {r : Except ChatError Unit}
    {h' : Hub} (hj : h.join room id exists' = some (r, h')) (id' : Uuid) :
    h'.queue id' = h.queue id' := by
  rcases join_cases hj with ⟨-, -, rfl⟩ | ⟨-, -, -, rfl⟩ | ⟨-, -, rfl, -⟩
  · exact queue_update id id' Connection.withoutSender_queue
  · refine (queue_update id id' Connection.withoutSender_queue).trans ?_
    unfold queue
    rw [connection?_withEntry]
  · exact queue_joined room id id'

theorem queue_leave (room : String) (id id' : Uuid) :
    (h.leave room id).2.queue id' = h.queue id' := by
  by_cases e : id ∈ h.members room ∧ id = id'
  · have hl := connection?_leave h room id id'
    rw [if_pos e] at hl
    exact queue_of_map hl fun _ => rfl
  · unfold queue
    rw [connection?_leave, if_neg e]

theorem queue_close (id id' : Uuid) (code : UInt16) :
    (h.close id code).2.queue id' = h.queue id' := by
  cases hid : h.connection? id with
  | none => rw [close_of_none hid]
  | some c =>
    by_cases hc : c.state = .closed
    · rw [close_of_closed hid hc]
    · rw [close_of_open hid hc]
      refine (queue_leave c.room id id').trans ?_
      exact queue_update id id' fun _ => rfl

theorem queue_closeRoom (room : String) (id : Uuid) :
    (h.closeRoom room).2.queue id = h.queue id := by
  refine queue_of_map (connection?_closeRoom h room id) fun c => ?_
  split <;> rfl

theorem queue_openConnection {id : Uuid} (hid : h.connection? id = none) (identity : Identity)
    (room : String) (capacity : Nat) (id' : Uuid) :
    (h.openConnection id identity room capacity).queue id' = h.queue id' := by
  unfold queue
  rw [connection?_openConnection]
  by_cases e : id = id'
  · subst e
    rw [if_pos rfl, hid]
    rfl
  · rw [if_neg e]

theorem queue_handle {id : Uuid} {raw : String} {now : Time.Instant}
    (hs : (Operation.handle id raw now).sending h = none) (id' : Uuid) :
    (h.handle id raw now).2.queue id' = h.queue id' := by
  unfold Operation.sending at hs
  unfold handle
  dsimp only at hs
  cases hid : h.connection? id with
  | none => rfl
  | some c =>
    rw [hid] at hs
    dsimp only at hs ⊢
    by_cases hc : c.state ≠ .joined
    · rw [if_pos hc]
    · rw [if_neg hc] at hs ⊢
      cases hv : validate c.room raw with
      | error e => exact queue_close id id' e.closeCode
      | ok frame =>
        rw [hv] at hs
        cases hs

/-! ### What changes a queue -/

theorem queue_broadcast (hw : h.WellFormed) (room : String) (e : Envelope) (exclude : Option Uuid)
    (id : Uuid) : (h.broadcast room e exclude).2.queue id =
      if id ∈ h.members room ∧ h.takes exclude id = true then h.queue id ++ [e]
      else h.queue id := by
  unfold queue takes
  rw [connection?_broadcast (hw.nodup room)]
  cases h.connection? id with
  | none => simp
  | some c =>
    by_cases hin : id ∈ h.members room
    · by_cases hx : exclude = some id
      · simp [hx]
      · by_cases hc : c.state = .closed
        · simp [hc, Connection.offered]
        · by_cases ha : c.accepts = true
          · simp [hin, hx, hc, ha, Connection.offered, Connection.push]
          · simp [hin, hx, hc, ha, Connection.offered]
    · simp [hin]

theorem queue_receive (id id' : Uuid) : (h.receive id).2.queue id' =
    if id = id' then (h.queue id').tail else h.queue id' := by
  unfold receive
  cases hid : h.connection? id with
  | none =>
    by_cases e : id = id'
    · subst e
      simp [queue, hid]
    · simp [e]
  | some c =>
    unfold queue
    dsimp only
    rw [connection?_update]
    by_cases e : id = id'
    · subst e
      simp [hid, Connection.receive_queue]
    · simp [e]

theorem queue_dropReceiver (id id' : Uuid) : (h.dropReceiver id).queue id' =
    if id = id' then [] else h.queue id' := by
  unfold dropReceiver queue
  rw [connection?_update]
  by_cases e : id = id'
  · subst e
    cases hid : h.connection? id <;> simp [Connection.withoutReceiver]
  · simp [e]

theorem queue_of_not_sending {op : Operation} (hop : op.isFresh h = true)
    (hs : op.sending h = none) {id : Uuid} (hr : op ≠ .receive id) (hd : op ≠ .dropReceiver id) :
    (h.step op).2.queue id = h.queue id := by
  cases op with
  | openConnection id' identity room capacity =>
    exact queue_openConnection (Option.isNone_iff_eq_none.mp hop) identity room capacity id
  | join id' room exists' =>
    cases hj : h.join room id' exists' with
    | none => simp [step, hj]
    | some p => simpa [step, hj] using queue_join hj id
  | leave room id' => exact queue_leave room id' id
  | broadcast room envelope exclude => cases hs
  | closeRoom room => exact queue_closeRoom room id
  | handle id' raw now => exact queue_handle hs id
  | close id' code => exact queue_close id' id code
  | drop id' => exact queue_close id' id CloseCode.normal
  | receive id' =>
    have e : id' ≠ id := fun e => hr (e ▸ rfl)
    exact (queue_receive id' id).trans (if_neg e)
  | dropReceiver id' =>
    have e : id' ≠ id := fun e => hd (e ▸ rfl)
    exact (queue_dropReceiver id' id).trans (if_neg e)

/-- **What an operation does to a queue.** What it sends is put at the end, if the connection takes
it; the receiver takes from the front, or gives up what waits; and all else leaves it as it is. -/
theorem queue_step (hw : h.WellFormed) {op : Operation} (hop : op.isFresh h = true) (id : Uuid) :
    (∃ s, op.sending h = some s ∧ id ∈ h.members s.room ∧ h.takes s.exclude id = true ∧
      (h.step op).2.queue id = h.queue id ++ [s.envelope]) ∨
    (op = .receive id ∧ (h.step op).2.queue id = (h.queue id).tail) ∨
    (op = .dropReceiver id ∧ (h.step op).2.queue id = []) ∨
    (op ≠ .receive id ∧ op ≠ .dropReceiver id ∧ (h.step op).2.queue id = h.queue id ∧
      ∀ s, op.sending h = some s → ¬(id ∈ h.members s.room ∧ h.takes s.exclude id = true)) := by
  cases hs : op.sending h with
  | some s =>
    have hq : (h.step op).2.queue id = _ :=
      (congrArg (fun h => Hub.queue h id) (step_of_sending hs)).trans
        (queue_broadcast hw s.room s.envelope s.exclude id)
    by_cases ht : id ∈ h.members s.room ∧ h.takes s.exclude id = true
    · rw [if_pos ht] at hq
      exact .inl ⟨s, rfl, ht.1, ht.2, hq⟩
    · rw [if_neg ht] at hq
      refine .inr (.inr (.inr ⟨?_, ?_, hq, fun s' hs' => ?_⟩))
      · rintro rfl
        cases hs
      · rintro rfl
        cases hs
      · cases hs'
        exact ht
  | none =>
    by_cases hr : op = .receive id
    · subst hr
      exact .inr (.inl ⟨rfl, (queue_receive id id).trans (if_pos rfl)⟩)
    · by_cases hd : op = .dropReceiver id
      · subst hd
        exact .inr (.inr (.inl ⟨rfl, (queue_dropReceiver id id).trans (if_pos rfl)⟩))
      · refine .inr (.inr (.inr ⟨hr, hd, queue_of_not_sending hop hs hr hd, fun s hs' => ?_⟩))
        cases hs'

end Hub

end ChatRooms

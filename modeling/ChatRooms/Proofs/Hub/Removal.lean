import ChatRooms.Proofs.Hub.Queue

/-!
How a connection comes to its end. A connection that joins only the room that it is bound to is
*coming*, *in* its room or *out* of all rooms. Others get it out by a leave, by closing the room, or
by an envelope that it cannot take, each with a code of its own (`removalCode`); what else they do
leaves it where it is. Whoever is out stays out, and keeps the code.
-/

namespace ChatRooms

/-- An error in a frame breaks the rules. -/
theorem InboundFrame.isProtocolViolation_of_parse {raw : String} {e : ChatError}
    (h : InboundFrame.parse raw = .error e) :
    e.isProtocolViolation = true ∧ e.closeCode = CloseCode.policyViolation := by
  unfold InboundFrame.parse at h
  split at h
  · cases h
    exact ⟨rfl, rfl⟩
  · dsimp only at h
    split at h
    · cases h
      exact ⟨rfl, rfl⟩
    · cases h

namespace Hub

theorem isProtocolViolation_of_validate {room raw : String} {e : ChatError}
    (h : validate room raw = .error e) :
    e.isProtocolViolation = true ∧ e.closeCode = CloseCode.policyViolation := by
  unfold validate at h
  split at h
  · rename_i hparse
    cases h
    exact InboundFrame.isProtocolViolation_of_parse hparse
  · split at h
    · cases h
    · cases h
      exact ⟨rfl, rfl⟩

theorem validate_ok_iff {room raw : String} {frame : InboundFrame} :
    validate room raw = .ok frame ↔ InboundFrame.parse raw = .ok frame ∧ frame.roomId = room := by
  unfold validate
  cases hparse : InboundFrame.parse raw with
  | error e => simp
  | ok frame' =>
    by_cases hroom : frame'.roomId = room
    · simp only [hroom, if_true, Except.ok.injEq]
      constructor
      · rintro rfl
        exact ⟨rfl, hroom⟩
      · exact And.left
    · simp only [hroom, if_false, reduceCtorEq, Except.ok.injEq, false_iff]
      rintro ⟨rfl, e⟩
      exact hroom e

/-! ### The ways in which a frame is handled -/

section Handle

variable {h : Hub} {id : Uuid} {c : Connection} (hid : h.connection? id = some c)

include hid

theorem handle_of_not_joined (hc : c.state ≠ .joined) (raw : String) (now : Time.Instant) :
    h.handle id raw now = (.ok 0, h) := by
  unfold handle
  rw [hid]
  exact if_pos hc

variable (hc : c.state = .joined)

include hc

theorem handle_of_error {raw : String} {e : ChatError} (hv : validate c.room raw = .error e)
    (now : Time.Instant) : h.handle id raw now = (.error e, (h.close id e.closeCode).2) := by
  unfold handle
  rw [hid]
  dsimp only
  rw [if_neg (by simp [hc]), hv]

theorem handle_of_ok {raw : String} {frame : InboundFrame} (hv : validate c.room raw = .ok frame)
    (now : Time.Instant) :
    let r := h.broadcast c.room (.ofSender frame.roomId c.identity frame.content now) (some id)
    h.handle id raw now = (.ok r.1, r.2) := by
  unfold handle
  rw [hid]
  dsimp only
  rw [if_neg (by simp [hc]), hv]

end Handle

/-- A frame that is not sent changes no other connection. -/
theorem connection?_handle_of_ne {h : Hub} {id id' : Uuid} (hne : id ≠ id') {raw : String}
    {now : Time.Instant} (hs : (Operation.handle id raw now).sending h = none) :
    (h.handle id raw now).2.connection? id' = h.connection? id' := by
  cases hid : h.connection? id with
  | none => simp [handle, hid]
  | some c =>
    by_cases hc : c.state = .joined
    · cases hv : validate c.room raw with
      | error e =>
        rw [handle_of_error hid hc hv]
        exact connection?_close_of_ne h hne _
      | ok frame => simp [Operation.sending, hid, hc, hv] at hs
    · rw [handle_of_not_joined hid hc]

theorem step_receive {h : Hub} {id : Uuid} {c : Connection} (hid : h.connection? id = some c) :
    (h.step (.receive id)).2 = h.update id fun c => c.receive.2 := by
  simp only [step, receive, hid]

/-! ### What others do to a connection -/

/-- The operation is open to those who do not hold the connection. -/
def Operation.isOpenToOthers (id : Uuid) : Operation → Bool
  | .openConnection id' .. | .join id' .. | .handle id' .. | .close id' _ | .drop id'
  | .receive id' | .dropReceiver id' => id' ≠ id
  | .leave .. | .broadcast .. | .closeRoom _ => true

/-- The code with which an operation of somebody else closes and removes a connection: it is taken
out of its room, the room is closed, or it cannot take an envelope. -/
def Operation.removalCode (h : Hub) (id : Uuid) (op : Operation) : Option UInt16 :=
  match op with
  | .leave room id' => if id' = id ∧ h.contains room id then some CloseCode.normal else none
  | .closeRoom room => if h.contains room id then some CloseCode.roomClosed else none
  | op =>
    match op.sending h with
    | some s =>
      if h.contains s.room id ∧ h.refuses s.exclude id then some CloseCode.tryAgainLater else none
    | none => none

section Others

variable {h : Hub} (hw : h.WellFormed) {id : Uuid} {c : Connection}
  (hid : h.connection? id = some c) {op : Operation}

include hw hid

theorem connection?_of_refused {s : Sending} (hs : op.sending h = some s)
    (hin : id ∈ h.members s.room) (hr : h.refuses s.exclude id = true) :
    (h.step op).2.connection? id = some (c.closed CloseCode.tryAgainLater).withoutSender := by
  simp only [refuses, hid, Option.any_some, Bool.and_eq_true, decide_eq_true_eq,
    Bool.not_eq_true'] at hr
  rw [step_of_sending hs, connection?_broadcast (hw.nodup s.room), hid, Option.map_some,
    if_pos ⟨hin, hr.1.1⟩, Connection.offered, if_neg hr.1.2, if_neg (by simp [hr.2])]

/-- An operation that removes a connection closes it with the code. -/
theorem connection?_of_removalCode {code : UInt16} (hc : op.removalCode h id = some code) :
    (h.step op).2.connection? id = some (c.closed code).withoutSender := by
  cases op with
  | leave room id' =>
    simp only [Operation.removalCode, contains_iff] at hc
    split at hc
    · rename_i hl
      obtain ⟨rfl, hin⟩ := hl
      cases hc
      refine (connection?_leave h room id' id').trans ?_
      rw [if_pos ⟨hin, rfl⟩, hid, Option.map_some]
    · cases hc
  | closeRoom room =>
    simp only [Operation.removalCode, contains_iff] at hc
    split at hc
    · rename_i hin
      cases hc
      refine (connection?_closeRoom h room id).trans ?_
      rw [hid, Option.map_some, if_pos hin]
    · cases hc
  | _ =>
    simp only [Operation.removalCode, contains_iff] at hc
    split at hc
    · rename_i s hs
      split at hc
      · rename_i hr
        cases hc
        exact connection?_of_refused hw hid hs hr.1 hr.2
      · cases hc
    · cases hc

/-- What others send changes the life of a connection only if it cannot take the envelope. -/
theorem connection?_of_not_refused {s : Sending} (hs : op.sending h = some s)
    (hr : ¬(id ∈ h.members s.room ∧ h.refuses s.exclude id = true)) :
    ∃ c', (h.step op).2.connection? id = some c' ∧ c'.life = c.life ∧
      c'.hasSender = c.hasSender := by
  rw [step_of_sending hs, connection?_broadcast (hw.nodup s.room), hid, Option.map_some]
  refine ⟨_, rfl, ?_⟩
  by_cases hto : id ∈ h.members s.room ∧ s.exclude ≠ some id
  · rw [if_pos hto]
    by_cases hc : c.state = .closed
    · simp [Connection.offered, hc]
    · by_cases ha : c.accepts = true
      · simp [Connection.offered, hc, ha, Connection.push]
      · exact absurd ⟨hto.1, by simp [refuses, hid, hto.2, hc, ha]⟩ hr
  · rw [if_neg hto]
    exact ⟨rfl, rfl⟩

/-- An operation of somebody else that does not remove a connection leaves its life as it is. -/
theorem connection?_of_not_removed (hop : op.isFresh h = true)
    (hothers : op.isOpenToOthers id = true) (hc : op.removalCode h id = none) :
    ∃ c', (h.step op).2.connection? id = some c' ∧ c'.life = c.life ∧
      c'.hasSender = c.hasSender := by
  have hsame : (h.step op).2.connection? id = h.connection? id →
      ∃ c', (h.step op).2.connection? id = some c' ∧ c'.life = c.life ∧
        c'.hasSender = c.hasSender := fun e => ⟨c, e.trans hid, rfl, rfl⟩
  have hsent : ∀ s, op.sending h = some s → ∃ c', (h.step op).2.connection? id = some c' ∧
      c'.life = c.life ∧ c'.hasSender = c.hasSender := by
    intro s hs
    refine connection?_of_not_refused hw hid hs fun hr => ?_
    cases op <;> simp [Operation.removalCode, hs, hr, contains_iff] at hc <;> cases hs
  cases op with
  | openConnection id' identity room capacity =>
    refine hsame (Eq.trans ?_ hid.symm)
    exact connection?_openConnection_of_some (Option.isNone_iff_eq_none.mp hop) hid _ _ _
  | join id' room exists' => exact hsame (step_join_of_ne h (of_decide_eq_true hothers) _ _).1
  | leave room id' =>
    refine hsame ((connection?_leave h room id' id).trans (if_neg fun hl => ?_))
    obtain ⟨hin, rfl⟩ := hl
    simp [Operation.removalCode, contains_iff, hin] at hc
  | broadcast room envelope exclude => exact hsent _ rfl
  | closeRoom room =>
    refine hsame ((connection?_closeRoom h room id).trans ?_)
    have hout : id ∉ h.members room := by
      intro hin
      simp [Operation.removalCode, contains_iff, hin] at hc
    simp [hout]
  | handle id' raw now =>
    cases hs : (Operation.handle id' raw now).sending h with
    | some s => exact hsent s hs
    | none => exact hsame (connection?_handle_of_ne (of_decide_eq_true hothers) hs)
  | close id' code => exact hsame (connection?_close_of_ne h (of_decide_eq_true hothers) code)
  | drop id' => exact hsame (connection?_close_of_ne h (of_decide_eq_true hothers) _)
  | receive id' =>
    refine hsame ?_
    unfold step receive
    dsimp only
    split
    · rfl
    · exact (connection?_update h id' id _).trans (if_neg (of_decide_eq_true hothers))
  | dropReceiver id' =>
    exact hsame ((connection?_update h id' id _).trans (if_neg (of_decide_eq_true hothers)))

end Others

/-! ### Coming, in and out -/

/-- The connection is bound to the room and has not joined yet, and its handle is there. -/
def IsComing (h : Hub) (room : String) (id : Uuid) : Prop :=
  ∃ c, h.connection? id = some c ∧ c.room = room ∧ c.state = .connecting ∧ c.hasSender = true

/-- The connection has joined the room that it is bound to, and its queue has not ended. -/
def IsIn (h : Hub) (room : String) (id : Uuid) : Prop :=
  ∃ c, h.connection? id = some c ∧ c.room = room ∧ c.state = .joined ∧ c.hasSender = true ∧
    id ∈ h.members room

/-- The connection has been closed with the code, and is in no room. -/
def IsOut (h : Hub) (id : Uuid) (code : UInt16) : Prop :=
  ∃ c, h.connection? id = some c ∧ c.state = .closed ∧ c.closeCode = code ∧
    ∀ room, id ∉ h.members room

section Course

variable {h : Hub} {room : String} {id : Uuid} (hw : h.WellFormed)

theorem IsComing.opened (h : Hub) (id : Uuid) (identity : Identity) (room : String)
    (capacity : Nat) : (h.openConnection id identity room capacity).IsComing room id :=
  ⟨_, (connection?_openConnection h id id identity room capacity).trans (if_pos rfl), rfl, rfl, rfl⟩

include hw

theorem IsComing.not_mem (hc : h.IsComing room id) (room' : String) : id ∉ h.members room' := by
  obtain ⟨c, hid, -, hstate, -⟩ := hc
  exact hw.not_mem_of_connecting hid hstate room'

theorem IsIn.mem_iff (hi : h.IsIn room id) (room' : String) :
    id ∈ h.members room' ↔ room' = room := by
  obtain ⟨c, -, -, -, -, hin⟩ := hi
  constructor
  · exact fun hin' => hw.one_room hin' hin
  · rintro rfl
    exact hin

/-- What is out stays out, with its code. -/
theorem IsOut.step {code : UInt16} (ho : h.IsOut id code) {op : Operation}
    (hop : op.isFresh h = true) : (h.step op).2.IsOut id code := by
  obtain ⟨c, hid, hclosed, hcode, hout⟩ := ho
  obtain ⟨c', hid', hages, -, hnew, -⟩ := present_step hw hid hop (.inl (by simp [hclosed]))
  have hlife : c'.life = c.life := hages.life hclosed
  refine ⟨c', hid', ?_, ?_, fun room hin => hout room (hnew room hin)⟩
  · rw [Connection.state, hlife]
    exact hclosed
  · rw [Connection.closeCode, hlife]
    exact hcode

/-! #### From coming to in, or out -/

theorem IsComing.join (hc : h.IsComing room id) :
    h.join room id true = some (.ok (), h.joined room id) ∧ (h.joined room id).IsIn room id := by
  obtain ⟨c, hid, rfl, hstate, hsender⟩ := hc
  refine ⟨join_of_connecting hw hid hstate c.room, ?_⟩
  refine ⟨c.joined, ?_, rfl, Connection.joined_state hstate, hsender, ?_⟩
  · rw [connection?_joined, if_pos rfl, hid, Option.map_some]
  · exact mem_members_joined.mpr (.inr ⟨rfl, rfl⟩)

/-- A connection that cannot join, and is closed for that, is out. -/
theorem IsComing.join_false (hc : h.IsComing room id) (code : UInt16) :
    ∃ h', h.join room id false = some (.error .roomNotFound, h') ∧
      (h'.close id code).2.IsOut id code := by
  have hout := hc.not_mem hw
  obtain ⟨c, hid, rfl, hstate, -⟩ := hc
  refine ⟨_, rfl, ?_⟩
  have hopen : c.withoutSender.state ≠ .closed := by simp [hstate]
  have hid' : (h.update id .withoutSender).connection? id = some c.withoutSender := by
    rw [connection?_update, if_pos rfl, hid, Option.map_some]
  refine ⟨c.withoutSender.closed code, ?_, Connection.closed_isClosed _ _,
    Connection.closed_closeCode hopen code, fun room hin => ?_⟩
  · rw [connection?_close hid' hopen, hid', Option.map_some]
    exact congrArg some (if_neg (hout c.room))
  · rw [members_close hid' hopen] at hin
    split at hin
    · exact hout _ (List.mem_of_mem_erase hin)
    · exact hout _ hin

/-- A connection that is coming is not reached by others. -/
theorem IsComing.step (hc : h.IsComing room id) {op : Operation} (hop : op.isFresh h = true)
    (hothers : op.isOpenToOthers id = true) :
    op.removalCode h id = none ∧ (h.step op).2.IsComing room id := by
  have hnone : op.removalCode h id = none := by
    have hout := hc.not_mem hw
    cases op <;> simp [Operation.removalCode, contains_iff, hout] <;> split <;> rfl
  obtain ⟨c, hid, rfl, hstate, hsender⟩ := hc
  obtain ⟨c', hid', hlife, hsame⟩ := connection?_of_not_removed hw hid hop hothers hnone
  obtain ⟨c₁, hid₁, hages⟩ := ages_step hw hid hop
  rw [hid'] at hid₁
  cases hid₁
  refine ⟨hnone, c', hid', hages.room, ?_, hsame.trans hsender⟩
  rw [Connection.state, hlife]
  exact hstate

/-! #### From in to out -/

section In

variable {c : Connection} (hid : h.connection? id = some c) (hc : c.state = .joined)
  (hin : id ∈ h.members c.room) {op : Operation} (hop : op.isFresh h = true) {c' : Connection}
  (hid' : (h.step op).2.connection? id = some c')

include hid hc hin hop hid'

theorem isOut_of_closed (hclosed : c'.state = .closed) :
    (h.step op).2.IsOut id c'.closeCode := by
  obtain ⟨c₁, hid₁, hages, hstate, hnew, -⟩ := present_step hw hid hop (.inl (by simp [hc]))
  rw [hid'] at hid₁
  cases hid₁
  refine ⟨c', hid', hclosed, rfl, fun room hin' => ?_⟩
  have hroom : room = c.room := hw.one_room (hnew room hin') hin
  rcases hstate with e | ⟨-, hout⟩
  · rw [hclosed, hc] at e
    cases e
  · exact hout (hroom ▸ hin')

theorem isIn_of_life (hsender : c.hasSender = true) (hlife : c'.life = c.life)
    (hsame : c'.hasSender = c.hasSender) : (h.step op).2.IsIn c.room id := by
  obtain ⟨c₁, hid₁, hages, -, -, hkept⟩ := present_step hw hid hop (.inl (by simp [hc]))
  rw [hid'] at hid₁
  cases hid₁
  have hstate : c'.state = .joined := by
    rw [Connection.state, hlife]
    exact hc
  refine ⟨c', hid', hages.room, hstate, hsame.trans hsender, ?_⟩
  exact (hkept _ hin).resolve_right fun e => by simp [hstate] at e

end In

/-- Others leave a connection in its room, or get it out. -/
theorem IsIn.step (hi : h.IsIn room id) {op : Operation} (hop : op.isFresh h = true)
    (hothers : op.isOpenToOthers id = true) :
    match op.removalCode h id with
    | none => (h.step op).2.IsIn room id
    | some code => (h.step op).2.IsOut id code := by
  obtain ⟨c, hid, rfl, hc, hsender, hin⟩ := hi
  split
  · rename_i hnone
    obtain ⟨c', hid', hlife, hsame⟩ := connection?_of_not_removed hw hid hop hothers hnone
    exact isIn_of_life hw hid hc hin hop hid' hsender hlife hsame
  · rename_i code hcode
    have hid' := connection?_of_removalCode hw hid hcode
    have hout := isOut_of_closed hw hid hc hin hop hid' (by simp)
    rwa [show (c.closed code).withoutSender.closeCode = code from
      Connection.closed_closeCode (by simp [hc]) code] at hout

/-- A connection that is closed gets out. -/
theorem isOut_close {c : Connection} (hid : h.connection? id = some c) (hc : c.state = .joined)
    (hin : id ∈ h.members c.room) (code : UInt16) : (h.close id code).2.IsOut id code := by
  have hopen : c.state ≠ .closed := by simp [hc]
  have hid' : (h.step (.close id code)).2.connection? id =
      some (c.closed code).withoutSender := by
    refine (connection?_close hid hopen code).trans ?_
    rw [hid, Option.map_some, if_pos hin]
  have hout := isOut_of_closed hw hid hc hin rfl hid' (by simp)
  rwa [show (c.closed code).withoutSender.closeCode = code from
    Connection.closed_closeCode hopen code] at hout

theorem IsIn.close (hi : h.IsIn room id) (code : UInt16) : (h.close id code).2.IsOut id code := by
  obtain ⟨c, hid, rfl, hc, -, hin⟩ := hi
  exact isOut_close hw hid hc hin code

/-- A frame of a connection that has joined leaves it in its room, unless it breaks the rules. -/
theorem IsIn.handle (hi : h.IsIn room id) (raw : String) (now : Time.Instant) :
    match validate room raw with
    | .ok _ => (∃ n, (h.handle id raw now).1 = .ok n) ∧ (h.handle id raw now).2.IsIn room id
    | .error e => h.handle id raw now = (.error e, (h.close id CloseCode.policyViolation).2) ∧
        e.isProtocolViolation = true := by
  obtain ⟨c, hid, rfl, hc, hsender, hin⟩ := hi
  split
  · rename_i frame hv
    have hn := handle_of_ok hid hc hv now
    refine ⟨⟨_, by rw [hn]⟩, ?_⟩
    have hid' : (h.step (.handle id raw now)).2.connection? id = some c := by
      unfold Hub.step
      dsimp only
      rw [hn, connection?_broadcast (hw.nodup c.room), hid, Option.map_some,
        if_neg fun hto => hto.2 rfl]
    exact isIn_of_life hw hid hc hin rfl hid' hsender rfl rfl
  · rename_i e hv
    obtain ⟨hviolation, hcode⟩ := isProtocolViolation_of_validate hv
    exact ⟨by rw [handle_of_error hid hc hv, hcode], hviolation⟩

/-- Whoever takes from the queue, or stops to, leaves the connection in its room. -/
theorem IsIn.step_receiver (hi : h.IsIn room id) {op : Operation}
    (hop : op = .receive id ∨ op = .dropReceiver id) : (h.step op).2.IsIn room id := by
  obtain ⟨c, hid, rfl, hc, hsender, hin⟩ := hi
  rcases hop with rfl | rfl
  · have hid' : (h.step (.receive id)).2.connection? id = some c.receive.2 := by
      rw [step_receive hid, connection?_update, if_pos rfl, hid, Option.map_some]
    refine isIn_of_life hw hid hc hin rfl hid' hsender ?_ ?_ <;>
    · unfold Connection.receive
      split <;> rfl
  · have hid' : (h.step (.dropReceiver id)).2.connection? id = some c.withoutReceiver :=
      (connection?_update h id id _).trans (by rw [if_pos rfl, hid, Option.map_some])
    exact isIn_of_life hw hid hc hin rfl hid' hsender rfl rfl

end Course

end Hub

end ChatRooms

import ChatRooms.Proofs.Hub.Reach
import ChatRooms.Proofs.Hub.Stream
import ChatRooms.Proofs.Hub.Removal

/-!
Rooms do not interfere. Two hubs are *alike* in a room if the same connections are bound to it and
it has the same members. An operation on other rooms leaves the hub alike, and an operation on the
room has the same answer in hubs that are alike, and leaves them alike. So what is seen in a room
does not depend on what is done in others: leaving all that out of a run changes nothing in the
room.
-/

namespace ChatRooms.Hub

/-- The connection with an identifier, if it is bound to the room. -/
def resident (h : Hub) (room : String) (id : Uuid) : Option Connection :=
  (h.connection? id).filter (·.room = room)

theorem resident_eq_some_iff {h : Hub} {room : String} {id : Uuid} {c : Connection} :
    h.resident room id = some c ↔ h.connection? id = some c ∧ c.room = room := by
  simp [resident, Option.filter_eq_some_iff]

theorem resident_of_map {h h' : Hub} {room : String} {id : Uuid} {f : Connection → Connection}
    (hf : ∀ c, (f c).room = c.room) (e : h'.connection? id = (h.connection? id).map f) :
    h'.resident room id = (h.resident room id).map f := by
  unfold resident
  rw [e]
  cases h.connection? id with
  | none => rfl
  | some c => by_cases hr : c.room = room <;> simp [Option.filter, hf, hr]

/-- The same connections are bound to the room, and it has the same members. -/
structure Alike (room : String) (h₁ h₂ : Hub) : Prop where
  resident : ∀ id, h₁.resident room id = h₂.resident room id
  members : h₁.members room = h₂.members room

/-- The operation is on the room: it names the room, or a connection that is bound to it. -/
def Operation.concerns (room : String) (h : Hub) : Operation → Bool
  | .openConnection _ _ room' _ | .join _ room' _ | .leave room' _ | .broadcast room' ..
  | .closeRoom room' => room' = room
  | .handle id .. | .close id _ | .drop id | .receive id | .dropReceiver id =>
    (h.connection? id).any (·.room = room)

/-- A new connection gets an identifier that nobody has, and a connection that is joined to a room
is bound to that room. -/
def Operation.isOrderly (h : Hub) (op : Operation) : Bool := op.isFresh h && op.isOwn h

theorem Operation.isOrderly_iff {h : Hub} {op : Operation} :
    op.isOrderly h = true ↔ op.isFresh h = true ∧ op.isOwn h = true := by
  rw [isOrderly, Bool.and_eq_true]

/-! ### Operations on other rooms -/

section Elsewhere

variable {h : Hub} (hw : h.WellFormed) (hs : h.InStep) {room : String} {op : Operation}
  (hop : op.isOrderly h = true) (hc : op.concerns room h = false)

include hs hop hc

/-- An operation on other rooms reaches no connection that is bound to the room. -/
theorem not_reaches_of_elsewhere {id : Uuid} {c : Connection} (hid : h.connection? id = some c)
    (hroom : c.room = room) : ¬op.reaches h id := by
  have hmember : ∀ room', id ∈ h.members room' → room' = room := by
    intro room' hin
    obtain ⟨c', hid', -, e⟩ := (hs room' id).mp hin
    rw [hid] at hid'
    cases hid'
    exact e.symm.trans hroom
  intro hr
  cases op with
  | openConnection => exact hr
  | join id' room' exists' =>
    obtain rfl : id' = id := hr
    have hown : c.room = room' := by
      simpa [Operation.isOwn, hid] using (Operation.isOrderly_iff.mp hop).2
    exact of_decide_eq_false hc (hown.symm.trans hroom)
  | leave room' id' => exact of_decide_eq_false hc (hmember room' hr)
  | broadcast room' e exclude => exact of_decide_eq_false hc (hmember room' hr)
  | closeRoom room' => exact of_decide_eq_false hc (hmember room' hr)
  | handle id' raw now =>
    rcases hr with rfl | ⟨c', hid', hin⟩
    · simp [Operation.concerns, hid, hroom] at hc
    · simp [Operation.concerns, hid', hmember c'.room hin] at hc
  | close id' | drop id' | receive id' | dropReceiver id' =>
    obtain rfl : id' = id := hr
    simp [Operation.concerns, hid, hroom] at hc

include hw

theorem members_of_elsewhere : (h.step op).2.members room = h.members room := by
  rcases step_cases hw op with ⟨id, identity, room', capacity, rfl, e⟩ |
    ⟨id, room', c, rfl, hid, -, e⟩ | s
  · rw [e]
    rfl
  · rw [e, members_joined, if_neg (Ne.symm (of_decide_eq_false hc))]
  · -- nobody is taken out of the room, since nobody in it is closed
    refine (s.sublist room).eq_of_length_le ((hw.nodup room).subperm fun id hin => ?_).length_le
    obtain ⟨c, hid, hjoined, hroom⟩ := (hs room id).mp hin
    obtain ⟨c', hid', -, hr⟩ := retains_step hid hw (Operation.isOrderly_iff.mp hop).1
    obtain rfl := hr.resolve_left (not_reaches_of_elsewhere hs hop hc hid hroom)
    by_contra hout
    obtain ⟨c₁, hid₁, hclosed⟩ := s.removed hin hout
    rw [hid'] at hid₁
    cases hid₁
    rw [hjoined] at hclosed
    cases hclosed

/-- **What is done elsewhere is not seen in the room.** -/
theorem alike_of_elsewhere : Alike room (h.step op).2 h := by
  have hfresh := (Operation.isOrderly_iff.mp hop).1
  refine ⟨fun id => ?_, members_of_elsewhere hw hs hop hc⟩
  ext c
  rw [resident_eq_some_iff, resident_eq_some_iff]
  refine and_congr_left fun hroom => ⟨fun hid' => ?_, fun hid => ?_⟩
  · rcases connection?_step_cases hw hfresh hid' with ⟨c₀, hid, -, hroom₀, hr⟩ | ⟨-, capacity, rfl, -⟩
    · obtain rfl := hr.resolve_left
        (not_reaches_of_elsewhere hs hop hc hid (hroom₀.symm.trans hroom))
      exact hid
    · exact absurd hroom (of_decide_eq_false hc)
  · obtain ⟨c', hid', -, hr⟩ := retains_step hid hw hfresh
    obtain rfl := hr.resolve_left (not_reaches_of_elsewhere hs hop hc hid hroom)
    exact hid'

end Elsewhere

/-! ### Operations on the room -/

/-- How a join ends, and what it leaves. -/
theorem step_join {h : Hub} (hw : h.WellFormed) (id : Uuid) (room : String) (exists' : Bool) :
    h.step (.join id room exists') =
      if exists' = true then
        if (h.connection? id).any (·.state = .connecting) then
          (.joined (.ok ()), h.joined room id)
        else (.joined (.error (closedBeforeJoin id)), (h.withEntry room).update id .withoutSender)
      else (.joined (.error .roomNotFound), h.update id .withoutSender) := by
  obtain ⟨⟨r, h'⟩, hj⟩ := Option.isSome_iff_exists.mp (join_isSome (hw.unretired room) id exists')
  have hstep : h.step (.join id room exists') = (.joined r, h') := by simp only [step, hj]
  rw [hstep]
  rcases join_cases hj with ⟨rfl, rfl, rfl⟩ | ⟨rfl, rfl, hpast, rfl⟩ | ⟨rfl, rfl, rfl, c, hid, hc⟩
  · simp
  · have hnot : (h.connection? id).any (·.state = .connecting) = false := by
      rw [Option.any_eq_false]
      simpa using hpast
    simp [hnot]
  · simp [hid, hc]

theorem answer_leave (h : Hub) (room : String) (id : Uuid) :
    (h.leave room id).1 = h.contains room id := by
  unfold leave
  split <;> simp_all

namespace Alike

variable {room : String} {h₁ h₂ : Hub} (a : Alike room h₁ h₂)

theorem refl (room : String) (h : Hub) : Alike room h h := ⟨fun _ => rfl, rfl⟩

include a

theorem trans {h₃ : Hub} (b : Alike room h₂ h₃) : Alike room h₁ h₃ :=
  ⟨fun id => (a.resident id).trans (b.resident id), a.members.trans b.members⟩

theorem connection?_of_room {id : Uuid} {c : Connection} (hid : h₁.connection? id = some c)
    (hroom : c.room = room) : h₂.connection? id = some c := by
  have hr := resident_eq_some_iff.mpr ⟨hid, hroom⟩
  rw [a.resident, resident_eq_some_iff] at hr
  exact hr.1

/-- A connection that can only be one of the room is the same in both hubs. -/
theorem connection?_eq {id : Uuid} (h₁' : (h₁.connection? id).all (·.room = room) = true)
    (h₂' : (h₂.connection? id).all (·.room = room) = true) :
    h₁.connection? id = h₂.connection? id := by
  have hr := a.resident id
  unfold Hub.resident at hr
  cases hid₁ : h₁.connection? id <;> cases hid₂ : h₂.connection? id <;>
    simp_all [Option.filter]

theorem update {f : Connection → Connection} (hf : ∀ c, (f c).room = c.room) (id : Uuid) :
    Alike room (h₁.update id f) (h₂.update id f) := by
  refine ⟨fun id' => ?_, a.members⟩
  by_cases e : id = id'
  · have e₁ := (connection?_update h₁ id id' f).trans (if_pos e)
    have e₂ := (connection?_update h₂ id id' f).trans (if_pos e)
    rw [resident_of_map hf e₁, resident_of_map hf e₂, a.resident]
  · unfold Hub.resident
    rw [connection?_update, connection?_update, if_neg e, if_neg e]
    exact a.resident id'

theorem withEntry (room' : String) : Alike room (h₁.withEntry room') (h₂.withEntry room') := by
  refine ⟨fun id => ?_, ?_⟩
  · unfold Hub.resident
    rw [connection?_withEntry, connection?_withEntry]
    exact a.resident id
  · rw [members_withEntry, members_withEntry, a.members]

theorem openConnection (id : Uuid) (identity : Identity) (room' : String) (capacity : Nat) :
    Alike room (h₁.openConnection id identity room' capacity)
      (h₂.openConnection id identity room' capacity) := by
  refine ⟨fun id' => ?_, a.members⟩
  unfold Hub.resident
  rw [connection?_openConnection, connection?_openConnection]
  by_cases e : id = id'
  · rw [if_pos e, if_pos e]
  · rw [if_neg e, if_neg e]
    exact a.resident id'

theorem joined (id : Uuid) : Alike room (h₁.joined room id) (h₂.joined room id) := by
  refine ⟨fun id' => ?_, ?_⟩
  · have hu := (a.update (fun c => c.ages_joined.room) id).resident id'
    unfold Hub.resident at hu ⊢
    rwa [connection?_joined, connection?_joined, ← connection?_update, ← connection?_update]
  · rw [members_joined, members_joined, if_pos rfl, if_pos rfl, a.members]

theorem leave (id : Uuid) : (h₁.leave room id).1 = (h₂.leave room id).1 ∧
    Alike room (h₁.leave room id).2 (h₂.leave room id).2 := by
  refine ⟨?_, fun id' => ?_, ?_⟩
  · rw [answer_leave, answer_leave, contains, contains, a.members]
  · by_cases e : id ∈ h₁.members room ∧ id = id'
    · have e₁ := (connection?_leave h₁ room id id').trans (if_pos e)
      have e₂ := (connection?_leave h₂ room id id').trans (if_pos (a.members ▸ e))
      have hf : ∀ c : Connection, (c.closed CloseCode.normal).withoutSender.room = c.room :=
        fun _ => rfl
      rw [resident_of_map hf e₁, resident_of_map hf e₂, a.resident]
    · unfold Hub.resident
      rw [connection?_leave, connection?_leave, if_neg e, if_neg (a.members ▸ e)]
      exact a.resident id'
  · rw [members_leave, members_leave, if_pos rfl, if_pos rfl, a.members]

theorem close {id : Uuid} {c : Connection} (hid : h₁.connection? id = some c)
    (hroom : c.room = room) (code : UInt16) : (h₁.close id code).1 = (h₂.close id code).1 ∧
      Alike room (h₁.close id code).2 (h₂.close id code).2 := by
  have hid₂ := a.connection?_of_room hid hroom
  by_cases hc : c.state = .closed
  · rw [close_of_closed hid hc, close_of_closed hid₂ hc]
    exact ⟨rfl, a⟩
  · rw [close_of_open hid hc, close_of_open hid₂ hc, hroom]
    exact ⟨rfl, ((a.update (fun c => (c.ages_closed code).room) id).leave id).2⟩

theorem closeRoom : (h₁.closeRoom room).1 = (h₂.closeRoom room).1 ∧
    Alike room (h₁.closeRoom room).2 (h₂.closeRoom room).2 := by
  refine ⟨congrArg List.length a.members, fun id => ?_, ?_⟩
  · have hf : ∀ c : Connection, (if id ∈ h₁.members room then
        (c.closed CloseCode.roomClosed).withoutSender else c).room = c.room := by
      intro c
      split <;> rfl
    have e₂ := connection?_closeRoom h₂ room id
    rw [← a.members] at e₂
    rw [resident_of_map hf (connection?_closeRoom h₁ room id), resident_of_map hf e₂, a.resident]
  · rw [members_closeRoom, members_closeRoom, if_pos rfl, if_pos rfl]

/-- The members of the room take the same envelopes in both hubs. -/
theorem takes (hs : h₁.InStep) (exclude : Option Uuid) {id : Uuid} (hin : id ∈ h₁.members room) :
    h₂.takes exclude id = h₁.takes exclude id ∧ h₂.refuses exclude id = h₁.refuses exclude id := by
  obtain ⟨c, hid, -, hroom⟩ := (hs room id).mp hin
  exact takes_of_connection? ((a.connection?_of_room hid hroom).trans hid.symm) exclude

theorem broadcast (hw₁ : h₁.WellFormed) (hs₁ : h₁.InStep) (hw₂ : h₂.WellFormed) (e : Envelope)
    (exclude : Option Uuid) :
    (h₁.broadcast room e exclude).1 = (h₂.broadcast room e exclude).1 ∧
      Alike room (h₁.broadcast room e exclude).2 (h₂.broadcast room e exclude).2 := by
  have hcount : ∀ {h : Hub}, h.WellFormed →
      (h.broadcast room e exclude).1 = (h.members room).countP (h.takes exclude) := fun hw =>
    (broadcastIn_effect e exclude (List.Perm.refl _) (hw.nodup room)).1
  refine ⟨?_, fun id => ?_, ?_⟩
  · rw [hcount hw₁, hcount hw₂, ← a.members]
    exact List.countP_congr fun id hin => by rw [(a.takes hs₁ exclude hin).1]
  · have hf : ∀ c : Connection, (if id ∈ h₁.members room ∧ exclude ≠ some id then c.offered e
        else c).room = c.room := by
      intro c
      split
      · exact (c.ages_offered e).room
      · rfl
    have e₁ := connection?_broadcast (hw₁.nodup room) e exclude id
    have e₂ := connection?_broadcast (hw₂.nodup room) e exclude id
    rw [← a.members] at e₂
    rw [resident_of_map hf e₁, resident_of_map hf e₂, a.resident]
  · rw [members_broadcast (hw₁.nodup room), members_broadcast (hw₂.nodup room), if_pos rfl,
      if_pos rfl, ← a.members]
    exact List.filter_congr fun id hin => by rw [(a.takes hs₁ exclude hin).2]

theorem handle (hw₁ : h₁.WellFormed) (hs₁ : h₁.InStep) (hw₂ : h₂.WellFormed) {id : Uuid}
    {c : Connection} (hid : h₁.connection? id = some c) (hroom : c.room = room) (raw : String)
    (now : Time.Instant) : (h₁.handle id raw now).1 = (h₂.handle id raw now).1 ∧
      Alike room (h₁.handle id raw now).2 (h₂.handle id raw now).2 := by
  subst hroom
  have hid₂ := a.connection?_of_room hid rfl
  by_cases hc : c.state = .joined
  · cases hv : validate c.room raw with
    | error e =>
      rw [handle_of_error hid hc hv, handle_of_error hid₂ hc hv]
      exact ⟨rfl, (a.close hid rfl e.closeCode).2⟩
    | ok frame =>
      obtain ⟨hcount, hafter⟩ := a.broadcast hw₁ hs₁ hw₂
        (.ofSender frame.roomId c.identity frame.content now) (some id)
      simp only [Hub.handle, hid, hid₂, hc, hv, ne_eq, not_true_eq_false, if_false]
      exact ⟨congrArg Except.ok hcount, hafter⟩
  · rw [handle_of_not_joined hid hc, handle_of_not_joined hid₂ hc]
    exact ⟨rfl, a⟩

/-- **An operation on the room has the same answer and the same effect in hubs that are alike.** -/
theorem step (hw₁ : h₁.WellFormed) (hs₁ : h₁.InStep) (hw₂ : h₂.WellFormed) {op : Operation}
    (hc : op.concerns room h₁ = true) (hown₁ : op.isOwn h₁ = true) (hown₂ : op.isOwn h₂ = true) :
    (h₁.step op).1 = (h₂.step op).1 ∧ Alike room (h₁.step op).2 (h₂.step op).2 := by
  -- an operation on a connection is on one that is bound to the room
  have hbound : ∀ id, (h₁.connection? id).any (·.room = room) = true →
      ∃ c, h₁.connection? id = some c ∧ c.room = room := by
    intro id hany
    obtain ⟨c, hid, hroom⟩ := (Option.any_eq_true _ _).mp hany
    exact ⟨c, hid, of_decide_eq_true hroom⟩
  cases op with
  | openConnection id identity room' capacity =>
    exact ⟨rfl, a.openConnection id identity room' capacity⟩
  | join id room' exists' =>
    obtain rfl : room' = room := of_decide_eq_true hc
    rw [step_join hw₁, step_join hw₂, a.connection?_eq hown₁ hown₂]
    split
    · split
      · exact ⟨rfl, a.joined id⟩
      · exact ⟨rfl, (a.withEntry room').update (fun c => c.ages_withoutSender.room) id⟩
    · exact ⟨rfl, a.update (fun c => c.ages_withoutSender.room) id⟩
  | leave room' id =>
    obtain rfl : room' = room := of_decide_eq_true hc
    exact ⟨congrArg Answer.flag (a.leave id).1, (a.leave id).2⟩
  | broadcast room' e exclude =>
    obtain rfl : room' = room := of_decide_eq_true hc
    have hb := a.broadcast hw₁ hs₁ hw₂ e exclude
    exact ⟨congrArg Answer.count hb.1, hb.2⟩
  | closeRoom room' =>
    obtain rfl : room' = room := of_decide_eq_true hc
    exact ⟨congrArg Answer.count a.closeRoom.1, a.closeRoom.2⟩
  | handle id raw now =>
    obtain ⟨c, hid, hroom⟩ := hbound id hc
    have hh := a.handle hw₁ hs₁ hw₂ hid hroom raw now
    exact ⟨congrArg Answer.handled hh.1, hh.2⟩
  | close id code =>
    obtain ⟨c, hid, hroom⟩ := hbound id hc
    have hclose := a.close hid hroom code
    exact ⟨congrArg Answer.flag hclose.1, hclose.2⟩
  | drop id =>
    obtain ⟨c, hid, hroom⟩ := hbound id hc
    have hclose := a.close hid hroom CloseCode.normal
    exact ⟨congrArg Answer.flag hclose.1, hclose.2⟩
  | receive id =>
    obtain ⟨c, hid, hroom⟩ := hbound id hc
    have hid₂ := a.connection?_of_room hid hroom
    refine ⟨?_, ?_⟩
    · simp only [Hub.step, receive, hid, hid₂]
    · rw [step_receive hid, step_receive hid₂]
      exact a.update (fun c => c.ages_receive.room) id
  | dropReceiver id => exact ⟨rfl, a.update (fun c => c.ages_withoutReceiver.room) id⟩

end Alike

/-! ### Runs without what is done elsewhere -/

/-- The operations of a run that are on the room. -/
def concerning (room : String) (h : Hub) (ops : List Operation) : List Operation :=
  collect (fun h op => if op.concerns room h then [op] else []) h ops

/-- The answers to the operations of a run. -/
def answers (h : Hub) (ops : List Operation) : List Answer :=
  collect (fun h op => [(h.step op).1]) h ops

/-- The answers to the operations of a run that are on the room. -/
def answersIn (room : String) (h : Hub) (ops : List Operation) : List Answer :=
  collect (fun h op => if op.concerns room h then [(h.step op).1] else []) h ops

/-- All connections are bound to the room. -/
def IsAlone (room : String) (h : Hub) : Prop := ∀ id c, h.connection? id = some c → c.room = room

/-- What comes next in a run and is on the room can come next in a hub that has that room alone. -/
theorem IsAlone.isOrderly {room : String} {h h' : Hub} (hl : IsAlone room h')
    (a : Alike room h h') {op : Operation} (hop : op.isOrderly h = true)
    (hc : op.concerns room h = true) : op.isOrderly h' = true := by
  rw [Operation.isOrderly_iff] at hop ⊢
  constructor
  · cases op with
    | openConnection id identity room' capacity =>
      have hnone : h.connection? id = none := Option.isNone_iff_eq_none.mp hop.1
      cases hid : h'.connection? id with
      | none => simp [Operation.isFresh, hid]
      | some c =>
        have hr := resident_eq_some_iff.mpr ⟨hid, hl id c hid⟩
        rw [← a.resident, resident_eq_some_iff, hnone] at hr
        cases hr.1
    | _ => rfl
  · cases op with
    | join id room' exists' =>
      obtain rfl : room' = room := of_decide_eq_true hc
      unfold Operation.isOwn
      dsimp only
      rw [Option.all_eq_true]
      exact fun c hid => decide_eq_true (hl id c hid)
    | _ => rfl

theorem IsAlone.step {room : String} {h h' : Hub} (hl : IsAlone room h') (hw : h'.WellFormed)
    {op : Operation} (hop : op.isFresh h' = true) (hc : op.concerns room h = true) :
    IsAlone room (h'.step op).2 := by
  intro id c hid'
  rcases connection?_step_cases hw hop hid' with ⟨c₀, hid, -, hroom, -⟩ | ⟨-, capacity, rfl, -⟩
  · exact hroom.trans (hl id c₀ hid)
  · exact of_decide_eq_true hc

/-- What is left of a run when all that is not on the room is left out goes on as in the whole
run. -/
theorem Alike.run {room : String} {h h' : Hub} (a : Alike room h h') (hl : IsAlone room h')
    (hw : h.WellFormed) (hs : h.InStep) (hw' : h'.WellFormed) (hs' : h'.InStep)
    (ops : List Operation) (hops : obeys Operation.isOrderly h ops = true) :
    obeys Operation.isOrderly h' (concerning room h ops) = true ∧
    answersIn room h ops = answers h' (concerning room h ops) ∧
    Alike room (h.run ops) (h'.run (concerning room h ops)) ∧
    IsAlone room (h'.run (concerning room h ops)) := by
  induction ops generalizing h h' with
  | nil => exact ⟨rfl, rfl, a, hl⟩
  | cons op ops ih =>
    rw [obeys, Bool.and_eq_true] at hops
    obtain ⟨hop, hops⟩ := hops
    obtain ⟨hfresh, hown⟩ := Operation.isOrderly_iff.mp hop
    have hw₁ := hw.step hfresh
    have hs₁ := hs.step_of_isOwn hw hfresh hown
    unfold concerning answersIn collect
    cases hc : op.concerns room h with
    | false =>
      exact ih ((alike_of_elsewhere hw hs hop hc).trans a) hl hw₁ hs₁ hw' hs' hops
    | true =>
      have hop' := hl.isOrderly a hop hc
      obtain ⟨hfresh', hown'⟩ := Operation.isOrderly_iff.mp hop'
      obtain ⟨hanswer, a₁⟩ := a.step hw hs hw' hc hown hown'
      obtain ⟨horderly, hanswers, hend⟩ := ih a₁ (hl.step hw' hfresh' hc) hw₁ hs₁
        (hw'.step hfresh') (hs'.step_of_isOwn hw' hfresh' hown') hops
      refine ⟨?_, ?_, hend⟩
      · exact (Bool.and_eq_true _ _).mpr ⟨hop', horderly⟩
      · exact congrArg₂ List.cons hanswer hanswers

/-- **Rooms do not interfere.** Leave out of a run all that is on other rooms and on the connections
that are bound to them. What is left is again a run; its operations have the same answers, and in
the end the room has the same members, and the same connections are bound to it, each with the same
state, close code and queue. -/
theorem rooms_do_not_interfere (room : String) (ops : List Operation)
    (hops : obeys Operation.isOrderly empty ops = true) :
    let kept := concerning room empty ops
    obeys Operation.isOrderly empty kept = true ∧
    answersIn room empty ops = answers empty kept ∧
    (empty.run ops).members room = (empty.run kept).members room ∧
    (∀ id c, c.room = room →
      ((empty.run ops).connection? id = some c ↔ (empty.run kept).connection? id = some c)) ∧
    ∀ id c, (empty.run kept).connection? id = some c → c.room = room := by
  intro kept
  have hl : IsAlone room empty := fun _ _ hid => by cases hid
  obtain ⟨horderly, hanswers, a, hl'⟩ := (Alike.refl room empty).run hl wellFormed_empty
    inStep_empty wellFormed_empty inStep_empty ops hops
  refine ⟨horderly, hanswers, a.members, fun id c hroom => ?_, hl'⟩
  have hr : (empty.run ops).resident room id = some c ↔ (empty.run kept).resident room id = some c :=
    by rw [a.resident id]
  simpa [resident_eq_some_iff, hroom] using hr

/-- Two rooms with a member each. The one in the hall sends a frame that names the lab, and is closed
for it; the one in the lab is told to leave the hall. -/
def crossing : List Operation :=
  [.openConnection ⟨1⟩ ⟨"u1", "Ada"⟩ "lab" 2, .openConnection ⟨2⟩ ⟨"u2", "Bob"⟩ "hall" 1,
    .join ⟨1⟩ "lab" true, .join ⟨2⟩ "hall" true, .leave "hall" ⟨1⟩,
    .handle ⟨2⟩ "\x7b\"room_id\":\"lab\",\"content\":\"hi\"\x7d" .zero,
    .broadcast "lab" (notice "lab" "a") none, .closeRoom "hall"]

theorem rooms_do_not_interfere_crossing :
    let kept : List Operation := [.openConnection ⟨1⟩ ⟨"u1", "Ada"⟩ "lab" 2, .join ⟨1⟩ "lab" true,
      .broadcast "lab" (notice "lab" "a") none]
    concerning "lab" empty crossing = kept ∧ answersIn "lab" empty crossing = answers empty kept ∧
    (empty.run crossing).members "lab" = (empty.run kept).members "lab" ∧
    ∃ c, (empty.run crossing).connection? ⟨1⟩ = some c ∧ c.queue = [notice "lab" "a"] := by
  intro kept
  obtain ⟨-, hanswers, hmembers, hsame, -⟩ := rooms_do_not_interfere "lab" crossing (by decide)
  have hkept : concerning "lab" empty crossing = kept := by decide
  rw [hkept] at hanswers hmembers hsame
  exact ⟨hkept, hanswers, hmembers, _, (hsame ⟨1⟩ _ rfl).mpr rfl, rfl⟩

end ChatRooms.Hub

import ChatRooms.Proofs.Session.Course

/-!
How a session ends. Many things can end a session, from three sides: what the reading side sees,
the end of the writing side, and what others do to the connection. The first of them closes the
connection with its code and takes it out of its room; all later ones find the connection closed and
change nothing. So a session that has returned leaves nothing behind, and all that it says about the
end names the first cause.

Events count from when they are handled. A close frame that has come but has not been read, or a
writing side that has ended without the reading side knowing, is no cause yet: what others do in the
meantime comes first. So the failure of the transport ends a session with the code of an error only
if nothing is sent to the room until it is found out; an envelope that comes before finds nobody who
would take it, and the connection is closed as one that is too slow.

Each operation at the hub is one step here. In particular the closing of a connection is: that the
writing side reads the code after the state has been exchanged and before the code is stored is left
out.
-/

namespace ChatRooms.Session

open ChatRooms.Time

/-! ### Causes -/

/-- The code with which an event ends a session whose connection has joined the room, if it does. -/
def Event.cause? (room : String) : Event → Option UInt16
  | .text raw =>
    match Hub.validate room raw with
    | .ok _ => none
    | .error _ => some CloseCode.policyViolation
  | .other => none
  | .closeFrame | .streamEnd => some CloseCode.normal
  | .readError | .writerEnded => some CloseCode.internalError
  | .idle => some CloseCode.policyViolation

/-- The code with which an action ends a session, if it does. That the transport fails is no cause
in itself; that the reading side finds the writing side ended is. -/
def State.cause? (s : State) : Action → Option UInt16
  | .join exists' => if exists' then none else some CloseCode.roomClosed
  | .event e _ => e.cause? s.room
  | .operate op => op.removalCode s.hub s.id
  | .write | .ping | .breakOff | .finish => none

/-! ### What a session does at the hub -/

section Hub

variable {h : Hub} {room : String} {id : Uuid} {code : UInt16}

theorem close_of_isOut (ho : h.IsOut id code) (code' : UInt16) : h.close id code' = (false, h) := by
  obtain ⟨c, hid, hclosed, -⟩ := ho
  exact Hub.close_of_closed hid hclosed code'

theorem finish_of_isOut (ho : h.IsOut id code) : finish h id = h := by
  rw [finish, close_of_isOut ho]

/-- Whatever is read from a connection that is out changes nothing at the hub. -/
theorem onEvent_of_isOut (ho : h.IsOut id code) (now : Instant) (e : Event) :
    onEvent h id now e = (e.isFrame, h) := by
  cases e with
  | text raw =>
    obtain ⟨c, hid, hclosed, -⟩ := ho
    simp [onEvent, Hub.handle_of_not_joined hid (by simp [hclosed]), Event.isFrame]
  | other => rfl
  | _ => simp [onEvent, close_of_isOut ho, Event.isFrame]

theorem read_of_isOut (ho : h.IsOut id code) (now : Instant) (e : Event) :
    read h id now e = (e.isFrame, h) := by
  rw [read, onEvent_of_isOut ho]
  cases e.isFrame with
  | true => rfl
  | false => simp [finish_of_isOut ho]

/-- What the writing side does next: it sends an envelope, or the code of a connection whose queue
has ended, or it waits. -/
theorem takeNext_cases {c : Connection} (hid : h.connection? id = some c) {action : WriterAction}
    {h' : Hub} (ht : takeNext h id = some (action, h')) :
    h' = (h.step (.receive id)).2 ∧
      ((∃ frame, action = .send (.text frame)) ∨
        action = .sendLast (.close c.closeCode) ∧ c.hasSender = false ∨ action = .wait) := by
  have htaken : ∀ c, (writerAction c).2 = c.receive.2 := by
    intro c
    unfold writerAction
    split <;> rename_i hr <;> rw [hr]
  rw [takeNext, hid, Option.map_some] at ht
  cases ht
  refine ⟨?_, ?_⟩
  · rw [Hub.step_receive hid]
    simp only [htaken]
  · unfold writerAction Connection.receive
    cases hq : c.queue with
    | cons e rest => exact .inl ⟨_, rfl⟩
    | nil => cases hs : c.hasSender <;> simp

/-- Nobody takes from the queue of the connection any more. -/
def IsUnattended (h : Hub) (id : Uuid) : Prop :=
  ∃ c, h.connection? id = some c ∧ c.hasReceiver = false

theorem IsUnattended.of_ages {h' : Hub} (hu : IsUnattended h id)
    (hages : ∀ {c}, h.connection? id = some c → ∃ c', h'.connection? id = some c' ∧ c.Ages c') :
    IsUnattended h' id := by
  obtain ⟨c, hid, hgone⟩ := hu
  obtain ⟨c', hid', hold⟩ := hages hid
  refine ⟨c', hid', Bool.eq_false_iff.mpr fun h => ?_⟩
  rw [hold.receiver h] at hgone
  cases hgone

theorem IsUnattended.settles {h' : Hub} (hu : IsUnattended h id) (s : Hub.Settles h h') :
    IsUnattended h' id := by
  refine hu.of_ages fun hid => ?_
  obtain ⟨c', hid', hages, -⟩ := s.present hid
  exact ⟨c', hid', hages⟩

theorem isUnattended_dropReceiver {c : Connection} (hid : h.connection? id = some c) :
    IsUnattended (h.dropReceiver id) id :=
  ⟨c.withoutReceiver, (Hub.connection?_update h id id _).trans (by rw [if_pos rfl, hid]; rfl), rfl⟩

section WellFormed

variable (hw : h.WellFormed)

include hw

theorem IsUnattended.step (hu : IsUnattended h id) {op : Hub.Operation}
    (hop : op.isFresh h = true) : IsUnattended (h.step op).2 id :=
  hu.of_ages fun hid => Hub.ages_step hw hid hop

theorem settles_read (now : Instant) (e : Event) : Hub.Settles h (read h id now e).2 := by
  have hevent : Hub.Settles h (onEvent h id now e).2 := by
    cases e with
    | text raw =>
      have s := Hub.settles_handle hw id raw now
      simp only [onEvent]
      split <;> rename_i hh <;> rwa [hh] at s
    | other => exact Hub.Settles.refl h
    | _ => exact Hub.settles_close hw id _
  unfold read
  split
  · rename_i hh
    rwa [hh] at hevent
  · rename_i h' hh
    rw [hh] at hevent
    exact hevent.trans (Hub.settles_close (hevent.wellFormed hw) id _)

theorem settles_joinOrRefuse {exists' : Bool} {e : ChatError} {h' : Hub}
    (hj : joinOrRefuse h room id exists' = some (.error e, h')) : Hub.Settles h h' := by
  unfold joinOrRefuse at hj
  split at hj
  · rename_i e' h₁ hfail
    cases hj
    have s := Hub.settles_of_failed_join hfail
    exact s.trans (Hub.settles_close (s.wellFormed hw) id _)
  · rename_i hno
    exact absurd hj (hno e h')

theorem joinOrRefuse_of_isComing (hc : h.IsComing room id) (exists' : Bool) :
    match exists' with
    | true => joinOrRefuse h room id true = some (.ok (), h.joined room id)
    | false => ∃ h', joinOrRefuse h room id false = some (.error .roomNotFound, h') ∧
        h'.IsOut id CloseCode.roomClosed := by
  cases exists' with
  | true => simp [joinOrRefuse, (hc.join hw).1]
  | false =>
    obtain ⟨h', hj, hout⟩ := hc.join_false hw CloseCode.roomClosed
    exact ⟨refuse h' id .roomNotFound, by simp [joinOrRefuse, hj], hout⟩

/-- An event leaves a connection in its room, or it ends the reading and gets the connection out. -/
theorem read_of_isIn (hi : h.IsIn room id) (now : Instant) (e : Event) :
    match e.cause? room with
    | none => (read h id now e).1 = true ∧ (read h id now e).2.IsIn room id
    | some code => (read h id now e).1 = false ∧ (read h id now e).2.IsOut id code := by
  have hclose : ∀ code, onEvent h id now e = (false, (h.close id code).2) →
      (read h id now e).1 = false ∧ (read h id now e).2.IsOut id code := by
    intro code he
    have hout := hi.close hw code
    have hread : read h id now e = (false, (h.close id code).2) := by
      rw [read, he]
      simp [finish_of_isOut hout]
    rw [hread]
    exact ⟨rfl, hout⟩
  cases e with
  | text raw =>
    have hhandle := hi.handle hw raw now
    unfold Event.cause?
    dsimp only
    cases hv : Hub.validate room raw with
    | ok frame =>
      rw [hv] at hhandle
      obtain ⟨⟨n, hn⟩, hin⟩ := hhandle
      have he : onEvent h id now (.text raw) = (true, (h.handle id raw now).2) := by
        simp only [onEvent]
        split <;> rename_i hh <;> simp [hh] at hn ⊢
      rw [read, he]
      exact ⟨rfl, hin⟩
    | error err =>
      rw [hv] at hhandle
      exact hclose _ (by simp [onEvent, hhandle.1, hhandle.2])
  | other => exact ⟨rfl, hi⟩
  | _ => exact hclose _ rfl

end WellFormed

end Hub

/-! ### What every run keeps -/

namespace State

/-- Where a session and its connection stand, given the first cause to end so far. -/
inductive Stands (s : State) : Option UInt16 → Prop
  | coming (hphase : s.phase = .joining) (hwriting : s.writing = .pending)
      (hc : s.hub.IsComing s.room s.id) : Stands s none
  | inside (hphase : s.phase = .reading) (hi : s.hub.IsIn s.room s.id) : Stands s none
  | out {code : UInt16} (hphase : s.phase ≠ .joining)
      (herror : ∀ e, s.phase = .refused e → e.closeCode = code)
      (ho : s.hub.IsOut s.id code) : Stands s (some code)

/-- What holds of a session after every run, given the first cause to end so far. A close frame that
it has sent names that cause. -/
structure Sound (s : State) (first : Option UInt16) : Prop where
  wellFormed : s.hub.WellFormed
  stands : s.Stands first
  sent : ∀ code, Outbound.close code ∈ s.sent → first = some code

section Keeps

variable {s s' : State} {first : Option UInt16} (hs : s.Sound first)

include hs

/-- A session that is reading stands inside or out. -/
theorem Sound.reading (hphase : s.phase = .reading) :
    first = none ∧ s.hub.IsIn s.room s.id ∨ ∃ code, first = some code ∧ s.hub.IsOut s.id code := by
  cases hs.stands with
  | coming hp => simp [hphase] at hp
  | inside _ hi => exact .inl ⟨rfl, hi⟩
  | @out code _ _ ho => exact .inr ⟨code, rfl, ho⟩

/-- Once the reading is over, the session stands out. -/
theorem Sound.over (hphase : s.phase ≠ .joining) (hover : s.phase ≠ .reading) :
    ∃ code, first = some code ∧ s.hub.IsOut s.id code ∧
      ∀ e, s.phase = .refused e → e.closeCode = code := by
  cases hs.stands with
  | coming hp => exact absurd hp hphase
  | inside hp => exact absurd hp hover
  | @out code _ herror ho => exact ⟨code, rfl, ho, herror⟩

/-- Once there has been a cause to end, the connection is out with its code. -/
theorem Sound.isOut {code : UInt16} (hfirst : first = some code) : s.hub.IsOut s.id code := by
  subst hfirst
  cases hs.stands with
  | out _ _ ho => exact ho

theorem Sound.exists_connection : ∃ c, s.hub.connection? s.id = some c := by
  cases hs.stands with
  | coming _ _ hc =>
    obtain ⟨c, hid, -⟩ := hc
    exact ⟨c, hid⟩
  | inside _ hi =>
    obtain ⟨c, hid, -⟩ := hi
    exact ⟨c, hid⟩
  | out _ _ ho =>
    obtain ⟨c, hid, -⟩ := ho
    exact ⟨c, hid⟩

/-- A text that is read after the first cause changes nothing. -/
theorem Sound.eq_of_text {code : UInt16} (hfirst : first = some code) {raw : String}
    {now : Instant} (ha : s.act (.event (.text raw) now) = some s') : s' = s := by
  obtain ⟨hphase, rfl⟩ := State.act_event ha
  rw [read_of_isOut (hs.isOut hfirst)]
  simp [Event.isFrame, ← hphase]

theorem Sound.act_join {exists' : Bool} (ha : s.act (.join exists') = some s') :
    s'.Sound (first.or (s.cause? (.join exists'))) := by
  obtain ⟨hphase, hcases⟩ := State.act_join ha
  cases hs.stands with
  | inside hp => simp [hphase] at hp
  | out hp => exact absurd hphase hp
  | coming _ _ hc =>
    have hjoin := joinOrRefuse_of_isComing hs.wellFormed hc exists'
    cases exists' with
    | true =>
      obtain ⟨hub, hj, rfl⟩ | ⟨e, hub, hj, -⟩ := hcases
      · rw [hjoin] at hj
        cases hj
        have hi := (hc.join hs.wellFormed).2
        obtain ⟨c, hid, -, hstate, -⟩ := hc
        exact ⟨hs.wellFormed.joined hid hstate s.room, .inside rfl hi, hs.sent⟩
      · rw [hjoin] at hj
        cases hj
    | false =>
      obtain ⟨h', hj', hout⟩ := hjoin
      obtain ⟨hub, hj, -⟩ | ⟨e, hub, hj, rfl⟩ := hcases
      · rw [hj'] at hj
        cases hj
      · rw [hj'] at hj
        cases hj
        refine ⟨(settles_joinOrRefuse hs.wellFormed hj').wellFormed hs.wellFormed,
          .out (by simp) (fun e he => ?_) hout, fun code hsent => ?_⟩
        · cases he
          rfl
        · cases hs.sent code hsent

theorem Sound.act_event {e : Event} {now : Instant} (ha : s.act (.event e now) = some s') :
    s'.Sound (first.or (s.cause? (.event e now))) := by
  obtain ⟨hphase, rfl⟩ := State.act_event ha
  have hwell : (read s.hub s.id now e).2.WellFormed :=
    (settles_read hs.wellFormed now e).wellFormed hs.wellFormed
  rcases hs.reading hphase with ⟨rfl, hi⟩ | ⟨code, rfl, ho⟩
  · have hread := read_of_isIn hs.wellFormed hi now e
    rw [Option.none_or, cause?]
    cases hcause : e.cause? s.room with
    | none =>
      rw [hcause] at hread
      exact ⟨hwell, .inside (by simp [hread.1]) hread.2, hs.sent⟩
    | some code =>
      rw [hcause] at hread
      refine ⟨hwell, .out (by simp [hread.1]) (by simp [hread.1]) hread.2, fun code' hsent => ?_⟩
      cases hs.sent code' hsent
  · have hread := read_of_isOut ho now e
    refine ⟨hwell, .out ?_ ?_ ?_, hs.sent⟩
    · dsimp only
      split <;> simp
    · dsimp only
      split <;> simp
    · rw [hread]
      exact ho

theorem Sound.act_operate {op : Hub.Operation} (ha : s.act (.operate op) = some s') :
    s'.Sound (first.or (s.cause? (.operate op))) := by
  obtain ⟨hothers, hfresh, rfl⟩ := State.act_operate ha
  have hwell := hs.wellFormed.step hfresh
  cases hs.stands with
  | coming hphase hwriting hc =>
    obtain ⟨hnone, hc'⟩ := hc.step hs.wellFormed hfresh hothers
    rw [Option.none_or, cause?, hnone]
    exact ⟨hwell, .coming hphase hwriting hc', hs.sent⟩
  | inside hphase hi =>
    have hi' := hi.step hs.wellFormed hfresh hothers
    rw [Option.none_or, cause?]
    cases hcode : op.removalCode s.hub s.id with
    | none =>
      rw [hcode] at hi'
      exact ⟨hwell, .inside hphase hi', hs.sent⟩
    | some code =>
      rw [hcode] at hi'
      refine ⟨hwell, .out (by simp [hphase]) (by simp [hphase]) hi', fun code' hsent => ?_⟩
      cases hs.sent code' hsent
  | out hphase herror ho =>
    exact ⟨hwell, .out hphase herror (ho.step hs.wellFormed hfresh), hs.sent⟩

/-- The writing side takes from the queue, or gives it up, and gives more to the transport. -/
theorem Sound.of_receiver {op : Hub.Operation} (hop : op = .receive s.id ∨ op = .dropReceiver s.id)
    (hpending : s.writing ≠ .pending) {writing : Writing} {sent : List Outbound}
    (hsent : ∀ code, Outbound.close code ∈ sent → first = some code) :
    Sound { s with hub := (s.hub.step op).2, writing := writing, sent := sent } first := by
  have hfresh : op.isFresh s.hub = true := by
    rcases hop with rfl | rfl <;> rfl
  refine ⟨hs.wellFormed.step hfresh, ?_, hsent⟩
  cases hs.stands with
  | coming _ hwriting => exact absurd hwriting hpending
  | inside hphase hi => exact .inside hphase (hi.step_receiver hs.wellFormed hop)
  | out hphase herror ho => exact .out hphase herror (ho.step hs.wellFormed hfresh)

/-- A queue that has ended is that of a connection that is out. -/
theorem Sound.closeCode_of_ended {c : Connection} (hid : s.hub.connection? s.id = some c)
    (hended : c.hasSender = false) (hpending : s.writing ≠ .pending) :
    first = some c.closeCode := by
  cases hs.stands with
  | coming _ hwriting => exact absurd hwriting hpending
  | inside _ hi =>
    obtain ⟨c', hid', -, -, hsender, -⟩ := hi
    rw [hid] at hid'
    cases hid'
    rw [hended] at hsender
    cases hsender
  | out _ _ ho =>
    obtain ⟨c', hid', -, hcode, -⟩ := ho
    rw [hid] at hid'
    cases hid'
    rw [hcode]

theorem Sound.act_write (ha : s.act .write = some s') : s'.Sound first := by
  obtain ⟨hrunning, hcases⟩ := State.act_write ha
  have hpending : s.writing ≠ .pending := by simp [hrunning]
  have hkept : ∀ o, (∀ code, o = Outbound.close code → first = some code) →
      ∀ code, Outbound.close code ∈ s.sent ++ [o] → first = some code := by
    intro o ho code hsent
    rcases List.mem_append.mp hsent with hsent | hlast
    · exact hs.sent code hsent
    · exact ho code (List.mem_singleton.mp hlast).symm
  obtain ⟨c, hid⟩ := hs.exists_connection
  obtain ⟨o, hub, ht, rfl⟩ | ⟨o, hub, ht, rfl⟩ := hcases
  · obtain ⟨rfl, ⟨frame, hsend⟩ | ⟨hlast, -⟩ | hwait⟩ := takeNext_cases hid ht
    · cases hsend
      exact hs.of_receiver (.inl rfl) hpending (hkept _ fun _ e => by cases e)
    · cases hlast
    · cases hwait
  · obtain ⟨rfl, ⟨frame, hsend⟩ | ⟨hlast, hended⟩ | hwait⟩ := takeNext_cases hid ht
    · cases hsend
    · cases hlast
      have hcode := hs.closeCode_of_ended hid hended hpending
      have htaken : Sound { s with
          hub := (s.hub.step (.receive s.id)).2
          sent := s.sent ++ [.close c.closeCode] } first :=
        hs.of_receiver (.inl rfl) hpending (hkept _ fun code e => by cases e; exact hcode)
      exact htaken.of_receiver (.inr rfl) hpending htaken.sent
    · cases hwait

theorem Sound.act_finish (ha : s.act .finish = some s') : s'.Sound first := by
  obtain ⟨e, hphase, rfl⟩ | ⟨hphase, rfl⟩ := State.act_finish ha
  · obtain ⟨code, rfl, ho, herror⟩ := hs.over (by simp [hphase]) (by simp [hphase])
    have hfresh : (Hub.Operation.dropReceiver s.id).isFresh s.hub = true := rfl
    rw [finish_of_isOut ho]
    refine ⟨hs.wellFormed.step hfresh,
      .out (by simp) (by simp) (ho.step hs.wellFormed hfresh), fun code' hsent => ?_⟩
    rcases List.mem_append.mp hsent with hsent | hlast
    · exact hs.sent code' hsent
    · rw [List.mem_singleton, Outbound.close.injEq] at hlast
      rw [hlast, herror e hphase]
  · obtain ⟨code, rfl, ho, -⟩ := hs.over (by simp [hphase]) (by simp [hphase])
    rw [finish_of_isOut ho]
    exact ⟨hs.wellFormed, .out (by simp) (by simp) ho, hs.sent⟩

/-- **One step of a session.** The first cause to end sets where the session stands, and no later
one changes it. -/
theorem Sound.act {a : Action} (ha : s.act a = some s') : s'.Sound (first.or (s.cause? a)) := by
  cases a with
  | join exists' => exact hs.act_join ha
  | event e now => exact hs.act_event ha
  | operate op => exact hs.act_operate ha
  | write =>
    rw [cause?, Option.or_none]
    exact hs.act_write ha
  | ping =>
    obtain ⟨-, rfl⟩ := State.act_ping ha
    rw [cause?, Option.or_none]
    refine ⟨hs.wellFormed, ?_, fun code hsent => hs.sent code ?_⟩
    · cases hs.stands with
      | coming hphase hwriting hc => exact .coming hphase hwriting hc
      | inside hphase hi => exact .inside hphase hi
      | out hphase herror ho => exact .out hphase herror ho
    · simpa using hsent
  | breakOff =>
    obtain ⟨hrunning, rfl⟩ := State.act_breakOff ha
    rw [cause?, Option.or_none]
    exact hs.of_receiver (.inr rfl) (by simp [hrunning]) hs.sent
  | finish =>
    rw [cause?, Option.or_none]
    exact hs.act_finish ha

/-- Once the writing side has ended, nobody takes from the queue. -/
theorem Sound.act_unattended (hu : s.writing = .ended → IsUnattended s.hub s.id) {a : Action}
    (ha : s.act a = some s') : s'.writing = .ended → IsUnattended s'.hub s'.id := by
  cases a with
  | join exists' =>
    obtain ⟨hphase, ⟨hub, -, rfl⟩ | ⟨e, hub, -, rfl⟩⟩ := State.act_join ha
    · exact fun hended => by cases hended
    · intro hended
      cases hs.stands with
      | coming _ hwriting => simp [hwriting] at hended
      | inside hp => simp [hphase] at hp
      | out hp => exact absurd hphase hp
  | event e now =>
    obtain ⟨-, rfl⟩ := State.act_event ha
    exact fun hended => (hu hended).settles (settles_read hs.wellFormed now e)
  | operate op =>
    obtain ⟨-, hfresh, rfl⟩ := State.act_operate ha
    exact fun hended => (hu hended).step hs.wellFormed hfresh
  | write =>
    obtain ⟨hrunning, ⟨o, hub, -, rfl⟩ | ⟨o, hub, ht, rfl⟩⟩ := State.act_write ha
    · exact fun hended => by simp [hrunning] at hended
    · obtain ⟨c, hid⟩ := hs.exists_connection
      have hfresh : (Hub.Operation.receive s.id).isFresh s.hub = true := rfl
      obtain ⟨c', hid', -⟩ := Hub.ages_step hs.wellFormed hid hfresh
      rw [(takeNext_cases hid ht).1]
      exact fun _ => isUnattended_dropReceiver hid'
  | ping =>
    obtain ⟨hrunning, rfl⟩ := State.act_ping ha
    exact fun hended => by simp [hrunning] at hended
  | breakOff =>
    obtain ⟨hrunning, rfl⟩ := State.act_breakOff ha
    obtain ⟨c, hid⟩ := hs.exists_connection
    exact fun _ => isUnattended_dropReceiver hid
  | finish =>
    obtain ⟨e, hphase, rfl⟩ | ⟨hphase, rfl⟩ := State.act_finish ha
    · obtain ⟨code, -, ho, -⟩ := hs.over (by simp [hphase]) (by simp [hphase])
      obtain ⟨c, hid⟩ := hs.exists_connection
      rw [finish_of_isOut ho]
      exact fun _ => isUnattended_dropReceiver hid
    · obtain ⟨code, -, ho, -⟩ := hs.over (by simp [hphase]) (by simp [hphase])
      rw [finish_of_isOut ho]
      exact hu

end Keeps

/-- Whatever is sent to the room once the writing side has ended closes a connection that has met no
cause to end as one that is too slow. -/
theorem Sound.cause?_of_sending {s : State} (hs : s.Sound none) (hended : s.writing = .ended)
    (hu : IsUnattended s.hub s.id) {op : Hub.Operation} {x : Hub.Sending}
    (hx : op.sending s.hub = some x) (hroom : x.room = s.room) (hexclude : x.exclude ≠ some s.id) :
    s.cause? (.operate op) = some CloseCode.tryAgainLater := by
  cases hs.stands with
  | coming _ hwriting => simp [hwriting] at hended
  | inside _ hi =>
    obtain ⟨c, hid, -, hjoined, -, hin⟩ := hi
    obtain ⟨c', hid', hgone⟩ := hu
    rw [hid] at hid'
    cases hid'
    have hrefuses : s.hub.refuses x.exclude s.id = true := by
      simp [Hub.refuses, hid, hexclude, hjoined, Connection.accepts, hgone]
    have hmember : s.hub.contains x.room s.id = true := by
      rw [hroom, Hub.contains_iff]
      exact hin
    cases op with
    | leave | closeRoom => cases hx
    | _ => simp [cause?, Hub.Operation.removalCode, hx, hrefuses, hmember]

/-- A session that has just opened its connection. -/
theorem sound_opened {h : Hub} (hw : h.WellFormed) {id : Uuid} (hid : h.connection? id = none)
    (identity : Identity) (room : String) (capacity : Nat) :
    (opened h id identity room capacity).Sound none :=
  ⟨hw.openConnection hid identity room capacity,
    .coming rfl rfl (.opened h id identity room capacity), fun code hsent => by cases hsent⟩

/-! ### Joining and removal -/

/-- The connection is a member of the room. -/
def isIn (room : String) (s : State) : Bool := s.hub.contains room s.id

/-- The connection joins its room by the step. -/
def joins (st : Schedule.Step State Action) : Bool :=
  match st.action with
  | .join exists' =>
    (joinOrRefuse st.before.hub st.before.room st.before.id exists').any fun r => r.1.isOk
  | _ => false

/-- The connection is removed from the room by the step. -/
def removes (room : String) (st : Schedule.Step State Action) : Bool :=
  isIn room st.before && !isIn room st.after

theorem joins_iff {s s' : State} {a : Action} (ha : s.act a = some s') :
    joins ⟨s, a, s'⟩ = true ↔ s.phase = .joining ∧ s'.phase = .reading := by
  unfold joins
  cases a with
  | join exists' =>
    obtain ⟨hphase, ⟨hub, hj, rfl⟩ | ⟨e, hub, hj, rfl⟩⟩ := act_join ha <;>
      simp [hphase, hj, Except.isOk, Except.toBool]
  | event e now => simp [(act_event ha).1]
  | write =>
    obtain ⟨-, ⟨o, hub, -, rfl⟩ | ⟨o, hub, -, rfl⟩⟩ := act_write ha <;> simp +contextual
  | ping =>
    obtain ⟨-, rfl⟩ := act_ping ha
    simp +contextual
  | breakOff =>
    obtain ⟨-, rfl⟩ := act_breakOff ha
    simp +contextual
  | finish =>
    obtain ⟨e, hphase, -⟩ | ⟨hphase, -⟩ := act_finish ha <;> simp [hphase]
  | operate op =>
    obtain ⟨-, -, rfl⟩ := act_operate ha
    simp +contextual

/-- Whoever is inside is in the own room, and nobody else is in any. -/
theorem Sound.isIn_iff {s : State} {first : Option UInt16} (hs : s.Sound first) (room : String) :
    isIn room s = true ↔ (first = none ∧ s.phase = .reading) ∧ room = s.room := by
  rw [isIn, Hub.contains_iff]
  cases hs.stands with
  | coming hphase _ hc => simp [hphase, hc.not_mem hs.wellFormed]
  | inside hphase hi => simp [hphase, hi.mem_iff hs.wellFormed]
  | out _ _ ho =>
    obtain ⟨c, -, -, -, hout⟩ := ho
    simp [hout]

/-- A join that succeeds is no cause to end, and there has been none. -/
theorem Sound.cause?_of_joined {s s' : State} {first : Option UInt16} (hs : s.Sound first)
    {a : Action} (ha : s.act a = some s') (hphase : s.phase = .joining)
    (hphase' : s'.phase = .reading) : first.or (s.cause? a) = none := by
  cases hs.stands with
  | inside hp => simp [hphase] at hp
  | out hp => exact absurd hphase hp
  | coming _ _ hc =>
    rw [Option.none_or]
    cases a with
    | join exists' =>
      cases exists' with
      | true => rfl
      | false =>
        obtain ⟨h', hj', -⟩ := joinOrRefuse_of_isComing hs.wellFormed hc false
        obtain ⟨-, ⟨hub, hj, -⟩ | ⟨e, hub, -, rfl⟩⟩ := State.act_join ha
        · rw [hj'] at hj
          cases hj
        · cases hphase'
    | event e now => simp [(State.act_event ha).1] at hphase
    | operate op =>
      obtain ⟨-, -, rfl⟩ := State.act_operate ha
      rw [hphase] at hphase'
      cases hphase'
    | _ => rfl

/-- A connection comes into a room only as it joins its own. -/
theorem Sound.enters_iff {s s' : State} {first : Option UInt16} (hs : s.Sound first) {a : Action}
    (ha : s.act a = some s') (room : String) :
    (!isIn room s && isIn room s') = true ↔ joins ⟨s, a, s'⟩ = true ∧ room = s.room := by
  have hs' := hs.act ha
  rw [Bool.and_eq_true, Bool.not_eq_true', ← Bool.not_eq_true, hs.isIn_iff, hs'.isIn_iff,
    (act_same ha).2, joins_iff ha]
  constructor
  · rintro ⟨hout, ⟨hfirst, hphase'⟩, rfl⟩
    obtain ⟨rfl, -⟩ := Option.or_eq_none_iff.mp hfirst
    refine ⟨⟨?_, hphase'⟩, rfl⟩
    by_contra hphase
    cases hs.stands with
    | coming hp => exact hphase hp
    | inside hp => exact hout ⟨⟨rfl, hp⟩, rfl⟩
  · rintro ⟨⟨hphase, hphase'⟩, rfl⟩
    exact ⟨by simp [hphase], ⟨hs.cause?_of_joined ha hphase hphase', hphase'⟩, rfl⟩

/-! ### Whole runs -/

/-- The first cause to end among the actions of a run. -/
def firstCause (s : State) (acts : List Action) : Option UInt16 :=
  (Schedule.steps act s acts).findSome? fun st => st.before.cause? st.action

section Runs

variable {s s' : State} {acts : List Action}

theorem Sound.run {first : Option UInt16} (hs : s.Sound first) (hrun : s.run acts = some s') :
    s'.Sound (first.or (s.firstCause acts)) :=
  Schedule.run_keeps_first (fun hs ha => hs.act ha) hrun hs

theorem run_same (hrun : s.run acts = some s') : s'.id = s.id ∧ s'.room = s.room :=
  Schedule.run_keeps (P := fun s₁ => s₁.id = s.id ∧ s₁.room = s.room) (Q := fun _ => True)
    (fun hsame _ ha => ⟨(act_same ha).1.trans hsame.1, (act_same ha).2.trans hsame.2⟩) hrun
    ⟨rfl, rfl⟩ fun _ _ => trivial

theorem Sound.run_unattended {first : Option UInt16} (hs : s.Sound first)
    (hu : s.writing = .ended → IsUnattended s.hub s.id) (hrun : s.run acts = some s') :
    s'.writing = .ended → IsUnattended s'.hub s'.id := by
  have hkeeps : ∀ {s₁ a s₂}, ((∃ first, Sound s₁ first) ∧
      (s₁.writing = .ended → IsUnattended s₁.hub s₁.id)) → True → State.act s₁ a = some s₂ →
      (∃ first, Sound s₂ first) ∧ (s₂.writing = .ended → IsUnattended s₂.hub s₂.id) := by
    rintro s₁ a s₂ ⟨⟨first, hs₁⟩, hu₁⟩ - ha
    exact ⟨⟨_, hs₁.act ha⟩, hs₁.act_unattended hu₁ ha⟩
  exact (Schedule.run_keeps hkeeps hrun ⟨⟨first, hs⟩, hu⟩ fun _ _ => trivial).2

/-- Nothing holds a session up: from wherever it stands it can be brought to return. -/
theorem Sound.exists_return {first : Option UInt16} (hs : s.Sound first) :
    ∃ acts s', s.run acts = some s' ∧ s'.phase = .returned := by
  cases hphase : s.phase with
  | joining =>
    cases hs.stands with
    | inside hp => simp [hphase] at hp
    | out hp => exact absurd hphase hp
    | coming _ _ hc =>
      obtain ⟨h', hj, -⟩ := joinOrRefuse_of_isComing hs.wellFormed hc false
      exact ⟨[.join false, .finish], by simp [State.run, Schedule.run, State.act, hphase, hj]⟩
  | reading =>
    have hstop : ∀ now, (read s.hub s.id now .streamEnd).1 = false := by
      intro now
      rcases hs.reading hphase with ⟨-, hi⟩ | ⟨code, -, ho⟩
      · exact (read_of_isIn hs.wellFormed hi now .streamEnd).1
      · rw [read_of_isOut ho]
        rfl
    exact ⟨[.event .streamEnd .zero, .finish],
      by simp [State.run, Schedule.run, State.act, hphase, hstop]⟩
  | refused e => exact ⟨[.finish], by simp [State.run, Schedule.run, State.act, hphase]⟩
  | draining => exact ⟨[.finish], by simp [State.run, Schedule.run, State.act, hphase]⟩
  | returned => exact ⟨[], s, rfl, hphase⟩

/-- A connection joins once at most. -/
theorem countP_joins (s : State) (acts : List Action) :
    (Schedule.steps act s acts).countP joins =
      if (Schedule.steps act s acts).any joins then 1 else 0 := by
  have hle : (Schedule.steps act s acts).countP joins ≤ 1 := by
    refine Schedule.countP_le_one (P := fun s => s.phase = .joining) act_phase
      (fun {st} ha hj => ?_) s acts
    obtain ⟨hbefore, hafter⟩ := (joins_iff ha).mp hj
    exact ⟨hbefore, by simp [hafter]⟩
  split
  · rename_i hany
    have hpos := List.countP_pos_iff.mpr (List.any_eq_true.mp hany)
    omega
  · rename_i hany
    refine List.countP_eq_zero.mpr fun st hst hj => hany ?_
    exact List.any_eq_true.mpr ⟨st, hst, hj⟩

/-- A connection that is in no room at the start and at the end has been removed from its own room
as often as it has joined it, and from no other. -/
theorem Sound.countP_removes {first : Option UInt16} (hs : s.Sound first)
    (hrun : s.run acts = some s') {room : String} (hstart : isIn room s = false)
    (hend : isIn room s' = false) :
    (Schedule.steps State.act s acts).countP (removes room) =
      if room = s.room ∧ (Schedule.steps State.act s acts).any joins then 1 else 0 := by
  have hkeeps : ∀ {s₁ a s₂}, ((∃ first, Sound s₁ first) ∧ s₁.room = s.room) →
      State.act s₁ a = some s₂ → (∃ first, Sound s₂ first) ∧ s₂.room = s.room := by
    rintro s₁ a s₂ ⟨⟨first, hs₁⟩, hroom⟩ ha
    exact ⟨⟨_, hs₁.act ha⟩, (act_same ha).2.trans hroom⟩
  -- it has left the room as often as it has come into it, and it has come only by joining
  have hcount := Schedule.countP_ends (isIn room) hrun
  rw [hstart, hend] at hcount
  have henters : (Schedule.steps State.act s acts).countP
      (fun st => !isIn room st.before && isIn room st.after) =
      (Schedule.steps State.act s acts).countP fun st => joins st && decide (room = s.room) := by
    refine List.countP_congr fun st hst => ?_
    obtain ⟨⟨⟨first, hs₁⟩, hroom⟩, ha⟩ :=
      Schedule.forall_steps (P := fun s₁ => (∃ first, Sound s₁ first) ∧ s₁.room = s.room) hkeeps
        ⟨⟨first, hs⟩, rfl⟩ hst
    rw [hs₁.enters_iff ha, hroom]
    simp
  rw [henters] at hcount
  refine hcount.trans ?_
  by_cases e : room = s.room
  · simpa [e] using countP_joins s acts
  · simp [e]

end Runs

end State

/-- **How a session ends.** Take a session whose connection is opened at a hub at any time, and any
run of it among others. It can go on so that it returns. When it has returned, there was a cause to
end, and the connection is closed with the code of the first one, is in no room, and has been
removed once from its own room if it joined that, and never otherwise. From the first cause on,
whatever follows, the connection stays closed with that code, each close frame that the session has
sent or sends carries it, and a text that is read changes nothing any more. Before the first cause
no close frame is sent. Causes come in the order in which they are handled, and the end of the
writing side is handled when the reading side finds it: until then, if there has been no cause,
whatever others send to the room closes the connection as one that is too slow. -/
theorem ends_by_first_cause {ops : List Hub.Operation}
    (hops : Hub.obeys Hub.Operation.isFresh .empty ops = true) {id : Uuid}
    (hid : (Hub.empty.run ops).connection? id = none) (identity : Identity) (room : String)
    (capacity : Nat) {acts : List Action} {s : State}
    (hrun : (State.opened (Hub.empty.run ops) id identity room capacity).run acts = some s) :
    let s₀ := State.opened (Hub.empty.run ops) id identity room capacity
    let steps := Schedule.steps State.act s₀ acts
    (∃ more s', s.run more = some s' ∧ s'.phase = .returned) ∧
    (s.phase = .returned →
      (∃ c, s.hub.connection? id = some c ∧ c.state = .closed ∧
        s₀.firstCause acts = some c.closeCode) ∧
      (∀ room', s.hub.contains room' id = false) ∧
      ∀ room', steps.countP (State.removes room') =
        if room' = room ∧ steps.any State.joins then 1 else 0) ∧
    (∀ code, s₀.firstCause acts = some code → ∀ more s', s.run more = some s' →
      (∃ c, s'.hub.connection? id = some c ∧ c.state = .closed ∧ c.closeCode = code) ∧
      (∀ code', Outbound.close code' ∈ s'.sent → code' = code) ∧
      ∀ raw now s'', s'.act (.event (.text raw) now) = some s'' → s'' = s') ∧
    (s₀.firstCause acts = none → (∀ code, Outbound.close code ∉ s.sent) ∧
      (s.writing = .ended → ∀ op x, Hub.Operation.sending s.hub op = some x → x.room = room →
        x.exclude ≠ some id → s.cause? (.operate op) = some CloseCode.tryAgainLater)) := by
  intro s₀ steps
  have hw := Hub.wellFormed_empty.run hops
  have hopened := State.sound_opened hw hid identity room capacity
  have hs := hopened.run hrun
  obtain ⟨hsame, hroom⟩ := State.run_same hrun
  rw [Option.none_or] at hs
  refine ⟨hs.exists_return, fun hphase => ?_, fun code hfirst more s' hmore => ?_,
    fun hfirst => ⟨fun code hsent => ?_, fun hended op x hx hto hexclude => ?_⟩⟩
  · obtain ⟨code, hfirst, ⟨c, hc, hclosed, hcode, hout⟩, -⟩ :=
      hs.over (by simp [hphase]) (by simp [hphase])
    rw [hsame] at hc hout
    have hgone : ∀ room', s.hub.contains room' id = false := by
      intro room'
      rw [← Bool.not_eq_true, Hub.contains_iff]
      exact hout room'
    refine ⟨⟨c, hc, hclosed, hcode ▸ hfirst⟩, hgone, fun room' => ?_⟩
    refine hopened.countP_removes hrun ?_ ?_
    · rw [← Bool.not_eq_true, hopened.isIn_iff]
      simp [State.opened]
    · rw [State.isIn, hsame]
      exact hgone room'
  · have hs' := hs.run hmore
    obtain ⟨hsame', -⟩ := State.run_same hmore
    have hfirst' : (s₀.firstCause acts).or (s.firstCause more) = some code := by
      rw [hfirst]
      rfl
    obtain ⟨c, hc, hclosed, hcode, -⟩ := hs'.isOut hfirst'
    rw [hsame', hsame] at hc
    refine ⟨⟨c, hc, hclosed, hcode⟩, fun code' hsent => ?_, fun raw now s'' ha => ?_⟩
    · exact Option.some.inj ((hs'.sent code' hsent).symm.trans hfirst')
    · exact hs'.eq_of_text hfirst' ha
  · exact absurd (hs.sent code hsent) (by simp [s₀, hfirst])
  · have hnone : s.Sound none := hfirst ▸ hs
    have hu := hopened.run_unattended (fun h => by cases h) hrun hended
    exact hnone.cause?_of_sending hended hu hx (hto.trans hroom.symm) (by rwa [hsame])

/-- A session with place for one message, to whose room two are sent. The client is told of the
first before it is told why it is cut off; what it sends meanwhile is not heard. -/
def slowRun : List Action :=
  [.join true, .operate (.broadcast "lab" ⟨"lab", "first", "u0", "Bot", .zero⟩ none),
    .operate (.broadcast "lab" ⟨"lab", "second", "u0", "Bot", .zero⟩ none),
    .event (.text "late") .zero, .write, .write, .event .writerEnded .zero, .finish]

theorem ends_by_first_cause_slow :
    let s₀ := State.opened (Hub.empty.run []) ⟨1⟩ ⟨"u1", "Ada"⟩ "lab" 1
    ∃ s, s₀.run slowRun = some s ∧ s.phase = .returned ∧
      (∃ c, s.hub.connection? ⟨1⟩ = some c ∧ c.state = .closed ∧
        c.closeCode = CloseCode.tryAgainLater) ∧
      (Schedule.steps State.act s₀ slowRun).countP (State.removes "lab") = 1 ∧
      Outbound.close CloseCode.tryAgainLater ∈ s.sent ∧
      ∀ code, Outbound.close code ∈ s.sent → code = CloseCode.tryAgainLater := by
  intro s₀
  have hfirst : s₀.firstCause slowRun = some CloseCode.tryAgainLater := by decide
  have hjoins : (Schedule.steps State.act s₀ slowRun).any State.joins = true := by decide
  have hend : (s₀.run slowRun).any (fun s => s.phase = .returned ∧
      Outbound.close CloseCode.tryAgainLater ∈ s.sent) = true := by decide
  obtain ⟨s, hrun, hs⟩ := (Option.any_eq_true _ _).mp hend
  obtain ⟨hphase, hsent⟩ := of_decide_eq_true hs
  obtain ⟨-, hreturned, hlater, -⟩ :=
    @ends_by_first_cause [] rfl ⟨1⟩ rfl ⟨"u1", "Ada"⟩ "lab" 1 slowRun s hrun
  obtain ⟨-, -, hremoved⟩ := hreturned hphase
  obtain ⟨hclosed, hcode, -⟩ := hlater _ hfirst [] s rfl
  exact ⟨s, hrun, hphase, hclosed, (hremoved "lab").trans (if_pos ⟨rfl, hjoins⟩), hsent, hcode⟩

/-- The code that an action would give a session if the failure of the transport counted as it
happens. -/
def State.eagerCause? (s : State) : Action → Option UInt16
  | .breakOff => some CloseCode.internalError
  | a => s.cause? a

/-- The transport of a session fails, and its room is sent an envelope before that is found out. -/
def brokenRun : List Action :=
  [.join true, .breakOff, .operate (.broadcast "lab" ⟨"lab", "first", "u0", "Bot", .zero⟩ none),
    .event .writerEnded .zero, .finish]

/-- The failure of the transport comes first and the connection is closed with another code: the
envelope that comes before the failure is found out is what closes it. Without that envelope it is
closed with the code of an error. -/
theorem delivery_comes_before_discovery :
    let s₀ := State.opened (Hub.empty.run []) ⟨1⟩ ⟨"u1", "Ada"⟩ "lab" 1
    let closedWith (acts : List Action) (code : UInt16) : Bool := (s₀.run acts).any fun s =>
      s.phase = .returned ∧ (s.hub.connection? ⟨1⟩).any fun c =>
        c.state = .closed ∧ c.closeCode = code
    ((Schedule.steps State.act s₀ brokenRun).findSome? fun st => st.before.eagerCause? st.action) =
        some CloseCode.internalError ∧
      closedWith brokenRun CloseCode.tryAgainLater ∧
      ¬closedWith brokenRun CloseCode.internalError ∧
      closedWith (brokenRun.eraseIdx 2) CloseCode.internalError := by
  decide

end ChatRooms.Session

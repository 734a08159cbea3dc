import ChatRooms.Proofs.Schedule
import ChatRooms.Proofs.Hub.Handle
import ChatRooms.Session.Writer

/-!
The writing side of a session, one step at a time. It waits for whatever comes first, an envelope,
the end of the queue or the next ping, and gives it to the transport, which takes its time; in the
meantime anything may happen at the hub. The queue is closed by the removal of the connection, while
envelopes may still be in it. `Stands` says how what has been written, what is under way and what
waits add up to all that was put into the queue, and `Sound.act` that every step keeps this.
-/

namespace ChatRooms.WriteLoop

open ChatRooms.Session

/-- Where the writing side stands. -/
inductive Stage where
  | waiting
  /-- the transport has been given something, and the loop goes on after it -/
  | sending (o : Outbound)
  /-- the transport has been given the last thing -/
  | closing (o : Outbound)
  | ended
  /-- the transport has failed, or the time for the rest is over -/
  | brokenOff
deriving DecidableEq

/-- What has been given to the transport and is not written yet. -/
def Stage.underWay : Stage → List Outbound
  | .sending o | .closing o => [o]
  | .waiting | .ended | .brokenOff => []

/-- The writing side of one connection. -/
structure State where
  id : Uuid
  hub : Hub
  stage : Stage
  /-- what the transport has taken, in order -/
  written : List Outbound
deriving DecidableEq

inductive Action where
  /-- what is next in the queue, or its end, is taken -/
  | take
  /-- a ping is due -/
  | tick
  /-- the transport has taken what was given to it -/
  | complete
  | fail
  /-- the time after the end of the reading side is over -/
  | giveUp
  /-- somebody works at the hub -/
  | operate (op : Hub.Operation)
  /-- somebody is halfway through an operation -/
  | half (p : Hub.Half)
deriving DecidableEq

/-- The operation is not one of the writing side, nor the join, which is over. -/
def isElsewhere (id : Uuid) : Hub.Operation → Bool
  | .join id' .. | .receive id' | .dropReceiver id' => id' ≠ id
  | _ => true

theorem ne_of_isElsewhere {id : Uuid} {op : Hub.Operation} (he : isElsewhere id op = true) :
    op ≠ .receive id ∧ op ≠ .dropReceiver id ∧ ∀ room exists', op ≠ .join id room exists' := by
  refine ⟨?_, ?_, fun room exists' => ?_⟩ <;>
  · rintro rfl
    simp [isElsewhere] at he

namespace State

/-- The writing side of a connection that has joined. -/
def start (h : Hub) (id : Uuid) : State := ⟨id, h, .waiting, []⟩

/-- All that has been given to the transport. -/
def begun (s : State) : List Outbound := s.written ++ s.stage.underWay

/-- The loop is over before its end. -/
def broken (s : State) : State :=
  { s with hub := (s.hub.step (.dropReceiver s.id)).2, stage := .brokenOff }

/-- Carries out an action, if it is due. -/
def act (s : State) : Action → Option State
  | .take =>
    if s.stage = .waiting then
      match takeNext s.hub s.id with
      | some (.send o, hub) => some { s with hub, stage := .sending o }
      | some (.sendLast o, hub) => some { s with hub, stage := .closing o }
      | _ => none
    else none
  | .tick => if s.stage = .waiting then some { s with stage := .sending .ping } else none
  | .complete =>
    match s.stage with
    | .sending o => some { s with stage := .waiting, written := s.written ++ [o] }
    | .closing o =>
      some { s with
        hub := (s.hub.step (.dropReceiver s.id)).2, stage := .ended, written := s.written ++ [o] }
    | _ => none
  | .fail =>
    match s.stage with
    | .sending _ | .closing _ => some s.broken
    | _ => none
  | .giveUp =>
    match s.stage with
    | .waiting | .sending _ | .closing _ => some s.broken
    | _ => none
  | .operate op =>
    if op.isFresh s.hub && isElsewhere s.id op then some { s with hub := (s.hub.step op).2 }
    else none
  | .half p => if p.isOrderly s.hub then some { s with hub := s.hub.half p } else none

/-- Carries out actions in order, if each is due. -/
abbrev run (s : State) (acts : List Action) : Option State := Schedule.run act s acts

/-! ### The queue -/

/-- What is next is taken out of the queue. -/
theorem queue_receive_cons {h : Hub} {id : Uuid} {e : Envelope} {rest : List Envelope}
    (hq : h.queue id = e :: rest) : (h.step (.receive id)).2.queue id = rest := by
  have htail := Hub.queue_receive (h := h) id id
  rw [if_pos rfl, hq] at htail
  exact htail

/-- Work elsewhere only puts envelopes at the end of the queue. -/
theorem queue_operate {h : Hub} (hw : h.WellFormed) {id : Uuid} {op : Hub.Operation}
    (hfresh : op.isFresh h = true) (helsewhere : isElsewhere id op = true) :
    (h.step op).2.queue id = h.queue id ++ Hub.placedBy id h op := by
  obtain ⟨hreceive, hdrop, -⟩ := ne_of_isElsewhere helsewhere
  have hqueue := Hub.queue_conserved hw hfresh id hdrop
  rw [Hub.receivedBy_of_ne h hreceive, List.nil_append] at hqueue
  exact hqueue

/-- A loop that waits has given nothing to the transport that is not written. -/
theorem begun_of_waiting {s : State} (hwaiting : s.stage = .waiting) : s.begun = s.written := by
  simp [begun, hwaiting, Stage.underWay]

/-! ### What each action does -/

section Inversion

variable {s s' : State}

/-- What is next: the first envelope that waits, or, once the queue has ended, the code of the
connection. -/
theorem act_take_eq {c : Connection} (hid : s.hub.connection? s.id = some c)
    (hwaiting : s.stage = .waiting) :
    s.act .take =
      match c.queue with
      | e :: _ => some { s with
          hub := (s.hub.step (.receive s.id)).2, stage := .sending (.text e.encode) }
      | [] =>
        if c.hasSender then none
        else some { s with
          hub := (s.hub.step (.receive s.id)).2, stage := .closing (.close c.closeCode) } := by
  have htaken : ∀ c, (writerAction c).2 = c.receive.2 := by
    intro c
    unfold writerAction
    split <;> rename_i hr <;> rw [hr]
  rw [act, if_pos hwaiting, takeNext, hid, Option.map_some, Hub.step_receive hid]
  simp only [htaken]
  unfold writerAction Connection.receive
  cases c.queue with
  | cons e rest => rfl
  | nil => cases c.hasSender <;> rfl

theorem act_take (ha : s.act .take = some s') : s.stage = .waiting ∧
    ((∃ e rest, s.hub.queue s.id = e :: rest ∧ s' = { s with
        hub := (s.hub.step (.receive s.id)).2, stage := .sending (.text e.encode) }) ∨
      ∃ c, s.hub.connection? s.id = some c ∧ s.hub.queue s.id = [] ∧ c.hasSender = false ∧
        s' = { s with
          hub := (s.hub.step (.receive s.id)).2, stage := .closing (.close c.closeCode) }) := by
  have hwaiting : s.stage = .waiting := by
    rw [act] at ha
    split at ha
    · assumption
    · cases ha
  refine ⟨hwaiting, ?_⟩
  cases hid : s.hub.connection? s.id with
  | none => simp [act, takeNext, hid] at ha
  | some c =>
    rw [act_take_eq hid hwaiting] at ha
    have hqueue : s.hub.queue s.id = c.queue := by simp [Hub.queue, hid]
    cases hq : c.queue with
    | cons e rest =>
      rw [hq] at ha
      cases ha
      exact .inl ⟨e, rest, hqueue.trans hq, rfl⟩
    | nil =>
      rw [hq] at ha
      dsimp only at ha
      split at ha
      · cases ha
      · rename_i hsender
        cases ha
        exact .inr ⟨c, rfl, hqueue.trans hq, by simpa using hsender, rfl⟩

theorem act_tick (ha : s.act .tick = some s') :
    s.stage = .waiting ∧ s' = { s with stage := .sending .ping } := by
  rw [act] at ha
  split at ha
  · rename_i hwaiting
    exact ⟨hwaiting, (Option.some.inj ha).symm⟩
  · cases ha

theorem act_complete (ha : s.act .complete = some s') :
    (∃ o, s.stage = .sending o ∧
      s' = { s with stage := .waiting, written := s.written ++ [o] }) ∨
    ∃ o, s.stage = .closing o ∧ s' = { s with
      hub := (s.hub.step (.dropReceiver s.id)).2, stage := .ended
      written := s.written ++ [o] } := by
  rw [act] at ha
  split at ha
  · rename_i o hstage
    exact .inl ⟨o, hstage, (Option.some.inj ha).symm⟩
  · rename_i o hstage
    exact .inr ⟨o, hstage, (Option.some.inj ha).symm⟩
  · cases ha

/-- A loop breaks off only before its end. -/
theorem act_broken {a : Action} (hb : a = .fail ∨ a = .giveUp) (ha : s.act a = some s') :
    s.stage ≠ .ended ∧ s' = s.broken := by
  rcases hb with rfl | rfl <;>
  · rw [act] at ha
    cases hstage : s.stage <;> rw [hstage] at ha <;> cases ha <;> simp

theorem act_operate {op : Hub.Operation} (ha : s.act (.operate op) = some s') :
    op.isFresh s.hub = true ∧ isElsewhere s.id op = true ∧
      s' = { s with hub := (s.hub.step op).2 } := by
  rw [act] at ha
  split at ha
  · rename_i hdue
    rw [Bool.and_eq_true] at hdue
    exact ⟨hdue.1, hdue.2, (Option.some.inj ha).symm⟩
  · cases ha

theorem act_half {p : Hub.Half} (ha : s.act (.half p) = some s') :
    p.isOrderly s.hub = true ∧ s' = { s with hub := s.hub.half p } := by
  rw [act] at ha
  split at ha
  · rename_i hdue
    exact ⟨hdue, (Option.some.inj ha).symm⟩
  · cases ha

theorem act_id {a : Action} (ha : s.act a = some s') : s'.id = s.id := by
  cases a with
  | take => obtain ⟨-, ⟨e, rest, -, rfl⟩ | ⟨c, -, -, -, rfl⟩⟩ := act_take ha <;> rfl
  | tick =>
    obtain ⟨-, rfl⟩ := act_tick ha
    rfl
  | complete => obtain ⟨o, -, rfl⟩ | ⟨o, -, rfl⟩ := act_complete ha <;> rfl
  | fail =>
    obtain ⟨-, rfl⟩ := act_broken (.inl rfl) ha
    rfl
  | giveUp =>
    obtain ⟨-, rfl⟩ := act_broken (.inr rfl) ha
    rfl
  | operate op =>
    obtain ⟨-, -, rfl⟩ := act_operate ha
    rfl
  | half p =>
    obtain ⟨-, rfl⟩ := act_half ha
    rfl

/-- Only a failure, or the end of its time, breaks the loop off. -/
theorem act_unbroken {a : Action} (hs : s.stage ≠ .brokenOff) (hgood : a ≠ .fail ∧ a ≠ .giveUp)
    (ha : s.act a = some s') : s'.stage ≠ .brokenOff := by
  cases a with
  | take =>
    obtain ⟨-, ⟨e, rest, -, rfl⟩ | ⟨c, -, -, -, rfl⟩⟩ := act_take ha <;> exact Stage.noConfusion
  | tick =>
    obtain ⟨-, rfl⟩ := act_tick ha
    exact Stage.noConfusion
  | complete => obtain ⟨o, -, rfl⟩ | ⟨o, -, rfl⟩ := act_complete ha <;> exact Stage.noConfusion
  | fail => exact absurd rfl hgood.1
  | giveUp => exact absurd rfl hgood.2
  | operate op =>
    obtain ⟨-, -, rfl⟩ := act_operate ha
    exact hs
  | half p =>
    obtain ⟨-, rfl⟩ := act_half ha
    exact hs

theorem run_id {acts : List Action} (hrun : s.run acts = some s') : s'.id = s.id :=
  Schedule.run_keeps (P := fun s' => s'.id = s.id) (Q := fun _ => True)
    (fun hid _ ha => (act_id ha).trans hid) hrun rfl fun _ _ => trivial

end Inversion

end State

/-! ### What is put into the queue, and what is written -/

/-- What a step puts into the queue. -/
def enqueuedBy (st : Schedule.Step State Action) : List Envelope :=
  match st.action with
  | .operate op => Hub.placedBy st.before.id st.before.hub op
  | _ => []

/-- All that has been put into the queue: what waited at the start, and what came since. -/
def enqueued (s : State) (acts : List Action) : List Envelope :=
  s.hub.queue s.id ++ (Schedule.steps State.act s acts).flatMap enqueuedBy

/-- The text frames among what has been sent. -/
def texts (os : List Outbound) : List String :=
  os.filterMap fun
    | .text frame => some frame
    | _ => none

theorem texts_append (os os' : List Outbound) : texts (os ++ os') = texts os ++ texts os' :=
  List.filterMap_append

/-- There are only text frames and pings. -/
def IsPlain (os : List Outbound) : Prop := ∀ code, Outbound.close code ∉ os

theorem IsPlain.append_singleton {os : List Outbound} (hp : IsPlain os) {o : Outbound}
    (ho : ∀ code, o ≠ .close code) : IsPlain (os ++ [o]) := by
  intro code hin
  rcases List.mem_append.mp hin with hin | hin
  · exact hp code hin
  · exact ho code (List.mem_singleton.mp hin).symm

theorem IsPlain.of_append {os os' : List Outbound} (hp : IsPlain (os ++ os')) : IsPlain os :=
  fun code hin => hp code (List.mem_append_left _ hin)

/-- How far the loop has come with the envelopes that have been put into the queue. While it runs,
what was begun and what waits are all of them; it closes when none waits and none can come any more;
and if it breaks off, only the last ones are missing. -/
inductive Stands (s : State) (all : List Envelope) : Prop where
  | running : s.stage = .waiting ∨ (∃ o, s.stage = .sending o) → IsPlain s.begun →
      texts s.begun ++ (s.hub.queue s.id).map Envelope.encode = all.map Envelope.encode →
      Stands s all
  | finishing {body : List Outbound} {code : UInt16} :
      (∃ o, s.stage = .closing o) ∨ s.stage = .ended → s.hub.IsRemoved s.id code →
      s.begun = body ++ [.close code] → IsPlain body → texts body = all.map Envelope.encode →
      Stands s all
  | brokenOff : s.stage = .brokenOff → IsPlain s.written →
      texts s.written <+: all.map Envelope.encode → Stands s all

/-- What holds of the loop at every time. -/
structure Sound (s : State) (all : List Envelope) : Prop where
  wellFormed : s.hub.WellFormed
  handled : s.hub.IsHandled s.id
  stands : Stands s all

theorem sound_start {h : Hub} (hw : h.WellFormed) {id : Uuid} (hh : h.IsHandled id) :
    Sound (State.start h id) (h.queue id) := by
  refine ⟨hw, hh, .running (.inl rfl) ?_ rfl⟩
  intro code hin
  cases hin

namespace Sound

open WriteLoop.State

variable {s s' : State} {all : List Envelope} (hs : Sound s all)

include hs

/-- What was begun, as long as the loop runs. -/
theorem running (hrunning : s.stage = .waiting ∨ ∃ o, s.stage = .sending o) : IsPlain s.begun ∧
    texts s.begun ++ (s.hub.queue s.id).map Envelope.encode = all.map Envelope.encode := by
  cases hs.stands with
  | running _ hplain hall => exact ⟨hplain, hall⟩
  | finishing hstage =>
    rcases hstage with ⟨o, hstage⟩ | hstage <;> simp [hstage] at hrunning
  | brokenOff hstage => simp [hstage] at hrunning

/-- The loop itself takes from the queue, and gives it up in the end. -/
theorem step_receiver {op : Hub.Operation} (hop : op = .receive s.id ∨ op = .dropReceiver s.id) :
    op.isFresh s.hub = true ∧ (s.hub.step op).2.WellFormed ∧
      (s.hub.step op).2.IsHandled s.id := by
  have hfresh : op.isFresh s.hub = true := by
    rcases hop with rfl | rfl <;> rfl
  refine ⟨hfresh, hs.wellFormed.step hfresh, hs.handled.step hs.wellFormed hfresh ?_⟩
  rintro room exists' rfl
  simp at hop

/-- What was begun, once the last thing was. -/
theorem finishing (hfinishing : (∃ o, s.stage = .closing o) ∨ s.stage = .ended) :
    ∃ body code, s.hub.IsRemoved s.id code ∧ s.begun = body ++ [.close code] ∧ IsPlain body ∧
      texts body = all.map Envelope.encode := by
  cases hs.stands with
  | running hstage => rcases hstage with hstage | ⟨o, hstage⟩ <;> simp [hstage] at hfinishing
  | finishing _ hr hbody hplain hall => exact ⟨_, _, hr, hbody, hplain, hall⟩
  | brokenOff hstage => simp [hstage] at hfinishing

/-- A close frame is under way only after everything else has been written. -/
theorem of_closing {o : Outbound} (hclosing : s.stage = .closing o) :
    IsPlain s.written ∧ texts s.written = all.map Envelope.encode := by
  obtain ⟨body, code, -, hbody, hplain, hall⟩ := hs.finishing (.inl ⟨o, hclosing⟩)
  have hwritten : s.written = body := by
    rw [begun, hclosing] at hbody
    exact List.append_inj_left' hbody rfl
  rw [hwritten]
  exact ⟨hplain, hall⟩

/-- Before the end, what has been written is a beginning of all. -/
theorem of_not_ended (hended : s.stage ≠ .ended) :
    IsPlain s.written ∧ texts s.written <+: all.map Envelope.encode := by
  cases hs.stands with
  | running _ hplain hall =>
    refine ⟨hplain.of_append, texts s.stage.underWay ++ (s.hub.queue s.id).map Envelope.encode, ?_⟩
    rw [← hall, begun, texts_append, List.append_assoc]
  | finishing hstage =>
    obtain ⟨o, hclosing⟩ := hstage.resolve_right hended
    obtain ⟨hplain, hall⟩ := hs.of_closing hclosing
    rw [hall]
    exact ⟨hplain, List.prefix_rfl⟩
  | brokenOff _ hplain hall => exact ⟨hplain, hall⟩

theorem act_take (ha : s.act .take = some s') : Sound s' all := by
  obtain ⟨hfresh, hw', hh'⟩ := hs.step_receiver (.inl rfl)
  obtain ⟨hwaiting, hcases⟩ := State.act_take ha
  obtain ⟨hplain, hall⟩ := hs.running (.inl hwaiting)
  rw [begun_of_waiting hwaiting] at hplain hall
  rcases hcases with ⟨e, rest, hq, rfl⟩ | ⟨c, hid, hq, hsender, rfl⟩
  · refine ⟨hw', hh', .running (.inr ⟨_, rfl⟩) ?_ ?_⟩
    · exact hplain.append_singleton fun code e => by cases e
    · rw [hq, List.map_cons] at hall
      dsimp only [begun, Stage.underWay]
      rw [queue_receive_cons hq, texts_append, ← hall, List.append_assoc]
      rfl
  · -- the handle is gone, so that the connection has been closed before
    have hclosed : c.state = .closed := by
      obtain ⟨c', hid', hthere | hclosed⟩ := hs.handled
      · rw [hid] at hid'
        cases hid'
        rw [hsender] at hthere
        cases hthere
      · rw [hid] at hid'
        cases hid'
        exact hclosed
    have hremoved : s.hub.IsRemoved s.id c.closeCode := ⟨c, hid, hsender, hclosed, rfl⟩
    refine ⟨hw', hh', .finishing (.inl ⟨_, rfl⟩) (hremoved.step hs.wellFormed hfresh) rfl
      hplain ?_⟩
    rw [hq, List.map_nil, List.append_nil] at hall
    exact hall

theorem act_tick (ha : s.act .tick = some s') : Sound s' all := by
  obtain ⟨hwaiting, rfl⟩ := State.act_tick ha
  obtain ⟨hplain, hall⟩ := hs.running (.inl hwaiting)
  rw [begun_of_waiting hwaiting] at hplain hall
  refine ⟨hs.wellFormed, hs.handled, .running (.inr ⟨_, rfl⟩) ?_ ?_⟩
  · exact hplain.append_singleton fun code e => by cases e
  · dsimp only [begun, Stage.underWay]
    rw [texts_append, ← hall]
    simp [texts]

theorem act_complete (ha : s.act .complete = some s') : Sound s' all := by
  obtain ⟨hfresh, hw', hh'⟩ := hs.step_receiver (.inr rfl)
  rcases State.act_complete ha with ⟨o, hstage, rfl⟩ | ⟨o, hstage, rfl⟩
  · have hsame : State.begun { s with stage := .waiting, written := s.written ++ [o] } =
        s.begun := by
      simp [begun, hstage, Stage.underWay]
    obtain ⟨hplain, hall⟩ := hs.running (.inr ⟨o, hstage⟩)
    refine ⟨hs.wellFormed, hs.handled, .running (.inl rfl) ?_ ?_⟩
    · rw [hsame]
      exact hplain
    · rw [hsame]
      exact hall
  · have hbegun : s.begun = s.written ++ [o] := by simp [begun, hstage, Stage.underWay]
    cases hs.stands with
    | running hrunning => simp [hstage] at hrunning
    | brokenOff hbroken => simp [hstage] at hbroken
    | finishing _ hremoved hbody hplain hall =>
      refine ⟨hw', hh', .finishing (.inr rfl) (hremoved.step hs.wellFormed hfresh) ?_ hplain
        hall⟩
      rw [← hbody, hbegun]
      exact List.append_nil _

theorem act_broken {a : Action} (hb : a = .fail ∨ a = .giveUp) (ha : s.act a = some s') :
    Sound s' all := by
  obtain ⟨hended, rfl⟩ := State.act_broken hb ha
  obtain ⟨-, hw', hh'⟩ := hs.step_receiver (.inr rfl)
  obtain ⟨hplain, hall⟩ := hs.of_not_ended hended
  exact ⟨hw', hh', .brokenOff rfl hplain hall⟩

/-- Work at the hub puts envelopes at the end of the queue, and none any more once the connection
has been removed. -/
theorem act_operate {op : Hub.Operation} (ha : s.act (.operate op) = some s') :
    Sound s' (all ++ Hub.placedBy s.id s.hub op) := by
  obtain ⟨hfresh, helsewhere, rfl⟩ := State.act_operate ha
  obtain ⟨-, -, hj⟩ := ne_of_isElsewhere helsewhere
  refine ⟨hs.wellFormed.step hfresh, hs.handled.step hs.wellFormed hfresh hj, ?_⟩
  cases hs.stands with
  | running hstage hplain hall =>
    refine .running hstage hplain ?_
    dsimp only
    rw [queue_operate hs.wellFormed hfresh helsewhere, List.map_append, List.map_append, ← hall,
      List.append_assoc]
    rfl
  | finishing hstage hremoved hbody hplain hall =>
    refine .finishing hstage (hremoved.step hs.wellFormed hfresh) hbody hplain ?_
    rw [Hub.placedBy_of_isClosed hs.wellFormed hremoved.isClosed hfresh, List.append_nil]
    exact hall
  | brokenOff hstage hplain hall =>
    refine .brokenOff hstage hplain (hall.trans ?_)
    rw [List.map_append]
    exact List.prefix_append _ _

theorem act_half {p : Hub.Half} (ha : s.act (.half p) = some s') : Sound s' all := by
  obtain ⟨horderly, rfl⟩ := State.act_half ha
  refine ⟨hs.wellFormed.half p, hs.handled.half horderly, ?_⟩
  cases hs.stands with
  | running hstage hplain hall =>
    refine .running hstage hplain ?_
    dsimp only
    rw [Hub.queue_half]
    exact hall
  | finishing hstage hremoved hbody hplain hall =>
    exact .finishing hstage (hremoved.half p) hbody hplain hall
  | brokenOff hstage hplain hall => exact .brokenOff hstage hplain hall

/-- **One step of the loop.** -/
theorem act {a : Action} (ha : s.act a = some s') : Sound s' (all ++ enqueuedBy ⟨s, a, s'⟩) := by
  cases a with
  | operate op => exact hs.act_operate ha
  | take => simpa [enqueuedBy] using hs.act_take ha
  | tick => simpa [enqueuedBy] using hs.act_tick ha
  | complete => simpa [enqueuedBy] using hs.act_complete ha
  | fail => simpa [enqueuedBy] using hs.act_broken (.inl rfl) ha
  | giveUp => simpa [enqueuedBy] using hs.act_broken (.inr rfl) ha
  | half p => simpa [enqueuedBy] using hs.act_half ha

theorem run {acts : List Action} (hrun : s.run acts = some s') :
    Sound s' (all ++ (Schedule.steps State.act s acts).flatMap enqueuedBy) :=
  Schedule.run_keeps_all (fun hs ha => hs.act ha) hrun hs

/-- At the end the close frame is the last one, with the code that the connection was closed with.
-/
theorem of_ended (hended : s.stage = .ended) : ∃ body c, s.written = body ++ [.close c.closeCode] ∧
    IsPlain body ∧ texts body = all.map Envelope.encode ∧ s.hub.connection? s.id = some c ∧
    c.state = .closed ∧ c.hasSender = false := by
  obtain ⟨body, code, ⟨c, hid, hsender, hclosed, rfl⟩, hbody, hplain, hall⟩ :=
    hs.finishing (.inr hended)
  have hwritten : s.written = body ++ [.close c.closeCode] := by
    rw [← hbody, begun, hended]
    exact (List.append_nil _).symm
  exact ⟨body, c, hwritten, hplain, hall, hid, hclosed, hsender⟩

end Sound

/-! ### After the removal, and after the end -/

/-- The loop is over. -/
def State.isOver (s : State) : Prop := s.stage = .ended ∨ s.stage = .brokenOff

/-- Nothing is written once the loop is over. -/
theorem State.act_of_isOver {s s' : State} {a : Action} (hover : s.isOver)
    (ha : s.act a = some s') : s'.isOver ∧ s'.written = s.written := by
  cases a with
  | operate op =>
    obtain ⟨-, -, rfl⟩ := State.act_operate ha
    exact ⟨hover, rfl⟩
  | half p =>
    obtain ⟨-, rfl⟩ := State.act_half ha
    exact ⟨hover, rfl⟩
  | _ => rcases hover with hstage | hstage <;> simp [act, hstage] at ha

/-- How many times the loop can still take from the queue, if nothing more is put into it. -/
def State.left (s : State) : Nat :=
  match s.stage with
  | .waiting | .sending _ => (s.hub.queue s.id).length + 1
  | .closing _ | .ended | .brokenOff => 0

theorem State.run_of_isOver {s s' : State} {acts : List Action} (hover : s.isOver)
    (hrun : s.run acts = some s') : s'.isOver ∧ s'.written = s.written := by
  refine Schedule.run_keeps (P := fun s' => s'.isOver ∧ s'.written = s.written)
    (Q := fun _ => True) ?_ hrun ⟨hover, rfl⟩ fun _ _ => trivial
  rintro s₁ a s₂ ⟨hover₁, hwritten⟩ - ha
  obtain ⟨hover₂, hsame⟩ := State.act_of_isOver hover₁ ha
  exact ⟨hover₂, hsame.trans hwritten⟩

/-- Something that the transport does not take ends the loop. -/
theorem State.act_fail {s s' : State} (ha : s.act .fail = some s') :
    s'.stage = .brokenOff ∧ s'.written = s.written := by
  obtain ⟨-, rfl⟩ := State.act_broken (.inl rfl) ha
  exact ⟨rfl, rfl⟩

theorem exists_end_of_closing {s : State} {o : Outbound} (hstage : s.stage = .closing o) :
    ∃ more s', s.run more = some s' ∧ s'.stage = .ended ∧
      ∀ a ∈ more, a = .take ∨ a = .complete := by
  have hcomplete : s.act .complete = some { s with
      hub := (s.hub.step (.dropReceiver s.id)).2, stage := .ended
      written := s.written ++ [o] } := by
    simp only [State.act, hstage]
  exact ⟨[.complete], _, Schedule.run_cons_eq_some.mpr ⟨_, hcomplete, rfl⟩, rfl, by simp⟩

/-- A loop whose connection has been removed never waits in vain. -/
theorem act_take_of_removed {s : State} {code : UInt16} (hr : s.hub.IsRemoved s.id code)
    (hwaiting : s.stage = .waiting) :
    s.act .take =
      match s.hub.queue s.id with
      | e :: _ => some { s with
          hub := (s.hub.step (.receive s.id)).2, stage := .sending (.text e.encode) }
      | [] => some { s with
          hub := (s.hub.step (.receive s.id)).2, stage := .closing (.close code) } := by
  obtain ⟨c, hid, hsender, -, hcode⟩ := hr
  have hqueue : s.hub.queue s.id = c.queue := by simp [Hub.queue, hid]
  rw [State.act_take_eq hid hwaiting, hqueue, hsender, hcode]
  rfl

section Removed

open WriteLoop.State

variable {s s' : State} {all : List Envelope} (hs : Sound s all) {code : UInt16}
  (hr : s.hub.IsRemoved s.id code)

include hs hr

/-- A removed connection stays removed, and nothing is put into its queue. Every take leaves one
less to be taken. -/
theorem removed_act {a : Action} (ha : s.act a = some s') :
    s'.id = s.id ∧ s'.hub.IsRemoved s.id code ∧ enqueuedBy ⟨s, a, s'⟩ = [] ∧
      s'.left + [a].count .take ≤ s.left := by
  cases a with
  | take =>
    obtain ⟨hwaiting, ⟨e, rest, hq, rfl⟩ | ⟨c, -, -, -, rfl⟩⟩ := State.act_take ha
    · refine ⟨rfl, hr.step hs.wellFormed rfl, rfl, ?_⟩
      simp [left, hwaiting, queue_receive_cons hq, hq]
    · refine ⟨rfl, hr.step hs.wellFormed rfl, rfl, ?_⟩
      simp [left, hwaiting]
  | tick =>
    obtain ⟨hwaiting, rfl⟩ := State.act_tick ha
    exact ⟨rfl, hr, rfl, by simp [left, hwaiting]⟩
  | complete =>
    rcases State.act_complete ha with ⟨o, hstage, rfl⟩ | ⟨o, hstage, rfl⟩
    · exact ⟨rfl, hr, rfl, by simp [left, hstage]⟩
    · exact ⟨rfl, hr.step hs.wellFormed rfl, rfl, by simp [left]⟩
  | fail =>
    obtain ⟨-, rfl⟩ := State.act_broken (.inl rfl) ha
    exact ⟨rfl, hr.step hs.wellFormed rfl, rfl, by simp [left, broken]⟩
  | giveUp =>
    obtain ⟨-, rfl⟩ := State.act_broken (.inr rfl) ha
    exact ⟨rfl, hr.step hs.wellFormed rfl, rfl, by simp [left, broken]⟩
  | operate op =>
    have hs' := hs.act_operate ha
    obtain ⟨hfresh, helsewhere, rfl⟩ := State.act_operate ha
    have hnothing := Hub.placedBy_of_isClosed hs.wellFormed hr.isClosed hfresh
    refine ⟨rfl, hr.step hs.wellFormed hfresh, hnothing, ?_⟩
    have hsame : (s.hub.step op).2.queue s.id = s.hub.queue s.id := by
      rw [queue_operate hs.wellFormed hfresh helsewhere, hnothing, List.append_nil]
    simp [left, hsame]
  | half p =>
    obtain ⟨-, rfl⟩ := State.act_half ha
    refine ⟨rfl, hr.half p, rfl, ?_⟩
    simp [left, Hub.queue_half]

theorem removed_run {acts : List Action} (hrun : s.run acts = some s') :
    s'.hub.IsRemoved s.id code ∧ (Schedule.steps State.act s acts).flatMap enqueuedBy = [] ∧
      s'.left + acts.count .take ≤ s.left := by
  induction acts generalizing s all with
  | nil =>
    cases hrun
    exact ⟨hr, rfl, le_refl _⟩
  | cons a acts ih =>
    obtain ⟨s₁, ha, hrest⟩ := Schedule.run_cons_eq_some.mp hrun
    obtain ⟨hid, hr₁, hnothing, hleft⟩ := removed_act hs hr ha
    rw [← hid] at hr₁
    obtain ⟨hr', hnothing', hleft'⟩ := ih (hs.act ha) hr₁ hrest
    rw [hid] at hr'
    refine ⟨hr', ?_, ?_⟩
    · rw [Schedule.steps_cons ha, List.flatMap_cons, hnothing, hnothing']
      rfl
    · have hcount : (a :: acts).count .take = [a].count .take + acts.count .take := by
        rw [← List.count_append, List.singleton_append]
      omega

/-- A loop that waits can come to its end: what it has to do is due. -/
theorem exists_end_of_waiting (hwaiting : s.stage = .waiting) :
    ∃ more s', s.run more = some s' ∧ s'.stage = .ended ∧
      ∀ a ∈ more, a = .take ∨ a = .complete := by
  have htake := act_take_of_removed hr hwaiting
  induction hq : s.hub.queue s.id generalizing s all with
  | nil =>
    rw [hq] at htake
    obtain ⟨more, s', hrun, hended, hall⟩ := exists_end_of_closing (s := { s with
      hub := (s.hub.step (.receive s.id)).2, stage := .closing (.close code) }) rfl
    refine ⟨.take :: more, s', ?_, hended, by simpa using hall⟩
    exact Schedule.run_cons_eq_some.mpr ⟨_, htake, hrun⟩
  | cons e rest ih =>
    rw [hq] at htake
    set s₁ : State := { s with
      hub := (s.hub.step (.receive s.id)).2, stage := .sending (.text e.encode) } with hs₁
    set s₂ : State := { s₁ with stage := .waiting, written := s₁.written ++ [.text e.encode] }
      with hs₂
    have hcomplete : s₁.act .complete = some s₂ := rfl
    have hrest : s₂.hub.queue s₂.id = rest := queue_receive_cons hq
    have hr₂ : s₂.hub.IsRemoved s₂.id code := hr.step hs.wellFormed rfl
    have hs₂ : Sound s₂ _ := (hs.act htake).act hcomplete
    obtain ⟨more, s', hrun, hended, hall⟩ :=
      ih hs₂ hr₂ rfl (act_take_of_removed hr₂ rfl) hrest
    refine ⟨.take :: .complete :: more, s', ?_, hended, by simpa using hall⟩
    exact Schedule.run_cons_eq_some.mpr ⟨s₁, htake,
      Schedule.run_cons_eq_some.mpr ⟨s₂, hcomplete, hrun⟩⟩

/-- Once the connection has been removed, the loop can come to its end. -/
theorem exists_end (hover : ¬s.isOver) :
    ∃ more s', s.run more = some s' ∧ s'.stage = .ended ∧
      ∀ a ∈ more, a = .take ∨ a = .complete := by
  cases hstage : s.stage with
  | waiting => exact exists_end_of_waiting hs hr hstage
  | sending o =>
    have hcomplete : s.act .complete =
        some { s with stage := .waiting, written := s.written ++ [o] } := by
      simp only [act, hstage]
    obtain ⟨more, s', hrun, hended, hall⟩ :=
      exists_end_of_waiting (hs.act_complete hcomplete) hr rfl
    refine ⟨.complete :: more, s', ?_, hended, by simpa using hall⟩
    exact Schedule.run_cons_eq_some.mpr ⟨_, hcomplete, hrun⟩
  | closing o => exact exists_end_of_closing hstage
  | ended => exact absurd (.inl hstage) hover
  | brokenOff => exact absurd (.inr hstage) hover

end Removed

/-- **The loop drains the queue and closes once.** Take any run of the writing side: any order of
envelopes that are put into the queue, pings, and the removal of the connection. As long as the
transport takes what it is given, the text frames that have been written, the one that is under way
and those that wait are the envelopes that were put into the queue, each once and in order, and only
pings come between. Once the connection is removed no envelope comes any more, but the loop writes
all that wait, which is due until it is done and takes no more takes than that; and only then one
close frame, with the code that the connection was closed with. Nothing follows it. If the transport
fails to take something, the loop breaks off; then what has been written is a beginning of that, and
nothing follows either. -/
theorem drains_then_closes {h : Hub} (hreach : h.Reachable) {id : Uuid} (hh : h.IsHandled id)
    {acts : List Action} {s : State} (hrun : (State.start h id).run acts = some s) :
    let all := (enqueued (State.start h id) acts).map Envelope.encode
    ((∀ a ∈ acts, a ≠ .fail ∧ a ≠ .giveUp) → s.stage ≠ .brokenOff) ∧
    (s.stage = .waiting ∨ (∃ o, s.stage = .sending o) → IsPlain s.written ∧
      texts s.written ++ texts s.stage.underWay ++ (s.hub.queue id).map Envelope.encode = all) ∧
    (∀ o, s.stage = .closing o → IsPlain s.written ∧ texts s.written = all) ∧
    (s.stage = .ended → ∃ body c, s.written = body ++ [.close c.closeCode] ∧ IsPlain body ∧
      texts body = all ∧ s.hub.connection? id = some c ∧ c.state = .closed ∧
      c.hasSender = false) ∧
    (s.stage = .brokenOff → IsPlain s.written ∧ texts s.written <+: all) ∧
    (∀ s', s.act .fail = some s' → s'.stage = .brokenOff ∧ s'.written = s.written) ∧
    (s.isOver → ∀ more s', s.run more = some s' → s'.isOver ∧ s'.written = s.written) ∧
    (∀ code, s.hub.IsRemoved id code → ∀ more s', s.run more = some s' →
      s'.hub.IsRemoved id code ∧
      enqueued (State.start h id) (acts ++ more) = enqueued (State.start h id) acts ∧
      more.count .take ≤ (s.hub.queue id).length + 1) ∧
    ∀ code, s.hub.IsRemoved id code → ¬s.isOver → ∃ more s', s.run more = some s' ∧
      s'.stage = .ended ∧ ∀ a ∈ more, a = .take ∨ a = .complete := by
  intro all
  obtain ⟨hw, -⟩ := hreach.invariant
  have hs : Sound s (enqueued (State.start h id) acts) := (sound_start hw hh).run hrun
  have hid : s.id = id := State.run_id hrun
  subst hid
  refine ⟨fun hgood => ?_, fun hrunning => ?_, fun o hclosing => hs.of_closing hclosing,
    hs.of_ended, fun hbroken => hs.of_not_ended (by simp [hbroken]),
    fun s' ha => State.act_fail ha, fun hover more s' hmore => State.run_of_isOver hover hmore,
    fun code hr more s' hmore => ?_, fun code hr hover => exists_end hs hr hover⟩
  · exact Schedule.run_keeps (P := fun s => s.stage ≠ .brokenOff)
      (fun hs hgood ha => State.act_unbroken hs hgood ha) hrun Stage.noConfusion hgood
  · obtain ⟨hplain, hall⟩ := hs.running hrunning
    rw [State.begun, texts_append] at hall
    exact ⟨hplain.of_append, hall⟩
  · obtain ⟨hr', hnothing, hleft⟩ := removed_run hs hr hmore
    have hsame : enqueued (State.start h s.id) (acts ++ more) =
        enqueued (State.start h s.id) acts := by
      rw [enqueued, Schedule.steps_append hrun, List.flatMap_append, hnothing, List.append_nil]
      rfl
    have hbound : s.left ≤ (s.hub.queue s.id).length + 1 := by
      unfold State.left
      split <;> omega
    exact ⟨hr', hsame, by omega⟩

/-- A member gets two envelopes, the second while the first is being written; then its room is
closed. -/
def drainingRun : List Action :=
  [.operate (.broadcast "lab" (Hub.notice "lab" "a") none), .tick, .complete, .take,
    .operate (.broadcast "lab" (Hub.notice "lab" "b") none), .operate (.closeRoom "lab"),
    .operate (.broadcast "lab" (Hub.notice "lab" "c") none), .complete, .take, .complete, .take,
    .complete]

theorem drains_then_closes_deleted :
    let h := Hub.empty.run [.openConnection ⟨1⟩ ⟨"u1", "Ada"⟩ "lab" 4, .join ⟨1⟩ "lab" true]
    ∃ s, (State.start h ⟨1⟩).run drainingRun = some s ∧ s.stage = .ended ∧
      enqueued (State.start h ⟨1⟩) drainingRun = [Hub.notice "lab" "a", Hub.notice "lab" "b"] ∧
      s.written = [.ping, .text (Hub.notice "lab" "a").encode, .text (Hub.notice "lab" "b").encode,
        .close CloseCode.roomClosed] ∧
      ∀ more s', s.run more = some s' → s'.written = s.written := by
  intro h
  have hreach : h.Reachable := Hub.Reachable.empty.run (by decide)
  have hends : ((State.start h ⟨1⟩).run drainingRun).any fun s => s.stage = .ended ∧
      s.written = [.ping, .text (Hub.notice "lab" "a").encode,
        .text (Hub.notice "lab" "b").encode, .close CloseCode.roomClosed] := by
    decide
  obtain ⟨s, hrun, hs⟩ := (Option.any_eq_true _ _).mp hends
  obtain ⟨hended, hwritten⟩ := of_decide_eq_true hs
  obtain ⟨-, -, -, -, -, -, hlast, -⟩ := drains_then_closes hreach ⟨_, rfl, .inl rfl⟩ hrun
  exact ⟨s, hrun, hended, by decide, hwritten,
    fun more s' hmore => (hlast (.inl hended) more s' hmore).2⟩

end ChatRooms.WriteLoop

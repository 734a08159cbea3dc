import ChatRooms.Proofs.Schedule
import ChatRooms.Proofs.Hub.Removal
import ChatRooms.Session.Reader
import ChatRooms.Session.Writer

/-!
The course of a session, one action at a time. The session opens a connection and joins its room.
Then the reading side handles one event after the other, while the writing side sends what waits;
when the reading has ended, the writing side has some time to end as well, and the session returns.
Between two actions of a session anything may happen at the hub that others do.
-/

namespace ChatRooms.Session

open ChatRooms.Time

/-- Where a session stands. -/
inductive Phase where
  /-- the room is looked up again -/
  | joining
  /-- the connection could not join, and the client is told so -/
  | refused (e : ChatError)
  /-- events are handled -/
  | reading
  /-- the reading has ended, and the writing side has not had its time yet -/
  | draining
  | returned
deriving DecidableEq

/-- Where the writing side of a session stands. -/
inductive Writing where
  | pending
  | running
  | ended
deriving DecidableEq

/-- A session among others. -/
structure State where
  id : Uuid
  /-- the room that the connection is bound to -/
  room : String
  hub : Hub
  phase : Phase
  writing : Writing
  /-- what the session has given to the transport to send, in order -/
  sent : List Outbound
deriving DecidableEq

inductive Action where
  /-- the answer of the directory is there, or the end of its time -/
  | join (exists' : Bool)
  /-- the reading side handles an event -/
  | event (e : Event) (now : Instant)
  /-- the writing side sends what is next -/
  | write
  | ping
  /-- the writing side ends because the transport fails, or because it has had its time -/
  | breakOff
  | finish
  /-- somebody else works at the hub -/
  | operate (op : Hub.Operation)
deriving DecidableEq

namespace State

/-- A session that has just opened its connection. -/
def opened (h : Hub) (id : Uuid) (identity : Identity) (room : String) (capacity : Nat) : State :=
  ⟨id, room, h.openConnection id identity room capacity, .joining, .pending, []⟩

/-- Carries out an action, if it is due. The reading side learns of the end of the writing side only
after it. -/
def act (s : State) : Action → Option State
  | .join exists' =>
    if s.phase = .joining then
      match joinOrRefuse s.hub s.room s.id exists' with
      | some (.ok (), hub) => some { s with hub, phase := .reading, writing := .running }
      | some (.error e, hub) => some { s with hub, phase := .refused e }
      | none => none
    else none
  | .event e now =>
    if s.phase = .reading ∧ (e = .writerEnded → s.writing = .ended) then
      let (goesOn, hub) := read s.hub s.id now e
      some { s with hub, phase := if goesOn then .reading else .draining }
    else none
  | .write =>
    if s.writing = .running then
      match takeNext s.hub s.id with
      | some (.send o, hub) => some { s with hub, sent := s.sent ++ [o] }
      | some (.sendLast o, hub) =>
        some { s with hub := hub.dropReceiver s.id, sent := s.sent ++ [o], writing := .ended }
      | _ => none
    else none
  | .ping =>
    if s.writing = .running then some { s with sent := s.sent ++ [.ping] } else none
  | .breakOff =>
    if s.writing = .running then
      some { s with hub := s.hub.dropReceiver s.id, writing := .ended }
    else none
  | .finish =>
    match s.phase with
    | .refused e =>
      some { s with
        hub := (Session.finish s.hub s.id).dropReceiver s.id, phase := .returned
        sent := s.sent ++ [.close e.closeCode] }
    | .draining => some { s with hub := Session.finish s.hub s.id, phase := .returned }
    | _ => none
  | .operate op =>
    if op.isOpenToOthers s.id && op.isFresh s.hub then some { s with hub := (s.hub.step op).2 }
    else none

/-- Carries out actions in order, if each is due. -/
abbrev run (s : State) (acts : List Action) : Option State := Schedule.run act s acts

/-! ### What each action does -/

section Inversion

variable {s s' : State}

theorem act_join {exists' : Bool} (ha : s.act (.join exists') = some s') : s.phase = .joining ∧
    ((∃ hub, joinOrRefuse s.hub s.room s.id exists' = some (.ok (), hub) ∧
        s' = { s with hub, phase := .reading, writing := .running }) ∨
      ∃ e hub, joinOrRefuse s.hub s.room s.id exists' = some (.error e, hub) ∧
        s' = { s with hub, phase := .refused e }) := by
  rw [act] at ha
  split at ha
  · rename_i hphase
    refine ⟨hphase, ?_⟩
    split at ha
    · rename_i hub hj
      exact .inl ⟨hub, hj, (Option.some.inj ha).symm⟩
    · rename_i e hub hj
      exact .inr ⟨e, hub, hj, (Option.some.inj ha).symm⟩
    · cases ha
  · cases ha

theorem act_event {e : Event} {now : Instant} (ha : s.act (.event e now) = some s') :
    s.phase = .reading ∧
      s' = { s with
        hub := (read s.hub s.id now e).2
        phase := if (read s.hub s.id now e).1 then .reading else .draining } := by
  rw [act] at ha
  split at ha
  · rename_i hdue
    exact ⟨hdue.1, (Option.some.inj ha).symm⟩
  · cases ha

theorem act_write (ha : s.act .write = some s') : s.writing = .running ∧
    ((∃ o hub, takeNext s.hub s.id = some (.send o, hub) ∧
        s' = { s with hub, sent := s.sent ++ [o] }) ∨
      ∃ o hub, takeNext s.hub s.id = some (.sendLast o, hub) ∧
        s' = { s with
          hub := hub.dropReceiver s.id, sent := s.sent ++ [o], writing := .ended }) := by
  rw [act] at ha
  split at ha
  · rename_i hrunning
    refine ⟨hrunning, ?_⟩
    split at ha
    · rename_i o hub ht
      exact .inl ⟨o, hub, ht, (Option.some.inj ha).symm⟩
    · rename_i o hub ht
      exact .inr ⟨o, hub, ht, (Option.some.inj ha).symm⟩
    · cases ha
  · cases ha

theorem act_ping (ha : s.act .ping = some s') :
    s.writing = .running ∧ s' = { s with sent := s.sent ++ [.ping] } := by
  rw [act] at ha
  split at ha
  · rename_i hrunning
    exact ⟨hrunning, (Option.some.inj ha).symm⟩
  · cases ha

theorem act_breakOff (ha : s.act .breakOff = some s') : s.writing = .running ∧
    s' = { s with hub := s.hub.dropReceiver s.id, writing := .ended } := by
  rw [act] at ha
  split at ha
  · rename_i hrunning
    exact ⟨hrunning, (Option.some.inj ha).symm⟩
  · cases ha

theorem act_finish (ha : s.act .finish = some s') :
    (∃ e, s.phase = .refused e ∧ s' = { s with
        hub := (Session.finish s.hub s.id).dropReceiver s.id, phase := .returned
        sent := s.sent ++ [.close e.closeCode] }) ∨
      s.phase = .draining ∧
        s' = { s with hub := Session.finish s.hub s.id, phase := .returned } := by
  rw [act] at ha
  split at ha
  · rename_i e hphase
    exact .inl ⟨e, hphase, (Option.some.inj ha).symm⟩
  · rename_i hphase
    exact .inr ⟨hphase, (Option.some.inj ha).symm⟩
  · cases ha

theorem act_operate {op : Hub.Operation} (ha : s.act (.operate op) = some s') :
    op.isOpenToOthers s.id = true ∧ op.isFresh s.hub = true ∧
      s' = { s with hub := (s.hub.step op).2 } := by
  rw [act] at ha
  split at ha
  · rename_i hop
    rw [Bool.and_eq_true] at hop
    exact ⟨hop.1, hop.2, (Option.some.inj ha).symm⟩
  · cases ha

/-- No action changes the connection or its room. -/
theorem act_same {a : Action} (ha : s.act a = some s') : s'.id = s.id ∧ s'.room = s.room := by
  cases a with
  | join exists' =>
    obtain ⟨-, ⟨hub, -, rfl⟩ | ⟨e, hub, -, rfl⟩⟩ := act_join ha <;> exact ⟨rfl, rfl⟩
  | event e now =>
    obtain ⟨-, rfl⟩ := act_event ha
    exact ⟨rfl, rfl⟩
  | write =>
    obtain ⟨-, ⟨o, hub, -, rfl⟩ | ⟨o, hub, -, rfl⟩⟩ := act_write ha <;> exact ⟨rfl, rfl⟩
  | ping =>
    obtain ⟨-, rfl⟩ := act_ping ha
    exact ⟨rfl, rfl⟩
  | breakOff =>
    obtain ⟨-, rfl⟩ := act_breakOff ha
    exact ⟨rfl, rfl⟩
  | finish =>
    obtain ⟨e, -, rfl⟩ | ⟨-, rfl⟩ := act_finish ha <;> exact ⟨rfl, rfl⟩
  | operate op =>
    obtain ⟨-, -, rfl⟩ := act_operate ha
    exact ⟨rfl, rfl⟩

/-- The joining does not come back. -/
theorem act_phase {a : Action} (hs : ¬s.phase = .joining) (ha : s.act a = some s') :
    ¬s'.phase = .joining := by
  cases a with
  | join exists' => exact absurd (act_join ha).1 hs
  | event e now =>
    obtain ⟨-, rfl⟩ := act_event ha
    dsimp only
    split <;> simp
  | write => obtain ⟨-, ⟨o, hub, -, rfl⟩ | ⟨o, hub, -, rfl⟩⟩ := act_write ha <;> exact hs
  | ping =>
    obtain ⟨-, rfl⟩ := act_ping ha
    exact hs
  | breakOff =>
    obtain ⟨-, rfl⟩ := act_breakOff ha
    exact hs
  | finish => obtain ⟨e, -, rfl⟩ | ⟨-, rfl⟩ := act_finish ha <;> simp
  | operate op =>
    obtain ⟨-, -, rfl⟩ := act_operate ha
    exact hs

end Inversion

end State

end ChatRooms.Session

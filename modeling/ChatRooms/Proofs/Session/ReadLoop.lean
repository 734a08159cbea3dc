import ChatRooms.Proofs.Session.Ending

/-!
The reading side of a session and its timer, one action at a time. It sets the timer as it begins
and again with everything that it handles and goes on after. In a turn it handles what has come
first; only if nothing has come and the time is up it gives the connection up. What the writing side
does, and what others do at the hub, comes between.

Turns may be late, and time may pass while something waits to be handled.
-/

namespace ChatRooms.ReadLoop

open ChatRooms.Session ChatRooms.Time

/-- A session in which something is read, with the timer of the reading side. -/
structure State where
  session : Session.State
  idleTimeout : Nat
  /-- the clock of the timers, in milliseconds -/
  clock : Nat
  /-- the time at which the connection is given up -/
  idleAt : Nat
  /-- what has come from the client and has not been handled yet -/
  inbox : List Event
deriving DecidableEq

inductive Action where
  | elapse (millis : Nat)
  | arrive (e : Event)
  /-- the reading side takes a turn -/
  | turn (now : Instant)
  /-- the writing side works, or is found to have ended, or somebody else works at the hub -/
  | aside (a : Session.Action)
deriving DecidableEq

/-- The event comes from the client, or from what carries its frames. -/
def isFromClient : Event → Bool
  | .idle | .writerEnded => false
  | _ => true

/-- The action is not one of the reading side, nor the join, which is over. -/
def isAside : Session.Action → Bool
  | .join _ => false
  | .event e _ => e = .writerEnded
  | _ => true

namespace Action

end Action

namespace State

/-- The reading side begins, and sets its timer. -/
def start (session : Session.State) (idleTimeout clock : Nat) : State :=
  ⟨session, idleTimeout, clock, idleDeadline idleTimeout clock, []⟩

def isReading (s : State) : Bool := s.session.phase = .reading

/-- What the reading side handles if it takes a turn now. -/
def next? (s : State) : Option Event :=
  if s.isReading then nextEvent? s.idleAt s.clock s.inbox.head? else none

/-- The reading side handles an event. -/
def handled (s : State) (now : Instant) (e : Event) : State :=
  let (idleAt?, hub) := turn s.session.hub s.session.id s.idleTimeout s.clock now e
  { s with
    session := { s.session with hub, phase := if idleAt?.isSome then .reading else .draining }
    idleAt := idleAt?.getD s.idleAt
    inbox := s.inbox.tail }

/-- Carries out an action, if it is due. A turn in which there is nothing to do changes nothing. -/
def act (s : State) : Action → Option State
  | .elapse millis => some { s with clock := s.clock + millis }
  | .arrive e => if isFromClient e then some { s with inbox := s.inbox ++ [e] } else none
  | .turn now =>
    match s.next? with
    | some e => some (s.handled now e)
    | none => some s
  | .aside a => if isAside a then (s.session.act a).map fun session => { s with session } else none

/-- Carries out actions in order, if each is due. -/
abbrev run (s : State) (acts : List Action) : Option State := Schedule.run act s acts

/-! ### What each action does -/

section Inversion

variable {s s' : State}

theorem isReading_iff : s.isReading = true ↔ s.session.phase = .reading := decide_eq_true_iff

theorem next?_eq_some {e : Event} (hnext : s.next? = some e) : s.isReading = true ∧
    ((∃ rest, s.inbox = e :: rest) ∨ s.inbox = [] ∧ e = .idle ∧ s.idleAt ≤ s.clock) := by
  unfold next? at hnext
  split at hnext
  · rename_i hreading
    refine ⟨hreading, ?_⟩
    cases hinbox : s.inbox with
    | cons e' rest =>
      rw [hinbox] at hnext
      cases hnext
      exact .inl ⟨rest, rfl⟩
    | nil =>
      rw [hinbox] at hnext
      by_cases hup : s.idleAt ≤ s.clock
      · simp only [nextEvent?, List.head?_nil, Option.none_or, if_pos hup,
          Option.some.injEq] at hnext
        exact .inr ⟨rfl, hnext.symm, hup⟩
      · simp [nextEvent?, hup] at hnext
  · cases hnext

theorem act_elapse {millis : Nat} (ha : s.act (.elapse millis) = some s') :
    s' = { s with clock := s.clock + millis } := (Option.some.inj ha).symm

theorem act_arrive {e : Event} (ha : s.act (.arrive e) = some s') :
    isFromClient e = true ∧ s' = { s with inbox := s.inbox ++ [e] } := by
  rw [act] at ha
  split at ha
  · rename_i he
    exact ⟨he, (Option.some.inj ha).symm⟩
  · cases ha

theorem act_turn {now : Instant} (ha : s.act (.turn now) = some s') :
    s.next? = none ∧ s' = s ∨ ∃ e, s.next? = some e ∧ s' = s.handled now e := by
  rw [act] at ha
  split at ha
  · rename_i e hnext
    exact .inr ⟨e, hnext, (Option.some.inj ha).symm⟩
  · rename_i hnext
    exact .inl ⟨hnext, (Option.some.inj ha).symm⟩

theorem act_aside {a : Session.Action} (ha : s.act (.aside a) = some s') : isAside a = true ∧
    ∃ session, s.session.act a = some session ∧ s' = { s with session } := by
  rw [act] at ha
  split at ha
  · rename_i haside
    obtain ⟨session, hsession, rfl⟩ := Option.map_eq_some_iff.mp ha
    exact ⟨haside, session, hsession, rfl⟩
  · cases ha

/-- A turn in terms of what is read. -/
theorem turn_eq (h : Hub) (id : Uuid) (idleTimeout clock : Nat) (now : Instant) (e : Event) :
    turn h id idleTimeout clock now e =
      (if (read h id now e).1 then some (idleDeadline idleTimeout clock) else none,
        (read h id now e).2) := by
  unfold turn
  split <;> rename_i hread <;> simp [hread]

/-- The reading goes on after frames only. -/
theorem isFrame_of_read {h : Hub} {id : Uuid} {now : Instant} {e : Event}
    (hread : (read h id now e).1 = true) : e.isFrame = true := by
  cases e with
  | text raw => rfl
  | other => rfl
  | _ => cases hread

/-- The timer is set again exactly if the reading goes on. -/
theorem handled_eq (s : State) (now : Instant) (e : Event) :
    s.handled now e = { s with
      session := { s.session with
        hub := (read s.session.hub s.session.id now e).2
        phase := if (read s.session.hub s.session.id now e).1 then .reading else .draining }
      idleAt :=
        if (read s.session.hub s.session.id now e).1 then s.clock + s.idleTimeout else s.idleAt
      inbox := s.inbox.tail } := by
  rw [handled, turn_eq]
  dsimp only
  cases (read s.session.hub s.session.id now e).1 <;> rfl

theorem isReading_handled (s : State) (now : Instant) (e : Event) :
    (s.handled now e).isReading = (read s.session.hub s.session.id now e).1 := by
  rw [handled_eq, isReading]
  dsimp only
  cases (read s.session.hub s.session.id now e).1 <;> rfl

/-- An aside neither ends the reading nor begins it, unless the writing side is found to have ended.
-/
theorem session_act_aside {a : Session.Action} {session : Session.State}
    (haside : isAside a = true) (ha : s.session.act a = some session) :
    (∃ e now, a = .event e now) ∨
      (session.phase = .reading ↔ s.session.phase = .reading) := by
  cases a with
  | join exists' => cases haside
  | event e now => exact .inl ⟨e, now, rfl⟩
  | write => obtain ⟨-, ⟨o, hub, -, rfl⟩ | ⟨o, hub, -, rfl⟩⟩ := Session.State.act_write ha <;> simp
  | ping =>
    obtain ⟨-, rfl⟩ := Session.State.act_ping ha
    simp
  | breakOff =>
    obtain ⟨-, rfl⟩ := Session.State.act_breakOff ha
    simp
  | finish =>
    obtain ⟨e, hphase, rfl⟩ | ⟨hphase, rfl⟩ := Session.State.act_finish ha <;> simp [hphase]
  | operate op =>
    obtain ⟨-, -, rfl⟩ := Session.State.act_operate ha
    simp

end Inversion

/-- Nothing makes the reading begin again. -/
theorem isReading_of_act {s s' : State} {a : Action} (ha : s.act a = some s')
    (hreading : s'.isReading = true) : s.isReading = true := by
  cases a with
  | elapse millis =>
    obtain rfl := act_elapse ha
    exact hreading
  | arrive e =>
    obtain ⟨-, rfl⟩ := act_arrive ha
    exact hreading
  | turn now =>
    obtain ⟨-, rfl⟩ | ⟨e, hnext, -⟩ := act_turn ha
    · exact hreading
    · exact (next?_eq_some hnext).1
  | aside a =>
    obtain ⟨haside, session, hsession, rfl⟩ := act_aside ha
    rcases session_act_aside haside hsession with ⟨e, now, rfl⟩ | hsame
    · exact isReading_iff.mpr (Session.State.act_event hsession).1
    · exact isReading_iff.mpr (hsame.mp (isReading_iff.mp hreading))

/-- What holds in every run: the session is sound, and only what comes from the client waits. -/
structure Valid (s : State) : Prop where
  session : ∃ first, s.session.Sound first
  fromClient : ∀ e ∈ s.inbox, isFromClient e = true

section Valid

variable {s s' : State} (hs : s.Valid)

include hs

/-- What is next comes from the client, or it is the end of patience. -/
theorem Valid.next?_cases {e : Event} (hnext : s.next? = some e) : s.isReading = true ∧
    (isFromClient e = true ∨ e = .idle ∧ s.inbox = [] ∧ s.idleAt ≤ s.clock) := by
  obtain ⟨hreading, ⟨rest, hinbox⟩ | ⟨hinbox, rfl, hup⟩⟩ := next?_eq_some hnext
  · exact ⟨hreading, .inl (hs.fromClient e (by simp [hinbox]))⟩
  · exact ⟨hreading, .inr ⟨rfl, hinbox, hup⟩⟩

/-- What is handled in a turn is an event of the session. -/
theorem Valid.session_act {e : Event} (hnext : s.next? = some e) (now : Instant) :
    s.session.act (.event e now) = some (s.handled now e).session := by
  obtain ⟨hreading, hcases⟩ := hs.next?_cases hnext
  have hother : e ≠ .writerEnded := by
    rintro rfl
    simp [isFromClient] at hcases
  rw [handled_eq, Session.State.act,
    if_pos ⟨isReading_iff.mp hreading, fun h => absurd h hother⟩]

theorem Valid.act {a : Action} (ha : s.act a = some s') : s'.Valid := by
  obtain ⟨first, hfirst⟩ := hs.session
  cases a with
  | elapse millis =>
    obtain rfl := act_elapse ha
    exact ⟨hs.session, hs.fromClient⟩
  | arrive e =>
    obtain ⟨hclient, rfl⟩ := act_arrive ha
    refine ⟨hs.session, fun e' he' => ?_⟩
    rcases List.mem_append.mp he' with he' | he'
    · exact hs.fromClient e' he'
    · rw [List.mem_singleton.mp he']
      exact hclient
  | turn now =>
    obtain ⟨-, rfl⟩ | ⟨e, hnext, rfl⟩ := act_turn ha
    · exact hs
    · refine ⟨⟨_, hfirst.act (hs.session_act hnext now)⟩, fun e' he' => ?_⟩
      rw [handled_eq] at he'
      exact hs.fromClient e' (List.mem_of_mem_tail he')
  | aside a =>
    obtain ⟨-, session, hsession, rfl⟩ := act_aside ha
    exact ⟨⟨_, hfirst.act hsession⟩, hs.fromClient⟩

theorem Valid.run {acts : List Action} (hrun : s.run acts = some s') : s'.Valid :=
  Schedule.run_keeps (Q := fun _ => True) (fun hs _ ha => Valid.act hs ha) hrun hs
    fun _ _ => trivial

end Valid

end State

open ReadLoop.State

/-! ### Signs of life, and the end of the reading -/

/-- The time at which a frame comes. -/
def sign? (st : Schedule.Step State Action) : Option Nat :=
  match st.action with
  | .arrive e => if e.isFrame then some st.before.clock else none
  | _ => none

/-- The times at which frames came. -/
def signs (s : State) (acts : List Action) : List Nat :=
  (Schedule.steps State.act s acts).filterMap sign?

/-- All times between which there was silence: that of the start, those at which frames came, and
the present. -/
def times (s : State) (acts : List Action) (s' : State) : List Nat :=
  s.clock :: signs s acts ++ [s'.clock]

/-- Time does not pass before something that has come is handled, nor beyond the time at which the
connection is given up. -/
def isPunctual (st : Schedule.Step State Action) : Bool :=
  match st.action with
  | .elapse millis =>
    !st.before.isReading ||
      st.before.inbox.isEmpty && decide (st.before.clock + millis ≤ st.before.idleAt)
  | _ => true

/-- Every turn is taken when it is due. -/
def IsPunctual (s : State) (acts : List Action) : Prop :=
  ∀ st ∈ Schedule.steps State.act s acts, isPunctual st = true

@[simp] theorem sign?_elapse (s s' : State) (millis : Nat) :
    sign? ⟨s, .elapse millis, s'⟩ = none := rfl

@[simp] theorem sign?_turn (s s' : State) (now : Instant) : sign? ⟨s, .turn now, s'⟩ = none := rfl

@[simp] theorem sign?_aside (s s' : State) (a : Session.Action) :
    sign? ⟨s, .aside a, s'⟩ = none := rfl

theorem sign?_arrive (s s' : State) (e : Event) :
    (sign? ⟨s, .arrive e, s'⟩).toList = if e.isFrame then [s.clock] else [] := by
  by_cases hframe : e.isFrame = true <;> simp [sign?, hframe]

section Traces

variable {s₀ s s' : State} {acts : List Action} {a : Action} (hrun : s₀.run acts = some s)
  (ha : s.act a = some s')

include hrun ha

theorem signs_append_singleton :
    signs s₀ (acts ++ [a]) = signs s₀ acts ++ (sign? ⟨s, a, s'⟩).toList := by
  rw [signs, signs, Schedule.steps_append_singleton hrun ha, List.filterMap_append]
  cases hsign : sign? ⟨s, a, s'⟩ <;> simp [hsign]

theorem isPunctual_append_singleton :
    IsPunctual s₀ (acts ++ [a]) ↔ IsPunctual s₀ acts ∧ isPunctual ⟨s, a, s'⟩ = true := by
  rw [IsPunctual, IsPunctual, Schedule.steps_append_singleton hrun ha]
  simp [or_imp, forall_and]

end Traces

end ChatRooms.ReadLoop

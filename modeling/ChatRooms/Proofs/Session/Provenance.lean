import Mathlib.Data.List.Induction
import ChatRooms.Proofs.Hub.Reach
import ChatRooms.Proofs.Hub.Stream
import ChatRooms.Proofs.Session.Ending
import ChatRooms.Proofs.Wire.Inbound
import ChatRooms.Session.Admission

/-!
Where messages come from. A socket is asked for with a token and a room; if the gateway knows the
token and the directory the room, it is admitted, and its session opens a connection, joins the room
and handles what the client sends. Whatever waits for a member of a room was sent into that room by
another member, and it names the one whom the gateway named for the token of that member.

The actions of the sessions may come in any order here, also in one that no session takes: nothing
below depends on it.
-/

namespace ChatRooms

open ChatRooms.Time ChatRooms.Session ChatRooms.Json ChatRooms.Json.Grammar

/-! ### Admission -/

namespace Admission

theorem identityOf_ok {answer : Timed (Except ChatError Identity)} {identity : Identity}
    (h : identityOf answer = .ok identity) : answer = .answered (.ok identity) := by
  cases answer with
  | answered r => exact congrArg Timed.answered h
  | timedOut => cases h

theorem roomOf_ok {answer : Timed (Except LookupError Bool)} (h : roomOf answer = .ok ()) :
    answer = .answered (.ok true) := by
  unfold roomOf at h
  split at h
  · rfl
  · cases h

section Desk

variable {σ : Type} {d : Desk σ} {s s' : σ}

theorem handshake_ok {token room : String} {identity : Identity}
    (h : handshake d token room s = (.ok identity, s')) :
    (d.authenticate token s).1 = .answered (.ok identity) ∧
      (d.lookUp room (d.authenticate token s).2).1 = .answered (.ok true) := by
  unfold handshake at h
  dsimp only at h
  split at h
  · cases h
  · rename_i hidentity
    split at h
    · cases h
    · rename_i hfound
      cases h
      exact ⟨identityOf_ok hidentity, roomOf_ok hfound⟩

/-- Whoever is admitted is known to the gateway, and the room to the directory. -/
theorem ticketFor_ok {p : ConnectParams} {authorization : Option (List UInt8)} {t : Ticket}
    (h : ticketFor d p authorization s = (.ok t, s')) :
    ∃ token, token? p authorization = some token ∧ room? p = some t.room ∧
      (d.authenticate token s).1 = .answered (.ok t.identity) ∧
      (d.lookUp t.room (d.authenticate token s).2).1 = .answered (.ok true) := by
  unfold ticketFor at h
  split at h
  · cases h
  · rename_i token htoken
    split at h
    · cases h
    · rename_i room hroom
      split at h
      · cases h
      · rename_i hshake
        cases h
        exact ⟨token, htoken, hroom, handshake_ok hshake⟩

end Desk

end Admission

/-! ### The server -/

/-- What the gateway and the directory know, who has been admitted and is not connected yet, and the
hub. A socket has the identifier that its connection gets. -/
structure Venue (σ : Type) where
  desk : σ
  tickets : Table Uuid Admission.Ticket
  hub : Hub

/-- The operation neither opens nor joins a connection, and sends nothing. -/
def Hub.Operation.isAside : Hub.Operation → Bool
  | .leave .. | .closeRoom _ | .close .. | .drop _ | .receive _ | .dropReceiver _ => true
  | .openConnection .. | .join .. | .broadcast .. | .handle .. => false

namespace Venue

inductive Action (σ : Type) where
  /-- a client asks for a socket, unless it has been admitted already -/
  | request (id : Uuid) (p : ConnectParams) (authorization : Option (List UInt8))
  /-- the gateway or the directory comes to know something else -/
  | elapse (desk : σ)
  /-- the session of a client that has been admitted opens its connection -/
  | accept (id : Uuid) (capacity : Nat)
  /-- the session joins its room, or ends because it cannot -/
  | join (id : Uuid) (exists' : Bool)
  /-- the session handles what its reading side sees, at an instant -/
  | event (id : Uuid) (e : Event) (now : Instant)
  /-- the writing side of the session takes what is next -/
  | write (id : Uuid)
  | finish (id : Uuid)
  /-- something else is done at the hub -/
  | operate (op : Hub.Operation)

section Run

variable {σ : Type} (d : Desk σ)

def start (desk : σ) : Venue σ := ⟨desk, [], .empty⟩

/-- Carries out an action, if it is due. -/
def act (v : Venue σ) : Action σ → Option (Venue σ)
  | .request id p authorization =>
    if (v.tickets.get? id).isNone && (v.hub.connection? id).isNone then
      match Admission.ticketFor d p authorization v.desk with
      | (.ok t, desk) => some { v with desk, tickets := v.tickets.insert id t }
      | (.error _, desk) => some { v with desk }
    else none
  | .elapse desk => some { v with desk }
  | .accept id capacity =>
    match v.tickets.get? id with
    | some t =>
      if (v.hub.connection? id).isNone then
        some { v with
          tickets := v.tickets.erase id
          hub := v.hub.openConnection id t.identity t.room capacity }
      else none
    | none => none
  | .join id exists' =>
    match v.hub.connection? id with
    | some c => (joinOrRefuse v.hub c.room id exists').map fun r => { v with hub := r.2 }
    | none => none
  | .event id e now => some { v with hub := (read v.hub id now e).2 }
  | .write id => (takeNext v.hub id).map fun r => { v with hub := r.2 }
  | .finish id => some { v with hub := Session.finish v.hub id }
  | .operate op => if op.isAside then some { v with hub := (v.hub.step op).2 } else none

/-- Carries out actions in order, if each is due. -/
abbrev run (v : Venue σ) (acts : List (Action σ)) : Option (Venue σ) :=
  Schedule.run (act d) v acts

/-- What an action has placed in the queue of a connection: what stands behind the envelopes that
waited before. -/
def placed (target : Uuid) (v v' : Venue σ) : List Envelope :=
  (v'.hub.queue target).drop (v.hub.queue target).length

/-- Among the actions, the client with the identifier asked for a socket, with a token for which the
gateway answered with the identity, and for the room, which the directory confirmed. -/
def Granted (desk : σ) (acts : List (Action σ)) (id : Uuid) (t : Admission.Ticket) : Prop :=
  ∃ before p authorization after v token,
    acts = before ++ .request id p authorization :: after ∧ run d (start desk) before = some v ∧
    Admission.token? p authorization = some token ∧ Admission.room? p = some t.room ∧
    (d.authenticate token v.desk).1 = .answered (.ok t.identity) ∧
    (d.lookUp t.room (d.authenticate token v.desk).2).1 = .answered (.ok true)

/-- Among the actions, the client with the identifier was connected after it had been admitted. -/
def Admitted (desk : σ) (acts : List (Action σ)) (id : Uuid) (t : Admission.Ticket) : Prop :=
  ∃ before capacity after, acts = before ++ .accept id capacity :: after ∧ Granted d desk before id t

end Run

section Append

variable {σ : Type} {d : Desk σ} {desk : σ} {acts : List (Action σ)} {id : Uuid}
  {t : Admission.Ticket}

theorem Granted.append (hg : Granted d desk acts id t) (a : Action σ) :
    Granted d desk (acts ++ [a]) id t := by
  obtain ⟨before, p, authorization, after, v, token, rfl, hgranted⟩ := hg
  exact ⟨before, p, authorization, after ++ [a], v, token, by simp, hgranted⟩

theorem Admitted.append (ha : Admitted d desk acts id t) (a : Action σ) :
    Admitted d desk (acts ++ [a]) id t := by
  obtain ⟨before, capacity, after, rfl, hg⟩ := ha
  exact ⟨before, capacity, after ++ [a], by simp, hg⟩

end Append

end Venue

/-! ### What a session does at the hub -/

namespace Hub

/-- Membership and life stay in step, and every connection was there before, with the same client
behind it, and bound to the same room. -/
structure Keeps (h h' : Hub) : Prop where
  wellFormed : h'.WellFormed
  inStep : h'.InStep
  origin : ∀ {id c'}, h'.connection? id = some c' →
    ∃ c, h.connection? id = some c ∧ c'.identity = c.identity ∧ c'.room = c.room

/-- Besides, nothing is placed in a queue: at most something is taken from its front. -/
structure Quiet (h h' : Hub) : Prop extends Keeps h h' where
  queue : ∀ id, h'.queue id <:+ h.queue id

theorem Keeps.trans {h₁ h₂ h₃ : Hub} (k : Keeps h₁ h₂) (l : Keeps h₂ h₃) : Keeps h₁ h₃ := by
  refine ⟨l.wellFormed, l.inStep, fun hid₃ => ?_⟩
  obtain ⟨c₂, hid₂, hidentity₂, hroom₂⟩ := l.origin hid₃
  obtain ⟨c₁, hid₁, hidentity₁, hroom₁⟩ := k.origin hid₂
  exact ⟨c₁, hid₁, hidentity₂.trans hidentity₁, hroom₂.trans hroom₁⟩

theorem Quiet.trans {h₁ h₂ h₃ : Hub} (q : Quiet h₁ h₂) (r : Quiet h₂ h₃) : Quiet h₁ h₃ :=
  ⟨q.toKeeps.trans r.toKeeps, fun id => (r.queue id).trans (q.queue id)⟩

section Steps

variable {h : Hub} (hw : h.WellFormed) (hs : h.InStep)

include hw hs

theorem quiet_refl : Quiet h h :=
  ⟨⟨hw, hs, fun hid => ⟨_, hid, rfl, rfl⟩⟩, fun _ => List.suffix_rfl⟩

section Op

variable {op : Operation} (hop : op.isFresh h = true) (hown : op.isOwn h = true)
  (hopen : ∀ id identity room capacity, op ≠ .openConnection id identity room capacity)

include hop hown hopen

theorem keeps_step : Keeps h (h.step op).2 := by
  refine ⟨hw.step hop, hs.step_of_isOwn hw hop hown, fun hid' => ?_⟩
  rcases connection?_step_cases hw hop hid' with ⟨c, hid, hidentity, hroom, -⟩ | ⟨-, capacity, e, -⟩
  · exact ⟨c, hid, hidentity, hroom⟩
  · exact absurd e (hopen _ _ _ _)

/-- Only what is sent is placed in queues. -/
theorem quiet_step (hsend : op.sending h = none) : Quiet h (h.step op).2 := by
  refine ⟨keeps_step hw hs hop hown hopen, fun id => ?_⟩
  rcases queue_step hw hop id with ⟨s, hsent, -⟩ | ⟨-, hq⟩ | ⟨-, hq⟩ | ⟨-, -, hq, -⟩
  · rw [hsend] at hsent
    cases hsent
  · exact hq ▸ List.tail_suffix _
  · exact hq ▸ List.nil_suffix
  · exact hq ▸ List.suffix_rfl

end Op

theorem quiet_aside {op : Operation} (haside : op.isAside = true) : Quiet h (h.step op).2 := by
  have hmild : op.isFresh h = true ∧ op.isOwn h = true ∧ op.sending h = none ∧
      ∀ id identity room capacity, op ≠ .openConnection id identity room capacity := by
    cases op <;>
      simp [Operation.isAside, Operation.isFresh, Operation.isOwn, Operation.sending] at haside ⊢
  exact quiet_step hw hs hmild.1 hmild.2.1 hmild.2.2.2 hmild.2.2.1

theorem quiet_close (id : Uuid) (code : UInt16) : Quiet h (h.close id code).2 :=
  @quiet_aside h hw hs (.close id code) rfl

theorem keeps_handle (id : Uuid) (raw : String) (now : Instant) :
    Keeps h (h.handle id raw now).2 :=
  @keeps_step h hw hs (.handle id raw now) rfl rfl (by simp)

end Steps

end Hub

namespace Session

variable {h h₀ : Hub} {id : Uuid}

/-- After a text the hub is as the router leaves it, until the reading ends. -/
theorem onEvent_text (h : Hub) (id : Uuid) (raw : String) (now : Instant) :
    (onEvent h id now (.text raw)).2 = (h.handle id raw now).2 := by
  unfold onEvent
  dsimp only
  split <;> rename_i hh <;> rw [hh]

/-- The end of the reading places nothing in a queue. -/
theorem quiet_read {now : Instant} {e : Event} (q : Hub.Quiet h₀ (onEvent h id now e).2) :
    Hub.Quiet h₀ (read h id now e).2 := by
  unfold read
  split <;> rename_i hh <;> rw [hh] at q
  · exact q
  · exact q.trans (Hub.quiet_close q.wellFormed q.inStep id _)

section Work

variable (hw : h.WellFormed) (hs : h.InStep)

include hw hs

theorem quiet_onEvent (now : Instant) {e : Event} (he : ∀ raw, e ≠ .text raw) :
    Hub.Quiet h (onEvent h id now e).2 := by
  cases e with
  | text raw => exact absurd rfl (he raw)
  | other => exact Hub.quiet_refl hw hs
  | _ => exact Hub.quiet_close hw hs id _

theorem quiet_joinOrRefuse {c : Connection} (hid : h.connection? id = some c) {exists' : Bool}
    {r : Except ChatError Unit × Hub} (hj : joinOrRefuse h c.room id exists' = some r) :
    Hub.Quiet h r.2 := by
  have hjoin : Hub.Quiet h (h.step (.join id c.room exists')).2 :=
    Hub.quiet_step hw hs rfl (by simp [Hub.Operation.isOwn, hid]) (by simp) rfl
  unfold Hub.step at hjoin
  dsimp only at hjoin
  unfold joinOrRefuse at hj
  split at hj
  · rename_i e h₁ hfail
    rw [hfail] at hjoin
    cases hj
    exact hjoin.trans (Hub.quiet_close hjoin.wellFormed hjoin.inStep id _)
  · rw [hj] at hjoin
    exact hjoin

theorem quiet_takeNext {r : WriterAction × Hub} (ht : takeNext h id = some r) :
    Hub.Quiet h r.2 := by
  cases hid : h.connection? id with
  | none => simp [takeNext, hid] at ht
  | some c =>
    rw [(takeNext_cases hid ht).1]
    exact Hub.quiet_aside hw hs rfl

end Work

end Session

namespace Venue

/-- What stands behind some elements of a suffix stands behind as many of the whole. -/
theorem mem_drop_of_suffix {l l' : List Envelope} (h : l <:+ l') {n : Nat} {e : Envelope}
    (he : e ∈ l.drop n) : e ∈ l'.drop n := by
  obtain ⟨front, rfl⟩ := h
  rw [List.drop_append]
  exact List.mem_append_right _ (List.drop_subset_drop_left l (Nat.sub_le n front.length) he)

section Act

variable {σ : Type} {d : Desk σ} {v v' : Venue σ} (hw : v.hub.WellFormed) (hs : v.hub.InStep)

include hw hs

/-- **What an action can do.** A client is admitted, an admitted client is connected, or the hub goes
on with those who are there; and it does so quietly, unless a text is handled. -/
theorem act_cases {a : Action σ} (ha : v.act d a = some v') :
    (∃ id p authorization t desk, a = .request id p authorization ∧
      Admission.ticketFor d p authorization v.desk = (.ok t, desk) ∧
      v' = { v with desk, tickets := v.tickets.insert id t }) ∨
    (∃ id capacity t, a = .accept id capacity ∧ v.tickets.get? id = some t ∧
      v.hub.connection? id = none ∧ v' = { v with
        tickets := v.tickets.erase id
        hub := v.hub.openConnection id t.identity t.room capacity }) ∨
    v'.tickets = v.tickets ∧ (v.hub.Quiet v'.hub ∨
      ∃ id raw now, a = .event id (.text raw) now ∧
        Hub.Quiet (v.hub.handle id raw now).2 v'.hub) := by
  cases a with
  | request id p authorization =>
    rw [act] at ha
    split at ha
    · split at ha
      · rename_i t desk ht
        exact .inl ⟨id, p, authorization, t, desk, rfl, ht, (Option.some.inj ha).symm⟩
      · cases ha
        exact .inr (.inr ⟨rfl, .inl (Hub.quiet_refl hw hs)⟩)
    · cases ha
  | elapse desk =>
    cases ha
    exact .inr (.inr ⟨rfl, .inl (Hub.quiet_refl hw hs)⟩)
  | accept id capacity =>
    rw [act] at ha
    split at ha
    · rename_i t ht
      split at ha
      · rename_i hid
        refine .inr (.inl ⟨id, capacity, t, rfl, ht, ?_, (Option.some.inj ha).symm⟩)
        exact Option.isNone_iff_eq_none.mp hid
      · cases ha
    · cases ha
  | join id exists' =>
    rw [act] at ha
    split at ha
    · rename_i c hid
      obtain ⟨r, hj, rfl⟩ := Option.map_eq_some_iff.mp ha
      exact .inr (.inr ⟨rfl, .inl (quiet_joinOrRefuse hw hs hid hj)⟩)
    · cases ha
  | event id e now =>
    cases ha
    refine .inr (.inr ⟨rfl, ?_⟩)
    by_cases he : ∃ raw, e = .text raw
    · obtain ⟨raw, rfl⟩ := he
      have k := Hub.keeps_handle hw hs id raw now
      refine .inr ⟨id, raw, now, rfl, quiet_read ?_⟩
      rw [onEvent_text]
      exact Hub.quiet_refl k.wellFormed k.inStep
    · exact .inl (quiet_read (quiet_onEvent hw hs now fun raw e => he ⟨raw, e⟩))
  | write id =>
    obtain ⟨r, ht, rfl⟩ := Option.map_eq_some_iff.mp ha
    exact .inr (.inr ⟨rfl, .inl (quiet_takeNext hw hs ht)⟩)
  | finish id =>
    cases ha
    exact .inr (.inr ⟨rfl, .inl (Hub.quiet_close hw hs id _)⟩)
  | operate op =>
    rw [act] at ha
    split at ha
    · rename_i haside
      cases ha
      exact .inr (.inr ⟨rfl, .inl (Hub.quiet_aside hw hs haside)⟩)
    · cases ha

/-- What is placed in a queue comes from a text that is handled. -/
theorem placedBy_of_mem_placed {a : Action σ} (ha : v.act d a = some v') {target : Uuid}
    {e : Envelope} (he : e ∈ placed target v v') :
    ∃ id raw now, a = .event id (.text raw) now ∧
      e ∈ Hub.placedBy target v.hub (.handle id raw now) := by
  -- what a quiet stretch leaves of a queue ends as the queue did
  have hquiet : ∀ {h h' : Hub}, h.Quiet h' →
      e ∈ (h'.queue target).drop (v.hub.queue target).length →
        e ∈ (h.queue target).drop (v.hub.queue target).length := fun q hin =>
    mem_drop_of_suffix (q.queue target) hin
  have hno : e ∉ (v.hub.queue target).drop (v.hub.queue target).length := by simp
  rcases act_cases hw hs ha with ⟨id, p, authorization, t, desk, -, -, rfl⟩ |
    ⟨id, capacity, t, -, -, hnone, rfl⟩ | ⟨-, q | ⟨id, raw, now, rfl, q⟩⟩
  · exact absurd he hno
  · rw [placed, Hub.queue_openConnection hnone] at he
    exact absurd he hno
  · exact absurd (hquiet q he) hno
  · exact ⟨id, raw, now, rfl, hquiet q he⟩

end Act

/-! ### Who is behind a connection -/

/-- What holds after every run: whoever is admitted has been granted it, and every connection is that
of a client that was admitted. -/
structure Accounted {σ : Type} (d : Desk σ) (desk : σ) (acts : List (Action σ)) (v : Venue σ) :
    Prop where
  wellFormed : v.hub.WellFormed
  inStep : v.hub.InStep
  tickets : ∀ {id t}, v.tickets.get? id = some t → Granted d desk acts id t
  connections : ∀ {id c}, v.hub.connection? id = some c →
    Admitted d desk acts id ⟨c.identity, c.room⟩

section Accounted

variable {σ : Type} {d : Desk σ} {desk : σ} {acts : List (Action σ)} {v v' : Venue σ}

theorem accounted_start (d : Desk σ) (desk : σ) : Accounted d desk [] (start desk) := by
  refine ⟨Hub.wellFormed_empty, Hub.inStep_empty, fun ht => ?_, fun hid => ?_⟩
  · cases ht
  · cases hid

theorem Accounted.act (hv : Accounted d desk acts v) (hrun : run d (start desk) acts = some v)
    {a : Action σ} (ha : v.act d a = some v') : Accounted d desk (acts ++ [a]) v' := by
  rcases act_cases hv.wellFormed hv.inStep ha with ⟨id, p, authorization, t, desk', rfl, ht, rfl⟩ |
    ⟨id, capacity, t, rfl, ht, hnone, rfl⟩ | ⟨htickets, hgoes⟩
  · refine ⟨hv.wellFormed, hv.inStep, fun {id' t'} ht' => ?_, fun hid => (hv.connections hid).append _⟩
    rw [Table.get?_insert] at ht'
    split at ht'
    · rename_i e
      cases ht'
      subst e
      obtain ⟨token, hgranted⟩ := Admission.ticketFor_ok ht
      exact ⟨acts, p, authorization, [], v, token, rfl, hrun, hgranted⟩
    · exact (hv.tickets ht').append _
  · refine ⟨hv.wellFormed.openConnection hnone _ _ _, hv.inStep.openConnection hnone _ _ _,
      fun {id' t'} ht' => ?_, fun {id' c} hid => ?_⟩
    · rw [Table.get?_erase] at ht'
      split at ht'
      · cases ht'
      · exact (hv.tickets ht').append _
    · rw [Hub.connection?_openConnection] at hid
      split at hid
      · rename_i e
        cases hid
        subst e
        exact ⟨acts, capacity, [], rfl, hv.tickets ht⟩
      · exact (hv.connections hid).append _
  · have k : v.hub.Keeps v'.hub := by
      rcases hgoes with q | ⟨id, raw, now, -, q⟩
      · exact q.toKeeps
      · exact (Hub.keeps_handle hv.wellFormed hv.inStep id raw now).trans q.toKeeps
    refine ⟨k.wellFormed, k.inStep, fun ht => ?_, fun hid' => ?_⟩
    · rw [htickets] at ht
      exact (hv.tickets ht).append a
    · obtain ⟨c, hid, hidentity, hroom⟩ := k.origin hid'
      rw [hidentity, hroom]
      exact (hv.connections hid).append a

theorem Accounted.run (hrun : run d (start desk) acts = some v) : Accounted d desk acts v := by
  induction acts using List.reverseRecOn generalizing v with
  | nil =>
    cases hrun
    exact accounted_start d desk
  | append_singleton acts a ih =>
    obtain ⟨v₁, hrun₁, hlast⟩ := Schedule.run_append_eq_some.mp hrun
    obtain ⟨v₂, ha, hend⟩ := Schedule.run_cons_eq_some.mp hlast
    cases hend
    exact (ih hrun₁).act hrun₁ ha

end Accounted

end Venue

/-! ### What a frame says, and what it does not -/

/-- What is sent for a frame: its content, under the name of the client behind the connection. -/
theorem Hub.sending_handle {h : Hub} {id : Uuid} {raw : String} {now : Instant} {s : Sending}
    (hs : (Operation.handle id raw now).sending h = some s) :
    ∃ c content, h.connection? id = some c ∧ c.state = .joined ∧
      InboundFrame.parse raw = .ok ⟨c.room, content⟩ ∧
      s = ⟨c.room, .ofSender c.room c.identity content now, some id⟩ := by
  unfold Operation.sending at hs
  dsimp only at hs
  split at hs
  · cases hs
  · rename_i c hid
    split at hs
    · cases hs
    · rename_i hc
      split at hs
      · cases hs
      · rename_i frame hv
        cases hs
        obtain ⟨hparse, hroom⟩ := validate_ok_iff.mp hv
        refine ⟨c, frame.content, hid, not_not.mp hc, ?_, ?_⟩
        · rw [hparse, ← hroom]
        · rw [hroom]

section Read

variable {h : Hub} {id : Uuid} {c : Connection} (hid : h.connection? id = some c)
  (hc : c.state = .joined)

include hid hc

theorem Session.read_of_error {raw : String} {e : ChatError}
    (hv : Hub.validate c.room raw = .error e) (now : Instant) :
    read h id now (.text raw) = (false, finish (h.close id CloseCode.policyViolation).2 id) := by
  obtain ⟨hviolation, hcode⟩ := Hub.isProtocolViolation_of_validate hv
  simp [read, onEvent, Hub.handle_of_error hid hc hv, hviolation, hcode]

theorem Session.read_of_validate {raw raw' : String} {frame : InboundFrame}
    (hv : Hub.validate c.room raw = .ok frame) (hv' : Hub.validate c.room raw' = .ok frame)
    (now : Instant) : read h id now (.text raw) = read h id now (.text raw') := by
  have hhandle : h.handle id raw now = h.handle id raw' now := by
    simp [Hub.handle, hid, hc, hv, hv']
  simp only [read, onEvent, hhandle]

end Read

/-- Two texts that are the same frame, or both none, are handled alike. -/
theorem Session.read_congr (h : Hub) (id : Uuid) (now : Instant) {raw raw' : String}
    (hsame : ∀ f, InboundFrame.parse raw = .ok f ↔ InboundFrame.parse raw' = .ok f) :
    read h id now (.text raw) = read h id now (.text raw') := by
  cases hid : h.connection? id with
  | none => simp [read, onEvent, Hub.handle, hid]
  | some c =>
    by_cases hc : c.state = .joined
    · have hvalid : ∀ frame, Hub.validate c.room raw = .ok frame ↔
          Hub.validate c.room raw' = .ok frame := by
        intro frame
        rw [Hub.validate_ok_iff, Hub.validate_ok_iff, hsame]
      cases hv : Hub.validate c.room raw with
      | ok frame => exact read_of_validate hid hc hv ((hvalid frame).mp hv) now
      | error e =>
        cases hv' : Hub.validate c.room raw' with
        | ok frame =>
          rw [(hvalid frame).mpr hv'] at hv
          cases hv
        | error e' => rw [read_of_error hid hc hv, read_of_error hid hc hv']
    · simp [read, onEvent, Hub.handle_of_not_joined hid hc]

namespace Venue

/-- **Messages are authentic.** Take any run of the server, and whatever the next action places in
the queue of a connection. It was sent by another connection, that had joined the room to which both
are bound, in a frame that names this room. It says what the frame says, it names the one whom the
gateway named for the token with which the sender was admitted to the room, and it bears the time at
which the frame was handled. Members of a frame that are not known, wherever they stand, change
nothing of what the server does. -/
theorem messages_are_authentic {σ : Type} (d : Desk σ) (desk : σ) {acts : List (Action σ)}
    {v : Venue σ} (hrun : run d (start desk) acts = some v) :
    (∀ a v' target e, v.act d a = some v' → e ∈ placed target v v' →
      ∃ id raw now c content, a = .event id (.text raw) now ∧ id ≠ target ∧
        v.hub.connection? id = some c ∧ c.state = .joined ∧ v.hub.contains c.room id = true ∧
        v.hub.contains c.room target = true ∧
        (∃ c', v.hub.connection? target = some c' ∧ c'.room = c.room) ∧
        InboundFrame.parse raw = .ok ⟨c.room, content⟩ ∧
        e = ⟨c.room, content, c.identity.userId, c.identity.displayName, now⟩ ∧
        Admitted d desk acts id ⟨c.identity, c.room⟩) ∧
    ∀ id now raw raw' ms ms', IsObject raw.toList ms → IsObject raw'.toList ms' →
      (ms.filter InboundFrame.isKnown).Perm (ms'.filter InboundFrame.isKnown) →
      v.act d (.event id (.text raw) now) = v.act d (.event id (.text raw') now) := by
  have hv : Accounted d desk acts v := Accounted.run hrun
  refine ⟨fun a v' target e ha he => ?_, fun id now raw raw' ms ms' hms hms' hperm => ?_⟩
  · obtain ⟨id, raw, now, rfl, he⟩ := placedBy_of_mem_placed hv.wellFormed hv.inStep ha he
    have hfresh : (Hub.Operation.handle id raw now).isFresh v.hub = true := rfl
    rcases Hub.placedBy_cases hv.wellFormed hfresh target with ⟨s, hs, hin, htakes, hone⟩ | ⟨hno, -⟩
    · obtain ⟨c, content, hid, hc, hparse, rfl⟩ := Hub.sending_handle hs
      rw [hone, List.mem_singleton] at he
      obtain ⟨c', hid', hc', hroom⟩ := (hv.inStep c.room target).mp hin
      refine ⟨id, raw, now, c, content, rfl, ?_, hid, hc, ?_, ?_, ⟨c', hid', hroom⟩, hparse, he,
        hv.connections hid⟩
      · rintro rfl
        simp [Hub.takes, hid] at htakes
      · exact (Hub.contains_iff _ _ _).mpr ((hv.inStep c.room id).mpr ⟨c, hid, hc, rfl⟩)
      · exact (Hub.contains_iff _ _ _).mpr hin
    · rw [hno] at he
      cases he
  · have hsame : ∀ f, InboundFrame.parse raw = .ok f ↔ InboundFrame.parse raw' = .ok f := fun f =>
      ⟨InboundFrame.parse_of_perm hms hms' hperm, InboundFrame.parse_of_perm hms' hms hperm.symm⟩
    rw [act, act, read_congr v.hub id now hsame]

/-- A gateway that knows two tokens, before a directory that knows every room. -/
def twoTokens : Desk Unit where
  authenticate token s :=
    (.answered (if token = "t1" then .ok ⟨"u1", "Ada"⟩ else if token = "t2" then .ok ⟨"u2", "Bob"⟩
      else .error .unauthorized), s)
  lookUp _ s := (.answered (.ok true), s)

/-- Two clients are admitted to a room and join it. -/
def twoClients : List (Action Unit) :=
  [.request ⟨1⟩ ⟨some "t1", some "lab"⟩ none, .request ⟨2⟩ ⟨some "t2", some "lab"⟩ none,
    .accept ⟨1⟩ 4, .accept ⟨2⟩ 4, .join ⟨1⟩ true, .join ⟨2⟩ true]

/-- A frame with a room and a content, and with more members after them. -/
def frameWith (more : String) : String :=
  "\x7b\"room_id\":\"lab\",\"content\":\"c\"" ++ more ++ "\x7d"

/-- A frame that claims to come from somebody else is sent under the name of its sender, as it is
without the claim. -/
theorem messages_are_authentic_claimed :
    ∃ v v', run twoTokens (start ()) twoClients = some v ∧
      v.act twoTokens (.event ⟨1⟩ (.text (frameWith ",\"user_id\":\"u2\"")) .zero) = some v' ∧
      placed ⟨2⟩ v v' = [⟨"lab", "c", "u1", "Ada", .zero⟩] ∧
      Admitted twoTokens () twoClients ⟨1⟩ ⟨⟨"u1", "Ada"⟩, "lab"⟩ ∧
      v.act twoTokens (.event ⟨1⟩ (.text (frameWith "")) .zero) = some v' := by
  obtain ⟨hauthentic, hsame⟩ := @messages_are_authentic Unit twoTokens () twoClients _ rfl
  refine ⟨_, _, rfl, rfl, by decide, ?_, ?_⟩
  · obtain ⟨id, raw, now, c, content, ha, -, -, -, -, -, -, -, he, hadmitted⟩ :=
      hauthentic (.event ⟨1⟩ (.text (frameWith ",\"user_id\":\"u2\"")) .zero) _ ⟨2⟩
        ⟨"lab", "c", "u1", "Ada", .zero⟩ rfl (by decide)
    obtain ⟨⟨userId, displayName⟩, room, _⟩ := c
    cases ha
    cases he
    exact hadmitted
  · have hspace : Space [] := by simp [Space]
    have hvalue : ∀ s, Value (writeText s) := fun s => (text_writeText s).value
    have hclaimed : IsObject (frameWith ",\"user_id\":\"u2\"").toList
        [("room_id", writeText "lab"), ("content", writeText "c"), ("user_id", writeText "u2")] :=
      ⟨[], _, [], rfl, hspace, object_writeObject (by simp [hvalue]), hspace⟩
    have hplain : IsObject (frameWith "").toList
        [("room_id", writeText "lab"), ("content", writeText "c")] :=
      ⟨[], _, [], rfl, hspace, object_writeObject (by simp [hvalue]), hspace⟩
    exact (hsame ⟨1⟩ .zero _ _ _ _ hplain hclaimed (.refl _)).trans rfl

/-- The key of a member that is not known must be a text as well: one that escapes half a surrogate
pair keeps the message from being sent. -/
theorem undecodable_key_stops_message :
    ∃ v v₁ v₂, run twoTokens (start ()) twoClients = some v ∧
      v.act twoTokens (.event ⟨1⟩ (.text (frameWith "")) .zero) = some v₁ ∧
      v.act twoTokens (.event ⟨1⟩ (.text (frameWith ",\"\\ud800\":1")) .zero) = some v₂ ∧
      placed ⟨2⟩ v v₁ = [⟨"lab", "c", "u1", "Ada", .zero⟩] ∧ placed ⟨2⟩ v v₂ = [] :=
  ⟨_, _, _, rfl, rfl, rfl, by decide, by decide⟩

end Venue

end ChatRooms

import ChatRooms.Proofs.Hub.Fanout
import ChatRooms.Proofs.Hub.Reach
import ChatRooms.Proofs.Hub.Removal
import ChatRooms.Proofs.Hub.Stream

/-!
The frames of one connection, one after the other, whatever else happens in between. The good ones
are sent to the room; the first bad one closes the connection and sends nothing; and those that
follow are dropped. So what a connection sends is the longest good beginning of its frames, which is
`IsSender.collect_sentBy`.
-/

namespace ChatRooms.Hub

open ChatRooms.Time

/-! ### Frames, good and bad -/

/-- The text is a frame that names the room. -/
def isGood (room raw : String) : Bool :=
  match InboundFrame.parse raw with
  | .ok frame => frame.roomId = room
  | .error _ => false

/-- What is sent for the frames of a connection: all up to the first that is not good. -/
def goodPrefix (room : String) (identity : Identity) (id : Uuid) :
    List (String × Instant) → List Sending
  | [] => []
  | (raw, now) :: frames =>
    match InboundFrame.parse raw with
    | .ok frame =>
      if frame.roomId = room then
        ⟨room, .ofSender room identity frame.content now, some id⟩ ::
          goodPrefix room identity id frames
      else []
    | .error _ => []

theorem isGood_eq_true {room raw : String} (hg : isGood room raw = true) :
    ∃ frame, validate room raw = .ok frame ∧ InboundFrame.parse raw = .ok frame ∧
      frame.roomId = room := by
  unfold isGood at hg
  cases hparse : InboundFrame.parse raw with
  | error e =>
    rw [hparse] at hg
    cases hg
  | ok frame =>
    rw [hparse] at hg
    have hroom : frame.roomId = room := of_decide_eq_true hg
    exact ⟨frame, validate_ok_iff.mpr ⟨hparse, hroom⟩, rfl, hroom⟩

/-- A bad frame is malformed, or it names another room. -/
theorem isGood_eq_false {room raw : String} (hg : isGood room raw = false) :
    ∃ e, validate room raw = .error e ∧
      ((∃ reason, InboundFrame.parse raw = .error e ∧ e = .malformedMessage reason) ∨
        ∃ frame, InboundFrame.parse raw = .ok frame ∧ frame.roomId ≠ room ∧
          e = .roomMismatch room frame.roomId) := by
  unfold isGood at hg
  unfold validate
  cases hparse : InboundFrame.parse raw with
  | error e =>
    refine ⟨e, rfl, .inl ?_⟩
    unfold InboundFrame.parse at hparse
    split at hparse
    · cases hparse
      exact ⟨_, rfl, rfl⟩
    · dsimp only at hparse
      split at hparse
      · cases hparse
        exact ⟨_, rfl, rfl⟩
      · cases hparse
  | ok frame =>
    rw [hparse] at hg
    have hroom : ¬frame.roomId = room := of_decide_eq_false hg
    exact ⟨.roomMismatch room frame.roomId, if_neg hroom, .inr ⟨frame, rfl, hroom, rfl⟩⟩

/-- The frame that an operation hands over for a connection. -/
def Operation.frame? (id : Uuid) : Operation → Option (String × Instant)
  | .handle id' raw now => if id' = id then some (raw, now) else none
  | _ => none

theorem Operation.eq_of_frame? {id : Uuid} {op : Operation} {raw : String} {now : Instant}
    (hf : op.frame? id = some (raw, now)) : op = .handle id raw now := by
  cases op with
  | handle id' raw' now' =>
    rw [frame?] at hf
    split at hf
    · rename_i e
      cases hf
      rw [e]
    · cases hf
  | _ => cases hf

/-- The frames of a connection in a run, in order. -/
def frames (id : Uuid) (ops : List Operation) : List (String × Instant) :=
  ops.filterMap (Operation.frame? id)

theorem frames_cons_of_none {id : Uuid} {op : Operation} (hf : op.frame? id = none)
    (ops : List Operation) : frames id (op :: ops) = frames id ops :=
  List.filterMap_cons_none hf

theorem frames_cons_of_some {id : Uuid} {op : Operation} {f : String × Instant}
    (hf : op.frame? id = some f) (ops : List Operation) :
    frames id (op :: ops) = f :: frames id ops :=
  List.filterMap_cons_some hf

/-- All frames of a connection in a run are good. -/
def allGood (room : String) (id : Uuid) (ops : List Operation) : Bool :=
  (frames id ops).all fun f => isGood room f.1

/-- What an operation sends as a frame of a connection. -/
def sentBy (id : Uuid) (h : Hub) (op : Operation) : List Sending :=
  if (op.frame? id).isSome then (op.sending h).toList else []

/-- The operation does not close the connection, unless it is a frame of the connection itself. -/
def Operation.spares (id : Uuid) (h : Hub) (op : Operation) : Bool :=
  op.isFresh h && ((op.frame? id).isSome || h.hasClosed id || !(h.step op).2.hasClosed id)

theorem Operation.isFresh_of_spares {id : Uuid} {h : Hub} {op : Operation}
    (hop : op.spares id h = true) : op.isFresh h = true :=
  ((Bool.and_eq_true _ _).mp hop).1

theorem obeys_isFresh_of_spares {id : Uuid} {h : Hub} {ops : List Operation}
    (hops : obeys (Operation.spares id) h ops = true) :
    obeys Operation.isFresh h ops = true := by
  induction ops generalizing h with
  | nil => rfl
  | cons op ops ih =>
    rw [obeys, Bool.and_eq_true] at hops ⊢
    exact ⟨Operation.isFresh_of_spares hops.1, ih hops.2⟩

/-! ### A connection that sends -/

/-- The connection has joined the room that it is bound to, with this client behind it. -/
def IsSender (h : Hub) (room : String) (id : Uuid) (identity : Identity) : Prop :=
  ∃ c, h.connection? id = some c ∧ c.room = room ∧ c.identity = identity ∧ c.state = .joined ∧
    id ∈ h.members room

section Sender

variable {h : Hub} (hw : h.WellFormed) {room : String} {id : Uuid} {identity : Identity}

theorem IsSender.hasClosed (hs : h.IsSender room id identity) : h.hasClosed id = false := by
  obtain ⟨c, hid, -, -, hc, -⟩ := hs
  simp [Hub.hasClosed, hid, hc]

include hw

/-- A sender that is not closed stays what it is. -/
theorem IsSender.step (hs : h.IsSender room id identity) {op : Operation}
    (hop : op.isFresh h = true) (hopen : (h.step op).2.hasClosed id = false) :
    (h.step op).2.IsSender room id identity := by
  obtain ⟨c, hid, rfl, rfl, hc, hin⟩ := hs
  have hpast : c.state ≠ .connecting := by simp [hc]
  obtain ⟨c', hid', hages, hstate, -, hkept⟩ := present_step hw hid hop (.inl hpast)
  obtain ⟨c₁, hid₁, hsame, -⟩ := retains_step hid hw hop
  rw [hid'] at hid₁
  cases hid₁
  have hlive : c'.state ≠ .closed := by
    intro hclosed
    simp [Hub.hasClosed, hid', hclosed] at hopen
  have hjoined : c'.state = .joined := by
    rcases hstate with e | ⟨e, -⟩
    · exact e.trans hc
    · exact absurd e hlive
  exact ⟨c', hid', hages.room, hsame, hjoined, (hkept c.room hin).resolve_right hlive⟩

/-- A good frame is sent to the others in the room, and changes nothing for its sender. -/
theorem IsSender.handle_good (hs : h.IsSender room id identity) {raw : String}
    {frame : InboundFrame} (hparse : InboundFrame.parse raw = .ok frame)
    (hroom : frame.roomId = room) (now : Instant) :
    let e := Envelope.ofSender room identity frame.content now
    let r := h.broadcast room e (some id)
    h.handle id raw now = (.ok r.1, r.2) ∧
    (Operation.handle id raw now).sending h = some ⟨room, e, some id⟩ ∧
    r.2.connection? id = h.connection? id ∧ r.2.IsSender room id identity := by
  intro e r
  obtain ⟨c, hid, rfl, rfl, hc, hin⟩ := hs
  have hv : validate c.room raw = .ok frame := validate_ok_iff.mpr ⟨hparse, hroom⟩
  have hhandle : h.handle id raw now = (.ok r.1, r.2) := by
    have hok := handle_of_ok hid hc hv now
    rw [hroom] at hok
    exact hok
  have hsame : r.2.connection? id = h.connection? id := by
    refine (connection?_broadcast (hw.nodup c.room) e (some id) id).trans ?_
    simp
  refine ⟨hhandle, ?_, hsame, ?_⟩
  · simp [Operation.sending, hid, hc, hv, hroom, e]
  · have hstep : (h.step (.handle id raw now)).2 = r.2 := congrArg Prod.snd hhandle
    have hopen : (h.step (.handle id raw now)).2.hasClosed id = false := by
      rw [hstep]
      simp [Hub.hasClosed, hsame, hid, hc]
    rw [← hstep]
    exact IsSender.step hw ⟨c, hid, rfl, rfl, hc, hin⟩ rfl hopen

/-- A bad frame is sent to nobody, and gets its sender out of the room. -/
theorem IsSender.handle_bad (hs : h.IsSender room id identity) {raw : String}
    (hbad : isGood room raw = false) (now : Instant) :
    ∃ e, h.handle id raw now = (.error e, (h.close id CloseCode.policyViolation).2) ∧
      e.isProtocolViolation = true ∧
      ((∃ reason, InboundFrame.parse raw = .error e ∧ e = .malformedMessage reason) ∨
        ∃ frame, InboundFrame.parse raw = .ok frame ∧ frame.roomId ≠ room ∧
          e = .roomMismatch room frame.roomId) ∧
      (Operation.handle id raw now).sending h = none ∧
      (h.close id CloseCode.policyViolation).2.IsOut id CloseCode.policyViolation := by
  obtain ⟨c, hid, rfl, rfl, hc, hin⟩ := hs
  obtain ⟨e, hv, hwhy⟩ := isGood_eq_false hbad
  obtain ⟨hviolation, hcode⟩ := isProtocolViolation_of_validate hv
  refine ⟨e, ?_, hviolation, hwhy, ?_, isOut_close hw hid hc hin _⟩
  · rw [handle_of_error hid hc hv, hcode]
  · simp [Operation.sending, hid, hc, hv]

end Sender

/-- What is out sends nothing. -/
theorem IsOut.handle {h : Hub} {id : Uuid} {code : UInt16} (ho : h.IsOut id code) (raw : String)
    (now : Instant) :
    h.handle id raw now = (.ok 0, h) ∧ (Operation.handle id raw now).sending h = none := by
  obtain ⟨c, hid, hc, -⟩ := ho
  have hnot : c.state ≠ .joined := by simp [hc]
  refine ⟨handle_of_not_joined hid hnot raw now, ?_⟩
  simp [Operation.sending, hid, hnot]

theorem sentBy_of_frame? {h : Hub} {id : Uuid} {op : Operation} {raw : String} {now : Instant}
    (hf : op.frame? id = some (raw, now)) :
    sentBy id h op = ((Operation.handle id raw now).sending h).toList := by
  rw [sentBy, hf, Option.isSome_some, if_pos rfl, Operation.eq_of_frame? hf]

/-! ### Whole runs -/

section Runs

variable {h : Hub} (hw : h.WellFormed) {room : String} {id : Uuid} {identity : Identity}
  {ops : List Operation}

include hw

theorem IsOut.collect_sentBy {code : UInt16} (ho : h.IsOut id code)
    (hops : obeys (Operation.spares id) h ops = true) : collect (sentBy id) h ops = [] := by
  have hstep : ∀ h op, h.WellFormed → h.IsOut id code → Operation.isFresh h op = true →
      (h.step op).2.IsOut id code := fun h op hw ho hop => ho.step hw hop
  have hnothing : ∀ h op, h.WellFormed → h.IsOut id code → Operation.isFresh h op = true →
      sentBy id h op = [] := by
    intro h op _ ho _
    cases hf : op.frame? id with
    | none => simp [sentBy, hf]
    | some f =>
      rw [sentBy_of_frame? hf, (ho.handle f.1 f.2).2]
      rfl
  exact collect_eq_nil hstep hnothing hw ho ops (obeys_isFresh_of_spares hops)

theorem IsOut.run {code : UInt16} (ho : h.IsOut id code)
    (hops : obeys (Operation.spares id) h ops = true) : (h.run ops).IsOut id code := by
  have hstep : ∀ h op, h.WellFormed → h.IsOut id code → Operation.isFresh h op = true →
      (h.step op).2.IsOut id code := fun h op hw ho hop => ho.step hw hop
  exact (hw.run_keeps (fun _ _ hop => hop) hstep ho ops (obeys_isFresh_of_spares hops)).2

/-- The first operation of a run: it leaves the sender where it is, it is a good frame, or it is a
bad one. -/
theorem IsSender.step_cases (hs : h.IsSender room id identity) {op : Operation}
    (hop : op.spares id h = true) :
    (op.frame? id = none ∧ (h.step op).2.IsSender room id identity) ∨
    (∃ raw now frame, op.frame? id = some (raw, now) ∧ InboundFrame.parse raw = .ok frame ∧
      frame.roomId = room ∧ (h.step op).2.IsSender room id identity ∧
      sentBy id h op = [⟨room, .ofSender room identity frame.content now, some id⟩]) ∨
    ∃ raw now, op.frame? id = some (raw, now) ∧ isGood room raw = false ∧ sentBy id h op = [] ∧
      (h.step op).2.IsOut id CloseCode.policyViolation := by
  cases hf : op.frame? id with
  | none =>
    have hspared : op.isFresh h = true ∧ (h.step op).2.hasClosed id = false := by
      simpa [Operation.spares, hf, hs.hasClosed] using hop
    exact .inl ⟨rfl, hs.step hw hspared.1 hspared.2⟩
  | some f =>
    obtain ⟨raw, now⟩ := f
    have hsent := sentBy_of_frame? (h := h) hf
    obtain rfl := Operation.eq_of_frame? hf
    cases hg : isGood room raw with
    | true =>
      obtain ⟨frame, -, hparse, hroom⟩ := isGood_eq_true hg
      obtain ⟨hhandle, hsending, -, hstays⟩ := hs.handle_good hw hparse hroom now
      refine .inr (.inl ⟨raw, now, frame, rfl, hparse, hroom, ?_, ?_⟩)
      · rw [← congrArg Prod.snd hhandle] at hstays
        exact hstays
      · rw [hsent, hsending]
        rfl
    | false =>
      obtain ⟨e, hhandle, -, -, hsending, hout⟩ := hs.handle_bad hw hg now
      refine .inr (.inr ⟨raw, now, rfl, hg, ?_, ?_⟩)
      · rw [hsent, hsending]
        rfl
      · rw [← congrArg Prod.snd hhandle] at hout
        exact hout

/-- A sender is where it was as long as its frames are good, and out of the room otherwise. -/
theorem IsSender.run (hs : h.IsSender room id identity)
    (hops : obeys (Operation.spares id) h ops = true) :
    if allGood room id ops then (h.run ops).IsSender room id identity
    else (h.run ops).IsOut id CloseCode.policyViolation := by
  induction ops generalizing h with
  | nil => exact hs
  | cons op ops ih =>
    rw [obeys, Bool.and_eq_true] at hops
    have hw' := hw.step (Operation.isFresh_of_spares hops.1)
    rcases hs.step_cases hw hops.1 with ⟨hf, hs'⟩ | ⟨raw, now, frame, hf, hparse, hroom, hs', -⟩ |
      ⟨raw, now, hf, hbad, -, ho⟩
    · have hrest := ih hw' hs' hops.2
      rwa [allGood, frames_cons_of_none hf]
    · have hrest := ih hw' hs' hops.2
      have hgood : isGood room raw = true := by simp [isGood, hparse, hroom]
      rwa [allGood, frames_cons_of_some hf, List.all_cons, hgood, Bool.true_and]
    · rw [allGood, frames_cons_of_some hf, List.all_cons, hbad, Bool.false_and]
      exact ho.run hw' hops.2

/-- What a sender sends is the good beginning of its frames. -/
theorem IsSender.collect_sentBy (hs : h.IsSender room id identity)
    (hops : obeys (Operation.spares id) h ops = true) :
    collect (sentBy id) h ops = goodPrefix room identity id (frames id ops) := by
  induction ops generalizing h with
  | nil => rfl
  | cons op ops ih =>
    rw [obeys, Bool.and_eq_true] at hops
    have hw' := hw.step (Operation.isFresh_of_spares hops.1)
    rw [collect]
    rcases hs.step_cases hw hops.1 with ⟨hf, hs'⟩ |
      ⟨raw, now, frame, hf, hparse, hroom, hs', hsent⟩ | ⟨raw, now, hf, hbad, hsent, ho⟩
    · have hnothing : sentBy id h op = [] := by simp [sentBy, hf]
      rw [hnothing, List.nil_append, frames_cons_of_none hf, ih hw' hs' hops.2]
    · rw [hsent, frames_cons_of_some hf, goodPrefix, hparse, ih hw' hs' hops.2]
      exact (if_pos hroom).symm
    · rw [hsent, frames_cons_of_some hf, goodPrefix, ho.collect_sentBy hw' hops.2]
      unfold isGood at hbad
      split
      · rename_i frame hparse
        rw [hparse] at hbad
        rw [if_neg (of_decide_eq_false hbad)]
        rfl
      · rfl

end Runs

/-- **A connection sends the good beginning of its frames.** Take a connection that has joined its
room, and any run in which nothing but its own frames closes it. What its frames send is the good
beginning of them, once each and in order. Each frame in it is broadcast to the room except for the
connection, and the answer is the number of those who have it at the end of their queue. The first
frame that does not parse or names another room is an error that breaks the rules; nobody gets
anything, and the connection is closed with 1008 and in no room. Every later frame is answered with 0
and changes nothing, as does every frame of any connection that has not joined. -/
theorem good_beginning_is_sent {h : Hub} (hr : h.Reachable) {id : Uuid} {c : Connection}
    (hid : h.connection? id = some c) (hc : c.state = .joined) (hin : id ∈ h.members c.room)
    {ops : List Operation} (hops : obeys (Operation.spares id) h ops = true) :
    collect (sentBy id) h ops = goodPrefix c.room c.identity id (frames id ops) ∧
    (∀ before raw now after, ops = before ++ .handle id raw now :: after →
      let g := h.run before
      let r := g.handle id raw now
      (∀ frame, allGood c.room id before = true → InboundFrame.parse raw = .ok frame →
        frame.roomId = c.room →
        let e := Envelope.ofSender c.room c.identity frame.content now
        let sent := g.broadcast c.room e (some id)
        r = (.ok sent.1, sent.2) ∧
        (sent.1 = (g.members c.room).countP fun id' => sent.2.queue id' = g.queue id' ++ [e]) ∧
        sent.2.connection? id = g.connection? id) ∧
      (allGood c.room id before = true → isGood c.room raw = false →
        ∃ e, r = (.error e, (g.close id 1008).2) ∧ e.isProtocolViolation = true ∧
          ((∃ reason, InboundFrame.parse raw = .error e ∧ e = .malformedMessage reason) ∨
            ∃ frame, InboundFrame.parse raw = .ok frame ∧ frame.roomId ≠ c.room ∧
              e = .roomMismatch c.room frame.roomId) ∧
          (∀ id', r.2.queue id' = g.queue id') ∧ r.2.IsOut id 1008) ∧
      (allGood c.room id before = false → r = (.ok 0, g))) ∧
    ∀ (g : Hub) id' c', g.connection? id' = some c' → c'.state ≠ .joined →
      ∀ raw now, g.handle id' raw now = (.ok 0, g) := by
  obtain ⟨hw, -⟩ := hr.invariant
  have hs : h.IsSender c.room id c.identity := ⟨c, hid, rfl, rfl, hc, hin⟩
  refine ⟨hs.collect_sentBy hw hops, fun before raw now after hsplit => ?_,
    fun g id' c' hid' hc' => handle_of_not_joined hid' hc'⟩
  intro g r
  rw [hsplit, obeys_append, Bool.and_eq_true] at hops
  have hwg : g.WellFormed := hw.run (obeys_isFresh_of_spares hops.1)
  have hrun := hs.run hw hops.1
  refine ⟨fun frame hgood hparse hroom => ?_, fun hgood hbad => ?_, fun hbad => ?_⟩
  · rw [if_pos hgood] at hrun
    intro e sent
    obtain ⟨hhandle, -, hsame, -⟩ := hrun.handle_good hwg hparse hroom now
    exact ⟨hhandle, count_broadcastIn hwg e (some id) (List.Perm.refl _), hsame⟩
  · rw [if_pos hgood] at hrun
    obtain ⟨e, hhandle, hviolation, hwhy, -, hout⟩ := hrun.handle_bad hwg hbad now
    have hafter : r.2 = (g.close id CloseCode.policyViolation).2 := congrArg Prod.snd hhandle
    refine ⟨e, hhandle, hviolation, hwhy, fun id' => ?_, ?_⟩
    · rw [hafter]
      exact queue_close id id' CloseCode.policyViolation
    · rw [hafter]
      exact hout
  · rw [if_neg (by simp [hbad])] at hrun
    exact (hrun.handle raw now).1

/-- A frame that names a room. -/
def frameTo (room : String) : String :=
  "\x7b\"room_id\":\"" ++ room ++ "\",\"content\":\"hi\"\x7d"

/-- Three connections: the first two have joined one room, and the third another. -/
def twoRooms : List Operation :=
  [.openConnection ⟨1⟩ ⟨"u1", "Ada"⟩ "lab" 2, .openConnection ⟨2⟩ ⟨"u2", "Bob"⟩ "lab" 2,
    .openConnection ⟨3⟩ ⟨"u3", "Eve"⟩ "hall" 2, .join ⟨1⟩ "lab" true, .join ⟨2⟩ "lab" true,
    .join ⟨3⟩ "hall" true]

/-- The first connection sends a good frame, one to the other room, and a good one again, while the
others send frames of their own. -/
def strayFrames : List Operation :=
  [.handle ⟨1⟩ (frameTo "lab") .zero, .handle ⟨2⟩ (frameTo "lab") .zero,
    .handle ⟨1⟩ (frameTo "hall") .zero, .handle ⟨3⟩ (frameTo "hall") .zero,
    .handle ⟨1⟩ (frameTo "lab") .zero]

theorem good_beginning_is_sent_stray :
    let h := empty.run twoRooms
    let e : Envelope := ⟨"lab", "hi", "u1", "Ada", .zero⟩
    h.Reachable ∧ collect (sentBy ⟨1⟩) h strayFrames = [⟨"lab", e, some ⟨1⟩⟩] ∧
    (h.handle ⟨1⟩ (frameTo "lab") .zero).1 = .ok 1 ∧
    ((h.run (strayFrames.take 2)).handle ⟨1⟩ (frameTo "hall") .zero).1 =
      .error (.roomMismatch "lab" "hall") ∧
    (h.run (strayFrames.take 3)).IsOut ⟨1⟩ 1008 ∧
    (h.run (strayFrames.take 3)).queue ⟨3⟩ = [] ∧
    (h.run (strayFrames.take 4)).handle ⟨1⟩ (frameTo "lab") .zero =
      (.ok 0, h.run (strayFrames.take 4)) := by
  intro h e
  have hreach : h.Reachable := Reachable.empty.run (by decide)
  obtain ⟨hsent, hframes, -⟩ := @good_beginning_is_sent h hreach ⟨1⟩ _ rfl (by decide) (by decide)
    strayFrames (by decide)
  obtain ⟨hgood, -, -⟩ := hframes [] _ _ _ rfl
  obtain ⟨hfirst, -, -⟩ := hgood ⟨"lab", "hi"⟩ rfl rfl rfl
  obtain ⟨-, hbad, -⟩ := hframes (strayFrames.take 2) _ _ _ rfl
  obtain ⟨-, -, -, -, hqueues, hout⟩ := hbad (by decide) (by decide)
  obtain ⟨-, -, hlater⟩ := hframes (strayFrames.take 4) _ _ _ rfl
  refine ⟨hreach, hsent.trans (by decide), ?_, ?_, hout, (hqueues ⟨3⟩).trans (by decide),
    hlater (by decide)⟩
  · exact (congrArg Prod.fst hfirst).trans (by decide)
  · decide

end ChatRooms.Hub

import ChatRooms.Proofs.Hub.Queue

/-!
The stream of a member. Between its join and its removal a connection is offered every broadcast
into its room that does not exclude it, and what is placed in its queue is just that, in order and
once each. Only the last may be missing: the one that finds the queue full or the receiver gone,
which closes and removes the connection.
-/

namespace ChatRooms.Hub

/-! ### What is placed, sent and received -/

/-- What an operation places in the queue of a connection: what stands behind the envelopes that
waited before. -/
def placedBy (id : Uuid) (h : Hub) (op : Operation) : List Envelope :=
  ((h.step op).2.queue id).drop (h.queue id).length

/-- What an operation hands to the receiver of a connection. -/
def receivedBy (id : Uuid) (h : Hub) : Operation → List Envelope
  | .receive id' =>
    match (h.receive id').1 with
    | some (.envelope e) => if id' = id then [e] else []
    | _ => []
  | _ => []

/-- What an operation sends into a room while the connection is a member that is not excluded. -/
def addressedBy (room : String) (id : Uuid) (h : Hub) (op : Operation) : List Envelope :=
  match op.sending h with
  | some s => if s.room = room ∧ s.exclude ≠ some id ∧ id ∈ h.members room then [s.envelope] else []
  | none => []

/-- The connection is closed. -/
def hasClosed (h : Hub) (id : Uuid) : Bool := (h.connection? id).any (·.state = .closed)

/-- What an operation sends into a room while the connection is a member that is neither excluded
nor closed. -/
def offeredBy (room : String) (id : Uuid) (h : Hub) (op : Operation) : List Envelope :=
  if h.hasClosed id then [] else addressedBy room id h op

/-- There is place in the queue, and somebody takes from it. -/
def hasPlace (h : Hub) (id : Uuid) : Bool := (h.connection? id).any (·.accepts)

/-- All that the operations of a run contribute, in order. -/
def collect {α : Type} (f : Hub → Operation → List α) (h : Hub) : List Operation → List α
  | [] => []
  | op :: ops => f h op ++ collect f (h.step op).2 ops

theorem collect_append {α : Type} (f : Hub → Operation → List α) (h : Hub)
    (ops more : List Operation) :
    collect f h (ops ++ more) = collect f h ops ++ collect f (h.run ops) more := by
  induction ops generalizing h with
  | nil => rfl
  | cons op ops ih =>
    rw [List.cons_append, collect, collect, ih, List.append_assoc]
    rfl

/-- Two contributions that agree wherever an invariant holds add up to the same. -/
theorem collect_congr {α : Type} {f g : Hub → Operation → List α} {P : Hub → Prop}
    (hstep : ∀ h op, h.WellFormed → P h → op.isFresh h = true → P (h.step op).2)
    (hfg : ∀ h op, h.WellFormed → P h → op.isFresh h = true → f h op = g h op)
    {h : Hub} (hw : h.WellFormed) (hP : P h) (ops : List Operation)
    (hops : obeys Operation.isFresh h ops = true) : collect f h ops = collect g h ops := by
  induction ops generalizing h with
  | nil => rfl
  | cons op ops ih =>
    rw [obeys, Bool.and_eq_true] at hops
    rw [collect, collect, hfg h op hw hP hops.1,
      ih (hw.step hops.1) (hstep h op hw hP hops.1) hops.2]

/-- What yields nothing while a property lasts yields nothing over a run. -/
theorem collect_eq_nil {α : Type} {f : Hub → Operation → List α} {P : Hub → Prop}
    (hstep : ∀ h op, h.WellFormed → P h → op.isFresh h = true → P (h.step op).2)
    (hf : ∀ h op, h.WellFormed → P h → op.isFresh h = true → f h op = [])
    {h : Hub} (hw : h.WellFormed) (hP : P h) (ops : List Operation)
    (hops : obeys Operation.isFresh h ops = true) : collect f h ops = [] := by
  induction ops generalizing h with
  | nil => rfl
  | cons op ops ih =>
    rw [obeys, Bool.and_eq_true] at hops
    rw [collect, hf h op hw hP hops.1, List.nil_append]
    exact ih (hw.step hops.1) (hstep h op hw hP hops.1) hops.2

/-- The receiver gets the envelope at the front, if there is one. -/
theorem receivedBy_self (h : Hub) (id : Uuid) :
    receivedBy id h (.receive id) = (h.queue id).take 1 := by
  unfold receivedBy receive queue
  dsimp only
  cases hid : h.connection? id with
  | none => rfl
  | some c =>
    cases hc : c.queue with
    | nil => by_cases hs : c.hasSender = true <;> simp [Connection.receive, hc, hs]
    | cons e rest => simp [Connection.receive, hc]

theorem receivedBy_of_ne (h : Hub) {id : Uuid} {op : Operation} (hr : op ≠ .receive id) :
    receivedBy id h op = [] := by
  cases op with
  | receive id' =>
    have e : id' ≠ id := fun e => hr (e ▸ rfl)
    unfold receivedBy
    dsimp only
    split
    · exact if_neg e
    · rfl
  | _ => rfl

private theorem drop_tail (l : List Envelope) : l.tail.drop l.length = [] := by
  rw [List.drop_eq_nil_iff, List.length_tail]
  omega

section Placed

variable {h : Hub} (hw : h.WellFormed) {op : Operation} (hop : op.isFresh h = true) (id : Uuid)

include hw hop

/-- An operation places what it sends, if the connection takes it, and nothing else. -/
theorem placedBy_cases :
    (∃ s, op.sending h = some s ∧ id ∈ h.members s.room ∧ h.takes s.exclude id = true ∧
      placedBy id h op = [s.envelope]) ∨
    (placedBy id h op = [] ∧
      ∀ s, op.sending h = some s → ¬(id ∈ h.members s.room ∧ h.takes s.exclude id = true)) := by
  unfold placedBy
  rcases queue_step hw hop id with ⟨s, hs, hin, ht, hq⟩ | ⟨rfl, hq⟩ | ⟨rfl, hq⟩ | ⟨-, -, hq, hno⟩
  · refine .inl ⟨s, hs, hin, ht, ?_⟩
    rw [hq, List.drop_left]
  · refine .inr ⟨?_, fun s hs => by cases hs⟩
    rw [hq, drop_tail]
  · refine .inr ⟨?_, fun s hs => by cases hs⟩
    rw [hq, List.drop_nil]
  · refine .inr ⟨?_, hno⟩
    rw [hq, List.drop_length]

/-- Nothing is lost on the way through a queue, as long as the receiver is there. -/
theorem queue_conserved (hd : op ≠ .dropReceiver id) :
    receivedBy id h op ++ (h.step op).2.queue id = h.queue id ++ placedBy id h op := by
  unfold placedBy
  rcases queue_step hw hop id with ⟨s, hs, -, -, hq⟩ | ⟨rfl, hq⟩ | ⟨rfl, -⟩ | ⟨hr, -, hq, -⟩
  · have hr : op ≠ .receive id := by
      rintro rfl
      cases hs
    rw [receivedBy_of_ne h hr, hq, List.drop_left, List.nil_append]
  · rw [hq, receivedBy_self, drop_tail, List.append_nil, ← List.drop_one, List.take_append_drop]
  · exact absurd rfl hd
  · rw [receivedBy_of_ne h hr, hq, List.drop_length, List.nil_append, List.append_nil]

end Placed

/-! ### A member from its join to its removal -/

/-- The connection is a member of the room, and not closed. -/
def IsLive (h : Hub) (room : String) (id : Uuid) : Prop :=
  ∃ c, h.connection? id = some c ∧ c.state ≠ .closed ∧ id ∈ h.members room

/-- The connection was closed because it could not take an envelope, and is in no room. -/
def IsOverrun (h : Hub) (id : Uuid) : Prop :=
  ∃ c, h.connection? id = some c ∧ c.state = .closed ∧ c.closeCode = CloseCode.tryAgainLater ∧
    ∀ room, id ∉ h.members room

/-- A member stays one, or is closed. -/
theorem IsLive.step {h : Hub} {room : String} {id : Uuid} (hl : h.IsLive room id)
    (hw : h.WellFormed) {op : Operation} (hop : op.isFresh h = true) :
    (h.step op).2.IsLive room id ∨ (h.step op).2.IsClosed id := by
  obtain ⟨c, hid, hc, hin⟩ := hl
  obtain ⟨c₀, hid₀, hentered⟩ := hw.entered hin
  rw [hid] at hid₀
  cases hid₀
  obtain ⟨c', hid', -, -, -, hkept⟩ := present_step hw hid hop (.inl hentered)
  by_cases hc' : c'.state = .closed
  · exact .inr ⟨c', hid', hc'⟩
  · exact .inl ⟨c', hid', hc', (hkept room hin).resolve_right hc'⟩

/-- What a broadcast into its own room does to a member that is not excluded. -/
theorem IsLive.broadcast {h : Hub} {room : String} {id : Uuid} (hl : h.IsLive room id)
    (hw : h.WellFormed) (e : Envelope) {exclude : Option Uuid} (hx : exclude ≠ some id) :
    h.hasPlace id = true ∧ h.takes exclude id = true ∧
      (h.broadcast room e exclude).2.IsLive room id ∨
    h.hasPlace id = false ∧ h.takes exclude id = false ∧
      (h.broadcast room e exclude).2.IsOverrun id := by
  obtain ⟨c, hid, hc, hin⟩ := hl
  have hconn := connection?_broadcast (hw.nodup room) e exclude id
  rw [hid, Option.map_some, if_pos ⟨hin, hx⟩, Connection.offered, if_neg hc] at hconn
  have hmem := members_broadcast (hw.nodup room) e exclude
  unfold hasPlace takes
  rw [hid]
  by_cases ha : c.accepts = true
  · refine .inl ⟨ha, by simp [hx, hc, ha], c.push e, by rw [hconn, if_pos ha], hc, ?_⟩
    rw [hmem, if_pos rfl, List.mem_filter]
    exact ⟨hin, by simp [refuses, hid, ha]⟩
  · refine .inr ⟨by simp [ha], by simp [ha], _, by rw [hconn, if_neg ha], by simp, ?_, ?_⟩
    · exact Connection.closed_closeCode hc _
    · intro room' hin'
      rw [hmem] at hin'
      split at hin'
      · have hr : h.refuses exclude id = true := by simp [refuses, hid, hx, hc, ha]
        simp [hr] at hin'
      · rename_i e
        exact e (hw.one_room hin' hin)

/-- **What a step does to a member's stream.** Either nothing is offered and nothing is placed; or
one envelope is, and it is placed, or the member is removed for it. -/
theorem IsLive.stream_step {h : Hub} {room : String} {id : Uuid} (hl : h.IsLive room id)
    (hw : h.WellFormed) {op : Operation} (hop : op.isFresh h = true) :
    (offeredBy room id h op = [] ∧ placedBy id h op = [] ∧
      ((h.step op).2.IsLive room id ∨ (h.step op).2.IsClosed id)) ∨
    (∃ e, offeredBy room id h op = [e] ∧ placedBy id h op = [e] ∧ h.hasPlace id = true ∧
      (h.step op).2.IsLive room id) ∨
    ∃ e, offeredBy room id h op = [e] ∧ placedBy id h op = [] ∧ h.hasPlace id = false ∧
      (h.step op).2.IsOverrun id := by
  have ⟨c, hid, hc, hin⟩ := hl
  have hopen : h.hasClosed id = false := by simp [hasClosed, hid, hc]
  unfold offeredBy addressedBy
  rw [hopen, if_neg (by simp)]
  cases hs : op.sending h with
  | none =>
    rcases placedBy_cases hw hop id with ⟨s, hs', -⟩ | ⟨hp, -⟩
    · rw [hs] at hs'
      cases hs'
    · exact .inl ⟨rfl, hp, hl.step hw hop⟩
  | some s =>
    dsimp only
    by_cases hto : s.room = room ∧ s.exclude ≠ some id ∧ id ∈ h.members room
    · obtain rfl := hto.1
      rw [if_pos hto, step_of_sending hs]
      rcases hl.broadcast hw s.envelope hto.2.1 with ⟨ha, ht, hl'⟩ | ⟨ha, ht, ho⟩
      · refine .inr (.inl ⟨_, rfl, ?_, ha, hl'⟩)
        rcases placedBy_cases hw hop id with ⟨s', hs', -, -, hp⟩ | ⟨-, hno⟩
        · rw [hs] at hs'
          cases hs'
          exact hp
        · exact absurd ⟨hin, ht⟩ (hno s hs)
      · refine .inr (.inr ⟨_, rfl, ?_, ha, ho⟩)
        rcases placedBy_cases hw hop id with ⟨s', hs', -, ht', -⟩ | ⟨hp, -⟩
        · rw [hs] at hs'
          cases hs'
          rw [ht] at ht'
          cases ht'
        · exact hp
    · rw [if_neg hto]
      refine .inl ⟨rfl, ?_, hl.step hw hop⟩
      rcases placedBy_cases hw hop id with ⟨s', hs', hin', ht, -⟩ | ⟨hp, -⟩
      · rw [hs] at hs'
        cases hs'
        refine absurd ⟨hw.one_room hin' hin, ?_, hin⟩ hto
        intro hx
        simp [takes, hid, hx] at ht
      · exact hp

/-! ### Before the join and after the end -/

/-- Nothing is placed in the queue of a connection that is still connecting. -/
theorem placed_before_join {h : Hub} (hw : h.WellFormed) {id : Uuid} (ops : List Operation)
    (hops : obeys Operation.isFresh h ops = true)
    (hend : ¬(h.run ops).IsPast id) : collect (placedBy id) h ops = [] := by
  induction ops generalizing h with
  | nil => rfl
  | cons op ops ih =>
    have hrest := hops
    rw [obeys, Bool.and_eq_true] at hrest
    have hp : placedBy id h op = [] := by
      rcases placedBy_cases hw hrest.1 id with ⟨s, -, hin, -⟩ | ⟨hp, -⟩
      · have hpast : h.IsPast id := hw.entered hin
        exact absurd (hpast.run hw hops) hend
      · exact hp
    rw [collect, hp, List.nil_append]
    exact ih (hw.step hrest.1) hrest.2 hend

/-- Nothing is placed in the queue of a connection that is closed. -/
theorem placedBy_of_isClosed {h : Hub} (hw : h.WellFormed) {id : Uuid} (hc : h.IsClosed id)
    {op : Operation} (hop : op.isFresh h = true) : placedBy id h op = [] := by
  obtain ⟨c, hid, hc⟩ := hc
  rcases placedBy_cases hw hop id with ⟨s, -, -, ht, -⟩ | ⟨hp, -⟩
  · simp [takes, hid, hc] at ht
  · exact hp

section Closed

variable {h : Hub} (hw : h.WellFormed) {id : Uuid} (hc : h.IsClosed id) (ops : List Operation)
  (hops : obeys Operation.isFresh h ops = true)

include hw hc hops

theorem offered_after_close (room : String) : collect (offeredBy room id) h ops = [] := by
  refine collect_eq_nil (fun _ _ hw hc hop => IsClosed.step hc hw hop) ?_ hw hc ops hops
  rintro h op - ⟨c, hid, hc⟩ -
  simp [offeredBy, hasClosed, hid, hc]

theorem placed_after_close : collect (placedBy id) h ops = [] :=
  collect_eq_nil (fun _ _ hw hc hop => IsClosed.step hc hw hop)
    (fun _ _ hw hc hop => placedBy_of_isClosed hw hc hop) hw hc ops hops

end Closed

theorem IsOverrun.isClosed {h : Hub} {id : Uuid} (ho : h.IsOverrun id) : h.IsClosed id := by
  obtain ⟨c, hid, hc, -⟩ := ho
  exact ⟨c, hid, hc⟩

/-! ### The whole stream -/

/-- Every envelope that is offered finds place. -/
def FindsPlace (room : String) (id : Uuid) (h : Hub) (ops : List Operation) : Prop :=
  ∀ mid op rest, ops = mid ++ op :: rest → offeredBy room id (h.run mid) op ≠ [] →
    (h.run mid).hasPlace id = true

/-- After an operation, an envelope is offered that finds no place; the connection is closed and
removed for it. -/
def EndsOverrun (room : String) (id : Uuid) (h : Hub) (ops : List Operation)
    (e : Envelope) : Prop :=
  ∃ mid op rest, ops = mid ++ op :: rest ∧ offeredBy room id (h.run mid) op = [e] ∧
    (h.run mid).hasPlace id = false ∧ (h.run (mid ++ [op])).IsOverrun id ∧
    collect (offeredBy room id) (h.run (mid ++ [op])) rest = []

theorem FindsPlace.of_nothing {room : String} {id : Uuid} {h : Hub} {ops : List Operation}
    (hoff : collect (offeredBy room id) h ops = []) : FindsPlace room id h ops := by
  rintro mid op rest rfl hne
  rw [collect_append, collect, List.append_eq_nil_iff, List.append_eq_nil_iff] at hoff
  exact absurd hoff.2.1 hne

theorem FindsPlace.cons {room : String} {id : Uuid} {h : Hub} {op : Operation}
    {ops : List Operation}
    (hf : FindsPlace room id (h.step op).2 ops)
    (hop : offeredBy room id h op ≠ [] → h.hasPlace id = true) :
    FindsPlace room id h (op :: ops) := by
  intro mid op' rest e
  cases mid with
  | nil =>
    cases e
    exact hop
  | cons op₁ mid =>
    cases e
    exact hf mid op' rest rfl

theorem EndsOverrun.cons {room : String} {id : Uuid} {h : Hub} {op : Operation}
    {ops : List Operation} {e : Envelope} (he : EndsOverrun room id (h.step op).2 ops e) :
    EndsOverrun room id h (op :: ops) e := by
  obtain ⟨mid, op', rest, rfl, hmid⟩ := he
  exact ⟨op :: mid, op', rest, rfl, hmid⟩

/-- The stream of a member: all that is offered is placed, but for one last envelope that finds no
place. -/
theorem IsLive.stream {h : Hub} {room : String} {id : Uuid} (hl : h.IsLive room id)
    (hw : h.WellFormed) (ops : List Operation) (hops : obeys Operation.isFresh h ops = true) :
    (collect (placedBy id) h ops = collect (offeredBy room id) h ops ∧ FindsPlace room id h ops) ∨
    ∃ e, collect (offeredBy room id) h ops = collect (placedBy id) h ops ++ [e] ∧
      EndsOverrun room id h ops e := by
  induction ops generalizing h with
  | nil => exact .inl ⟨rfl, fun mid op rest e => by simp at e⟩
  | cons op ops ih =>
    rw [obeys, Bool.and_eq_true] at hops
    have hw' := hw.step hops.1
    unfold collect
    rcases hl.stream_step hw hops.1 with ⟨ho, hp, hl' | hc⟩ | ⟨e, ho, hp, ha, hl'⟩ |
      ⟨e, ho, hp, ha, hr⟩
    · rw [ho, hp, List.nil_append, List.nil_append]
      rcases ih hl' hw' hops.2 with ⟨hall, hf⟩ | ⟨e, hlast, he⟩
      · exact .inl ⟨hall, hf.cons fun hne => absurd ho hne⟩
      · exact .inr ⟨e, hlast, he.cons⟩
    · have hoff := offered_after_close hw' hc ops hops.2 room
      rw [ho, hp, hoff, placed_after_close hw' hc ops hops.2]
      exact .inl ⟨rfl, (FindsPlace.of_nothing hoff).cons fun hne => absurd ho hne⟩
    · rw [ho, hp]
      rcases ih hl' hw' hops.2 with ⟨hall, hf⟩ | ⟨e', hlast, he⟩
      · exact .inl ⟨by rw [hall], hf.cons fun _ => ha⟩
      · exact .inr ⟨e', by rw [hlast, List.append_assoc], he.cons⟩
    · have hoff := offered_after_close hw' hr.isClosed ops hops.2 room
      rw [ho, hp, hoff, placed_after_close hw' hr.isClosed ops hops.2]
      exact .inr ⟨e, rfl, [], op, ops, rfl, ho, ha, hr, hoff⟩

/-! ### Connections in the room they are bound to -/

/-- The connection is bound to the room, and it is not in it any more once it is closed. -/
def LeavesOnClose (h : Hub) (room : String) (id : Uuid) : Prop :=
  ∃ c, h.connection? id = some c ∧ c.room = room ∧ c.state ≠ .connecting ∧
    (c.state = .closed → id ∉ h.members room)

theorem LeavesOnClose.step {h : Hub} {room : String} {id : Uuid} (hl : h.LeavesOnClose room id)
    (hw : h.WellFormed) {op : Operation} (hop : op.isFresh h = true) :
    (h.step op).2.LeavesOnClose room id := by
  obtain ⟨c, hid, rfl, hc, hout⟩ := hl
  obtain ⟨c', hid', hages, hstate, hin, -⟩ := present_step hw hid hop (.inl hc)
  refine ⟨c', hid', hages.room, ?_, fun hc' hin' => ?_⟩
  · rcases hstate with e | ⟨e, -⟩
    · exact e ▸ hc
    · simp [e]
  · rcases hstate with e | ⟨-, hout'⟩
    · exact hout (e.symm.trans hc') (hin _ hin')
    · exact hout' hin'

/-- To a connection in its own room is offered all that is addressed to it. -/
theorem offered_eq_addressed {h : Hub} {room : String} {id : Uuid} (hl : h.LeavesOnClose room id)
    (hw : h.WellFormed) (ops : List Operation) (hops : obeys Operation.isFresh h ops = true) :
    collect (offeredBy room id) h ops = collect (addressedBy room id) h ops := by
  refine collect_congr (fun _ _ hw hl hop => LeavesOnClose.step hl hw hop) ?_ hw hl ops hops
  rintro h op - ⟨c, hid, -, -, hout⟩ -
  unfold offeredBy hasClosed
  rw [hid]
  by_cases hc : c.state = .closed
  · have hnone : addressedBy room id h op = [] := by
      unfold addressedBy
      split
      · exact if_neg fun hto => hout hc hto.2.2
      · rfl
    rw [hnone, ite_self]
  · rw [if_neg (by simpa using hc)]

/-! ### The size of a queue -/

/-- The connection was opened for a room and with a capacity, and no more waits than may wait. -/
def IsBound (h : Hub) (id : Uuid) (room : String) (capacity : Nat) : Prop :=
  ∃ c, h.connection? id = some c ∧ c.room = room ∧ c.capacity = max 1 capacity ∧
    c.queue.length ≤ c.capacity

theorem IsBound.step {h : Hub} {id : Uuid} {room : String} {capacity : Nat}
    (hb : h.IsBound id room capacity) (hw : h.WellFormed) {op : Operation}
    (hop : op.isFresh h = true) : (h.step op).2.IsBound id room capacity := by
  obtain ⟨c, hid, hroom, hcap, hlen⟩ := hb
  obtain ⟨c', hid', hages⟩ := ages_step hw hid hop
  exact ⟨c', hid', hages.room.trans hroom, hages.capacity.trans hcap, hages.bounded hlen⟩

theorem IsBound.run {h : Hub} {id : Uuid} {room : String} {capacity : Nat}
    (hb : h.IsBound id room capacity) (hw : h.WellFormed) {ops : List Operation}
    (hops : obeys Operation.isFresh h ops = true) : (h.run ops).IsBound id room capacity := by
  have hkeeps : ∀ h op, h.WellFormed → h.IsBound id room capacity →
      Operation.isFresh h op = true → (h.step op).2.IsBound id room capacity := by
    intro h op hw hb hop
    exact hb.step hw hop
  exact (hw.run_keeps (fun _ _ hop => hop) hkeeps hb ops hops).2

/-- A connection stays bound as it was opened. -/
theorem isBound_of_mem {h : Hub} (hw : h.WellFormed) {ops : List Operation}
    (hops : obeys Operation.isFresh h ops = true) {id : Uuid} {identity : Identity}
    {room : String} {capacity : Nat}
    (hopen : Operation.openConnection id identity room capacity ∈ ops) :
    (h.run ops).IsBound id room capacity := by
  obtain ⟨before, after, rfl⟩ := List.append_of_mem hopen
  rw [obeys_append, Bool.and_eq_true, obeys, Bool.and_eq_true] at hops
  have hw₁ := hw.run hops.1
  have hb : ((h.run before).openConnection id identity room capacity).IsBound id room capacity := by
    refine ⟨.create identity room capacity, ?_, rfl, rfl, Nat.zero_le _⟩
    rw [connection?_openConnection, if_pos rfl]
  rw [run_append]
  exact hb.run (hw₁.step hops.2.1) hops.2.2

/-- What was received and what waits is what was placed, as long as the receiver is there. -/
theorem received_append_queue {h : Hub} (hw : h.WellFormed) {id : Uuid} (ops : List Operation)
    (hops : obeys Operation.isFresh h ops = true) (hd : Operation.dropReceiver id ∉ ops) :
    collect (receivedBy id) h ops ++ (h.run ops).queue id =
      h.queue id ++ collect (placedBy id) h ops := by
  induction ops generalizing h with
  | nil => exact (List.append_nil _).symm
  | cons op ops ih =>
    rw [obeys, Bool.and_eq_true] at hops
    rw [List.mem_cons, not_or] at hd
    have hrest := ih (hw.step hops.1) hops.2 hd.2
    have hhere := queue_conserved hw hops.1 id (Ne.symm hd.1)
    unfold collect
    rw [List.append_assoc]
    refine (congrArg _ hrest).trans ?_
    rw [← List.append_assoc, hhere, List.append_assoc]

/-! ### The stream of a member -/

/-- What is placed in the queue of a member comes from a broadcast into its room that does not
exclude it. -/
theorem IsLive.placed_from {h : Hub} {room : String} {id : Uuid} (hl : h.IsLive room id)
    (hw : h.WellFormed) {mid : List Operation} {op : Operation} {rest : List Operation}
    (hops : obeys Operation.isFresh h (mid ++ op :: rest) = true)
    (hp : placedBy id (h.run mid) op ≠ []) :
    ∃ s, op.sending (h.run mid) = some s ∧ s.room = room ∧ s.exclude ≠ some id := by
  rw [obeys_append, Bool.and_eq_true, obeys, Bool.and_eq_true] at hops
  have hkeeps : ∀ h op, h.WellFormed → h.IsLive room id ∨ h.IsClosed id →
      Operation.isFresh h op = true → (h.step op).2.IsLive room id ∨ (h.step op).2.IsClosed id := by
    rintro h op hw (hl | hc) hop
    · exact hl.step hw hop
    · exact .inr (hc.step hw hop)
  obtain ⟨hw', hphase⟩ := hw.run_keeps (fun _ _ hop => hop) hkeeps (.inl hl) mid hops.1
  rcases placedBy_cases hw' hops.2.1 id with ⟨s, hs, hin, ht, -⟩ | ⟨hnone, -⟩
  · rcases hphase with ⟨c, hid, -, hin'⟩ | ⟨c, hid, hc⟩
    · refine ⟨s, hs, hw'.one_room hin hin', fun hx => ?_⟩
      simp [takes, hid, hx] at ht
    · simp [takes, hid, hc] at ht
  · exact absurd hnone hp

/-- Whoever has joined is a live member, and was connecting until then. -/
theorem isLive_of_join {h : Hub} {room : String} {id : Uuid}
    (hj : (h.step (.join id room true)).1 = .joined (.ok ())) :
    (∃ c, h.connection? id = some c ∧ c.state = .connecting) ∧
      (h.step (.join id room true)).2.IsLive room id := by
  cases hjoin : h.join room id true with
  | none => simp [Hub.step, hjoin] at hj
  | some p =>
    obtain ⟨r, h'⟩ := p
    simp only [Hub.step, hjoin] at hj ⊢
    rcases join_cases hjoin with ⟨hno, -⟩ | ⟨-, rfl, -⟩ | ⟨-, -, rfl, c, hid, hc⟩
    · cases hno
    · cases hj
    · refine ⟨⟨c, hid, hc⟩, c.joined, ?_, by simp [Connection.joined_state hc], ?_⟩
      · rw [connection?_joined, if_pos rfl, hid]
        rfl
      · exact mem_members_joined.mpr (.inr ⟨rfl, rfl⟩)

/-- **The stream of a member.** Take a run in which a connection is opened and joins a room. Nothing
is placed in its queue before it has joined. Afterwards all that it is offered is placed, in order
and once each, but for the last envelope if that finds the queue full or the receiver gone; the
connection is closed for that with the code 1013, and removed. All of it is sent into the room by
others. In the room that the connection is bound to, it is offered whatever is addressed to it while
it is a member. The queue keeps to its capacity, and the receiver gets what is placed. -/
theorem member_stream {pre post : List Operation} {id : Uuid} {identity : Identity}
    {bound room : String} {capacity : Nat}
    (hopen : Operation.openConnection id identity bound capacity ∈ pre)
    (hops : obeys Operation.isFresh empty (pre ++ .join id room true :: post) = true)
    (hjoin : ((empty.run pre).step (.join id room true)).1 = .joined (.ok ())) :
    let h := ((empty.run pre).step (.join id room true)).2
    let placed := collect (placedBy id) h post
    let offered := collect (offeredBy room id) h post
    collect (placedBy id) empty (pre ++ [.join id room true]) = [] ∧
    (placed = offered ∧ FindsPlace room id h post ∨
      ∃ e, offered = placed ++ [e] ∧ EndsOverrun room id h post e) ∧
    (∀ mid op rest, post = mid ++ op :: rest → placedBy id (h.run mid) op ≠ [] →
      ∃ s, op.sending (h.run mid) = some s ∧ s.room = room ∧ s.exclude ≠ some id) ∧
    (bound = room → offered = collect (addressedBy room id) h post) ∧
    (∀ mid rest, post = mid ++ rest → ((h.run mid).queue id).length ≤ max 1 capacity) ∧
    (Operation.dropReceiver id ∉ pre ++ .join id room true :: post →
      collect (receivedBy id) empty (pre ++ .join id room true :: post) ++ (h.run post).queue id =
        placed) := by
  intro h placed offered
  obtain ⟨hfirst, hlive⟩ := isLive_of_join hjoin
  have hall := hops
  rw [obeys_append, Bool.and_eq_true, obeys, Bool.and_eq_true] at hops
  obtain ⟨hpre, hop, hpost⟩ := hops
  have hw₀ := wellFormed_empty.run hpre
  have hw := hw₀.step hop
  have hbound := (isBound_of_mem wellFormed_empty hpre hopen).step hw₀ hop
  have hbefore : collect (placedBy id) empty (pre ++ [.join id room true]) = [] := by
    have hjoined : placedBy id (empty.run pre) (.join id room true) = [] := by
      rcases placedBy_cases hw₀ hop id with ⟨s, hs, -⟩ | ⟨hp, -⟩
      · cases hs
      · exact hp
    rw [collect_append, collect, hjoined]
    refine List.append_eq_nil_iff.mpr ⟨placed_before_join wellFormed_empty pre hpre ?_, rfl⟩
    rintro ⟨c, hid, hc⟩
    obtain ⟨c', hid', hc'⟩ := hfirst
    rw [hid] at hid'
    cases hid'
    exact hc hc'
  refine ⟨hbefore, hlive.stream hw post hpost, fun mid op rest e hp => ?_, fun e => ?_,
    fun mid rest e => ?_, fun hd => ?_⟩
  · exact hlive.placed_from hw (e ▸ hpost) hp
  · obtain ⟨c, hid, hc, hin⟩ := hlive
    obtain ⟨c', hid', hroom, -⟩ := hbound
    obtain ⟨c₁, hid₁, hentered⟩ := hw.entered hin
    rw [hid] at hid' hid₁
    cases hid'
    cases hid₁
    exact offered_eq_addressed ⟨c, hid, hroom.trans e, hentered, fun hc' => absurd hc' hc⟩ hw post
      hpost
  · subst e
    rw [obeys_append, Bool.and_eq_true] at hpost
    obtain ⟨c, hid, -, hcap, hlen⟩ := hbound.run hw hpost.1
    unfold queue
    rw [hid]
    exact hcap ▸ hlen
  · have hq := received_append_queue wellFormed_empty _ hall hd
    have hrun : empty.run (pre ++ [.join id room true]) = h := run_append _ _ _
    rw [List.append_cons, collect_append (placedBy id), hbefore, run_append, hrun] at hq
    rw [List.append_cons]
    exact hq

/-- A message to a room, from outside. -/
def notice (room content : String) : Envelope := ⟨room, content, "u0", "Bot", .zero⟩

/-- Three messages to a member with place for one, of which it receives the first. -/
def overrunPost : List Operation :=
  [.broadcast "lab" (notice "lab" "a") none, .receive ⟨1⟩,
    .broadcast "hall" (notice "hall" "b") none, .broadcast "lab" (notice "lab" "c") none,
    .broadcast "lab" (notice "lab" "d") none, .broadcast "lab" (notice "lab" "e") none]

theorem member_stream_overrun :
    let pre : List Operation := [.openConnection ⟨1⟩ ⟨"u1", "Ada"⟩ "lab" 1]
    let h := ((empty.run pre).step (.join ⟨1⟩ "lab" true)).2
    collect (placedBy ⟨1⟩) h overrunPost = [notice "lab" "a", notice "lab" "c"] ∧
    collect (addressedBy "lab" ⟨1⟩) h overrunPost =
      [notice "lab" "a", notice "lab" "c", notice "lab" "d"] ∧
    EndsOverrun "lab" ⟨1⟩ h overrunPost (notice "lab" "d") := by
  intro pre h
  have hplaced : collect (placedBy ⟨1⟩) h overrunPost = [notice "lab" "a", notice "lab" "c"] := by
    decide
  have hto : collect (addressedBy "lab" ⟨1⟩) h overrunPost =
      [notice "lab" "a", notice "lab" "c", notice "lab" "d"] := by decide
  obtain ⟨-, hstream, -, hown, -⟩ := @member_stream pre overrunPost ⟨1⟩ ⟨"u1", "Ada"⟩ "lab" "lab" 1
    List.mem_cons_self (by decide) rfl
  refine ⟨hplaced, hto, ?_⟩
  rw [hown rfl, hto, hplaced] at hstream
  rcases hstream with ⟨hall, -⟩ | ⟨e, hlast, he⟩
  · exact absurd hall (by decide)
  · obtain rfl : notice "lab" "d" = e := by simpa using hlast
    exact he

/-- A connection that joins a room it is not bound to stays a member of it after it is closed, but
nothing is placed in its queue any more, though there is place. -/
theorem closed_guest_is_skipped :
    let pre : List Operation := [.openConnection ⟨1⟩ ⟨"u1", "Ada"⟩ "hall" 4]
    let post : List Operation :=
      [.close ⟨1⟩ CloseCode.normal, .broadcast "lab" (notice "lab" "a") none]
    let h := ((empty.run pre).step (.join ⟨1⟩ "lab" true)).2
    obeys Operation.isFresh empty (pre ++ .join ⟨1⟩ "lab" true :: post) = true ∧
    collect (addressedBy "lab" ⟨1⟩) h post = [notice "lab" "a"] ∧
    collect (placedBy ⟨1⟩) h post = [] ∧ (h.run post).contains "lab" ⟨1⟩ = true ∧
    (h.run [.close ⟨1⟩ CloseCode.normal]).hasPlace ⟨1⟩ = true := by
  decide

end ChatRooms.Hub

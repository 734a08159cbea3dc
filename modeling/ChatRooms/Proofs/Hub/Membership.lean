import Mathlib.Data.Set.Card
import ChatRooms.Proofs.Hub.Step

/-!
Membership and life agree. Who is in a room is stored in the entry of the room, and who has joined
in the connection; the operations change one before the other. As long as every connection joins the
room that it is bound to, the members of a room are, after every operation, exactly the joined
connections that are bound to it.
-/

namespace ChatRooms.Hub

/-- The members of each room are the joined connections that are bound to it. -/
def InStep (h : Hub) : Prop :=
  ∀ room id, id ∈ h.members room ↔
    ∃ c, h.connection? id = some c ∧ c.state = .joined ∧ c.room = room

/-- An operation that can be called for, and that joins a connection to its own room only. -/
def Operation.isProper (h : Hub) (op : Operation) : Bool := op.isPossible h && op.isOwn h

theorem Operation.isPossible_of_isProper {h : Hub} {op : Operation} (hop : op.isProper h = true) :
    op.isPossible h = true :=
  ((Bool.and_eq_true _ _).mp hop).1

theorem Operation.isFresh_of_isProper {h : Hub} {op : Operation} (hop : op.isProper h = true) :
    op.isFresh h = true :=
  isFresh_of_isPossible (isPossible_of_isProper hop)

theorem Operation.isOwn_of_isProper {h : Hub} {op : Operation} (hop : op.isProper h = true) :
    op.isOwn h = true :=
  ((Bool.and_eq_true _ _).mp hop).2

theorem inStep_empty : InStep empty := by
  intro room id
  constructor
  · intro hin
    cases hin
  · rintro ⟨c, hid, -⟩
    cases hid

/-! ### Membership and life stay in step -/

section Step

variable {h : Hub} (hw : h.WellFormed) (hs : h.InStep)

include hs

theorem InStep.settles {h' : Hub} (s : Settles h h') : h'.InStep := by
  intro room id
  constructor
  · intro hin
    obtain ⟨c, hid, hc, rfl⟩ := (hs room id).mp ((s.sublist room).subset hin)
    obtain ⟨c', hid', hages, e | ⟨-, hout⟩⟩ := s.present hid
    · exact ⟨c', hid', e.trans hc, hages.room⟩
    · exact absurd hin hout
  · rintro ⟨c', hid', hc', rfl⟩
    obtain ⟨c, hid⟩ : ∃ c, h.connection? id = some c := by
      cases hid : h.connection? id with
      | none =>
        rw [s.absent hid] at hid'
        cases hid'
      | some c => exact ⟨c, rfl⟩
    obtain ⟨c₁, hid₁, hages, hstate⟩ := s.present hid
    rw [hid'] at hid₁
    cases hid₁
    -- a connection that is joined afterwards was not closed, so that it was joined before
    have hc : c.state = .joined := by
      rcases hstate with e | ⟨e, -⟩
      · exact e.symm.trans hc'
      · rw [hc'] at e
        cases e
    by_contra hout
    obtain ⟨c₂, hid₂, hclosed⟩ := s.removed ((hs _ _).mpr ⟨c, hid, hc, hages.room.symm⟩) hout
    rw [hid'] at hid₂
    cases hid₂
    rw [hc'] at hclosed
    cases hclosed

theorem InStep.openConnection {id : Uuid} (hid : h.connection? id = none) (identity : Identity)
    (room : String) (capacity : Nat) : (h.openConnection id identity room capacity).InStep := by
  intro room' id'
  rw [connection?_openConnection]
  refine (hs room' id').trans ?_
  by_cases e : id = id'
  · subst e
    rw [if_pos rfl, hid]
    constructor
    · rintro ⟨c, hc, -⟩
      cases hc
    · rintro ⟨c, hc, hstate, -⟩
      cases hc
      cases hstate
  · rw [if_neg e]

include hw

theorem InStep.joined {id : Uuid} {c : Connection} (hid : h.connection? id = some c)
    (hc : c.state = .connecting) : (h.joined c.room id).InStep := by
  intro room' id'
  rw [mem_members_joined, connection?_joined]
  by_cases e : id' = id
  · subst e
    rw [if_pos rfl, hid]
    constructor
    · rintro (hin | ⟨rfl, -⟩)
      · exact absurd hin (hw.not_mem_of_connecting hid hc room')
      · exact ⟨c.joined, rfl, Connection.joined_state hc, c.ages_joined.room⟩
    · rintro ⟨c', hc', -, rfl⟩
      cases hc'
      exact .inr ⟨c.ages_joined.room, rfl⟩
  · rw [if_neg (Ne.symm e)]
    constructor
    · rintro (hin | ⟨-, e'⟩)
      · exact (hs room' id').mp hin
      · exact absurd e' e
    · exact fun hj => .inl ((hs room' id').mpr hj)

/-- One step keeps membership and life in step, if a connection that it joins to a room is bound to
that room. -/
theorem InStep.step_of_isOwn {op : Operation} (hop : op.isFresh h = true)
    (hown : op.isOwn h = true) : (h.step op).2.InStep := by
  rcases step_cases hw op with ⟨id, identity, room, capacity, rfl, e⟩ |
    ⟨id, room, c, rfl, hid, hc, e⟩ | s
  · rw [e]
    exact hs.openConnection (Option.isNone_iff_eq_none.mp hop) _ _ _
  · have hroom : c.room = room := by
      simpa [Operation.isOwn, hid] using hown
    rw [e, ← hroom]
    exact hs.joined hw hid hc
  · exact hs.settles s

theorem InStep.step {op : Operation} (hop : op.isProper h = true) : (h.step op).2.InStep :=
  hs.step_of_isOwn hw (Operation.isFresh_of_isProper hop) (Operation.isOwn_of_isProper hop)

end Step

/-! ### What never comes back -/

/-- The connection has lost its handle, and is not joined. -/
def IsStranded (h : Hub) (id : Uuid) : Prop :=
  ∃ c, h.connection? id = some c ∧ c.hasSender = false ∧ c.state ≠ .joined

theorem IsStranded.step {h : Hub} {id : Uuid} (hc : h.IsStranded id) (hw : h.WellFormed)
    {op : Operation} (hop : op.isPossible h = true) : (h.step op).2.IsStranded id := by
  obtain ⟨c, hid, hsender, hstate⟩ := hc
  obtain ⟨c', hid', hages, hstate', -⟩ :=
    present_step hw hid (Operation.isFresh_of_isPossible hop) (.inr ⟨hsender, hop⟩)
  refine ⟨c', hid', ?_, ?_⟩
  · by_contra hs
    rw [hages.sender (by simpa using hs)] at hsender
    cases hsender
  · rcases hstate' with e | ⟨e, -⟩
    · exact e ▸ hstate
    · rw [e]
      simp

/-- A handle that is free is that of a connection that is in no room. -/
theorem not_mem_of_hasFreeHandle {h : Hub} {id : Uuid} (hf : h.hasFreeHandle id = true)
    (room : String) : id ∉ h.members room := by
  intro hin
  rw [hasFreeHandle, Bool.and_eq_true, List.all_eq_true] at hf
  unfold members at hin
  cases hr : h.rooms.get? room with
  | none =>
    rw [hr] at hin
    cases hin
  | some entry =>
    rw [hr] at hin
    have hout := hf.2 _ (Table.mem_of_get? hr)
    exact absurd hin (by simpa using hout)

/-- Whoever fails to join has lost the handle. -/
theorem isStranded_of_join {h h' : Hub} (hs : h.InStep) {id : Uuid} {room : String}
    {exists' : Bool} {e : ChatError} (hf : h.hasFreeHandle id = true)
    (hj : h.join room id exists' = some (.error e, h')) : h'.IsStranded id := by
  have hout := not_mem_of_hasFreeHandle hf
  rw [hasFreeHandle, Bool.and_eq_true, Option.any_eq_true] at hf
  obtain ⟨c, hid, -⟩ := hf.1
  have hstate : c.state ≠ .joined := fun hc => hout c.room ((hs _ _).mpr ⟨c, hid, hc, rfl⟩)
  have hlost : h'.connection? id = some c.withoutSender := by
    rcases join_cases hj with ⟨-, -, rfl⟩ | ⟨-, -, -, rfl⟩ | ⟨-, hr, -⟩
    · rw [connection?_update, if_pos rfl, hid]
      rfl
    · rw [connection?_update, if_pos rfl, connection?_withEntry, hid]
      rfl
    · cases hr
  exact ⟨c.withoutSender, hlost, rfl, hstate⟩

/-! ### Whole runs -/

section Runs

variable {h : Hub} (hw : h.WellFormed) {ops : List Operation}
  (hops : obeys Operation.isProper h ops = true)

include hw hops

theorem InStep.run (hs : h.InStep) : (h.run ops).WellFormed ∧ (h.run ops).InStep :=
  hw.run_keeps (fun _ _ => Operation.isFresh_of_isProper) (fun _ _ hw hs hop => hs.step hw hop)
    hs ops hops

theorem IsClosed.run {id : Uuid} (hc : h.IsClosed id) : (h.run ops).IsClosed id := by
  have hkeeps : ∀ h op, h.WellFormed → h.IsClosed id → Operation.isProper h op = true →
      (h.step op).2.IsClosed id := by
    intro h op hw hc hop
    exact hc.step hw (Operation.isFresh_of_isProper hop)
  exact (hw.run_keeps (fun _ _ => Operation.isFresh_of_isProper) hkeeps hc ops hops).2

theorem IsStranded.run {id : Uuid} (hc : h.IsStranded id) : (h.run ops).IsStranded id := by
  have hkeeps : ∀ h op, h.WellFormed → h.IsStranded id → Operation.isProper h op = true →
      (h.step op).2.IsStranded id := by
    intro h op hw hc hop
    exact hc.step hw (Operation.isPossible_of_isProper hop)
  exact (hw.run_keeps (fun _ _ => Operation.isFresh_of_isProper) hkeeps hc ops hops).2

end Runs

/-- Whoever is not joined is in no room. -/
theorem InStep.not_contains {h : Hub} (hs : h.InStep) {id : Uuid} {c : Connection}
    (hid : h.connection? id = some c) (hc : c.state ≠ .joined) (room : String) :
    h.contains room id = false := by
  rw [← Bool.not_eq_true, contains_iff]
  intro hin
  obtain ⟨c', hid', hc', -⟩ := (hs room id).mp hin
  rw [hid] at hid'
  cases hid'
  exact hc hc'

/-- The number of members is the number of joined connections that are bound to the room. -/
theorem InStep.memberCount_eq {h : Hub} (hs : h.InStep) (hw : h.WellFormed) (room : String) :
    h.memberCount room =
      {id | ∃ c, h.connection? id = some c ∧ c.state = .joined ∧ c.room = room}.ncard := by
  have hset : {id | ∃ c, h.connection? id = some c ∧ c.state = .joined ∧ c.room = room} =
      ((h.members room).toFinset : Set Uuid) := by
    ext id
    rw [List.coe_toFinset]
    exact (hs room id).symm
  rw [hset, Set.ncard_coe_finset, List.toFinset_card_of_nodup (hw.nodup room)]
  rfl

/-- **Membership and life stay in step.** After every run of operations a connection is a member of
a room exactly if it has joined and is bound to that room. So nobody is in two rooms, who has not
joined or is closed is in none, the count of a room is that of its joined connections, and no entry
is retired, so that every join ends. It stays so: a closed connection, and one whose join failed, is
in no room after whatever follows. -/
theorem members_are_joined (ops : List Operation)
    (hops : obeys Operation.isProper empty ops = true) :
    let h := empty.run ops
    (∀ room id, h.contains room id = true ↔
      ∃ c, h.connection? id = some c ∧ c.state = .joined ∧ c.room = room) ∧
    (∀ room room' id, h.contains room id = true → h.contains room' id = true → room = room') ∧
    (∀ id c, h.connection? id = some c → c.state = .connecting ∨ c.state = .closed →
      ∀ room, h.contains room id = false) ∧
    (∀ id c more, h.connection? id = some c → c.state = .closed →
      obeys Operation.isProper h more = true →
      ∀ room, (h.run more).contains room id = false) ∧
    (∀ id room exists' e h' more, h.hasFreeHandle id = true →
      h.join room id exists' = some (.error e, h') → obeys Operation.isProper h' more = true →
      ∀ room', (h'.run more).contains room' id = false) ∧
    (∀ room, h.memberCount room =
      {id | ∃ c, h.connection? id = some c ∧ c.state = .joined ∧ c.room = room}.ncard) ∧
    (∀ room entry, h.rooms.get? room = some entry → entry.retired = false) ∧
    (∀ room id exists', (h.join room id exists').isSome) := by
  intro h
  obtain ⟨hw, hs⟩ := inStep_empty.run wellFormed_empty hops
  refine ⟨fun room id => (contains_iff _ _ _).trans (hs room id), fun room room' id hin hin' => ?_,
    fun id c hid hc room => ?_, fun id c more hid hc hmore room => ?_,
    fun id room exists' e h' more hf hj hmore room' => ?_, hs.memberCount_eq hw,
    fun room entry hr => ?_, fun room id exists' => join_isSome (hw.unretired room) id exists'⟩
  · rw [contains_iff] at hin hin'
    exact hw.one_room hin hin'
  · refine hs.not_contains hid ?_ room
    rcases hc with hc | hc <;> simp [hc]
  · obtain ⟨c', hid', hc'⟩ := IsClosed.run hw hmore ⟨c, hid, hc⟩
    exact (hs.run hw hmore).2.not_contains hid' (by simp [hc']) room
  · have s := settles_of_failed_join hj
    have hw' := s.wellFormed hw
    obtain ⟨c', hid', -, hc'⟩ := IsStranded.run hw' hmore (isStranded_of_join hs hf hj)
    exact ((hs.settles s).run hw' hmore).2.not_contains hid' hc' room'
  · have hr' := hw.unretired room
    unfold isRetired at hr'
    rw [hr] at hr'
    exact hr'

/-- Three connections of a room: two join it, and the first is removed because its queue is full.
The third has not joined yet. -/
def crowdedRun : List Operation :=
  [.openConnection ⟨1⟩ ⟨"u1", "Ada"⟩ "lab" 1, .openConnection ⟨2⟩ ⟨"u2", "Bob"⟩ "lab" 2,
    .openConnection ⟨3⟩ ⟨"u3", "Eve"⟩ "lab" 2, .join ⟨1⟩ "lab" true, .join ⟨2⟩ "lab" true,
    .broadcast "lab" ⟨"lab", "first", "u0", "Bot", .zero⟩ none,
    .broadcast "lab" ⟨"lab", "second", "u0", "Bot", .zero⟩ none]

theorem members_are_joined_crowded :
    let h := empty.run crowdedRun
    h.contains "lab" ⟨2⟩ = true ∧ h.contains "lab" ⟨1⟩ = false ∧
    (∃ c, h.connection? ⟨2⟩ = some c ∧ c.state = .joined ∧ c.room = "lab") ∧
    ((h.run [.join ⟨3⟩ "lab" true]).contains "lab" ⟨1⟩ = false) ∧
    (((h.update ⟨3⟩ .withoutSender).run [.leave "lab" ⟨2⟩]).contains "lab" ⟨3⟩ = false) ∧
    {id | ∃ c, h.connection? id = some c ∧ c.state = .joined ∧ c.room = "lab"}.ncard = 1 := by
  obtain ⟨hmember, -, -, hclosed, hfailed, hcount, -⟩ := members_are_joined crowdedRun (by decide)
  refine ⟨by decide, by decide, (hmember "lab" ⟨2⟩).mp (by decide), ?_, ?_, ?_⟩
  · exact hclosed ⟨1⟩ _ _ rfl (by decide) (by decide) "lab"
  · exact hfailed ⟨3⟩ "lab" false _ _ [.leave "lab" ⟨2⟩] (by decide) rfl (by decide) "lab"
  · exact (hcount "lab").symm

end ChatRooms.Hub

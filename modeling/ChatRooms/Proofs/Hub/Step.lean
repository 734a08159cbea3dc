import ChatRooms.Proofs.Hub.Broadcast

/-!
One step of the hub. `step_cases` says what a step can do: a new connection appears, a connecting
one becomes a member of a room, or the hub *settles*, which means that rooms only lose members, that
connections only close, and that those two go together. Invariants are proved from it, with one case
for each of the three.
-/

namespace ChatRooms.Hub

/-- What holds of the rooms of every hub, in whichever room a connection was made to join: nobody is
twice in a room or in two rooms, nobody who has not joined is in one, and no entry is retired. -/
structure WellFormed (h : Hub) : Prop where
  nodup : ∀ room, (h.members room).Nodup
  entered : ∀ {room id}, id ∈ h.members room →
    ∃ c, h.connection? id = some c ∧ c.state ≠ .connecting
  one_room : ∀ {room room' id}, id ∈ h.members room → id ∈ h.members room' → room = room'
  unretired : ∀ room, h.isRetired room = false

theorem wellFormed_empty : WellFormed empty := by
  refine ⟨fun room => ?_, fun hm => ?_, fun hm => ?_, fun room => rfl⟩
  · exact List.nodup_nil
  · cases hm
  · cases hm

/-- What a step does if nobody comes in: rooms lose members and connections close. Who is taken out
of a room is closed, and who is closed is no longer in its own room. -/
structure Settles (h h' : Hub) : Prop where
  sublist : ∀ room, (h'.members room).Sublist (h.members room)
  absent : ∀ {id}, h.connection? id = none → h'.connection? id = none
  present : ∀ {id c}, h.connection? id = some c → ∃ c', h'.connection? id = some c' ∧
    c.Ages c' ∧ (c'.state = c.state ∨ c'.state = .closed ∧ id ∉ h'.members c.room)
  removed : ∀ {room id}, id ∈ h.members room → id ∉ h'.members room →
    ∃ c', h'.connection? id = some c' ∧ c'.state = .closed
  unretired : (∀ room, h.isRetired room = false) → ∀ room, h'.isRetired room = false

theorem Settles.refl (h : Hub) : Settles h h :=
  ⟨fun _ => List.Sublist.refl _, id, fun hc => ⟨_, hc, .refl _, .inl rfl⟩,
    fun hm hm' => absurd hm hm', id⟩

/-- A step settles if it changes no membership and no state. -/
theorem Settles.of_same {h h' : Hub} (hm : ∀ room, h'.members room = h.members room)
    (hc : ∀ id, ∃ f : Connection → Connection, h'.connection? id = (h.connection? id).map f ∧
      ∀ c, c.Ages (f c) ∧ (f c).state = c.state)
    (hr : ∀ room, h'.isRetired room = h.isRetired room) : Settles h h' := by
  refine ⟨fun room => by rw [hm], fun {id} hid => ?_, fun {id c} hid => ?_, fun hin hout => ?_,
    fun hu room => by rw [hr, hu]⟩
  · obtain ⟨f, hf, -⟩ := hc id
    rw [hf, hid]
    rfl
  · obtain ⟨f, hf, hsame⟩ := hc id
    rw [hid] at hf
    exact ⟨f c, hf, (hsame c).1, .inl (hsame c).2⟩
  · rw [hm] at hout
    exact absurd hin hout

theorem settles_update (h : Hub) (id : Uuid) {f : Connection → Connection}
    (hf : ∀ c, c.Ages (f c) ∧ (f c).state = c.state) : Settles h (h.update id f) := by
  refine Settles.of_same (fun _ => rfl) (fun id' => ?_) (fun _ => rfl)
  rw [connection?_update]
  by_cases e : id = id'
  · exact ⟨f, by rw [if_pos e], hf⟩
  · exact ⟨fun c => c, by rw [if_neg e, Option.map_id'], fun c => ⟨.refl c, rfl⟩⟩

theorem settles_withEntry (h : Hub) (room : String) : Settles h (h.withEntry room) :=
  Settles.of_same (members_withEntry h room)
    (fun id => ⟨fun c => c, by rw [connection?_withEntry, Option.map_id'], fun c => ⟨.refl c, rfl⟩⟩)
    (isRetired_withEntry h room)

theorem Settles.trans {h₁ h₂ h₃ : Hub} (s : Settles h₁ h₂) (t : Settles h₂ h₃) :
    Settles h₁ h₃ := by
  refine ⟨fun room => (t.sublist room).trans (s.sublist room), fun hid => t.absent (s.absent hid),
    fun {id c} hid => ?_, fun {room id} hin hout => ?_, fun hu => t.unretired (s.unretired hu)⟩
  · obtain ⟨c₂, hid₂, hages₂, hstate₂⟩ := s.present hid
    obtain ⟨c₃, hid₃, hages₃, hstate₃⟩ := t.present hid₂
    refine ⟨c₃, hid₃, hages₂.trans hages₃, ?_⟩
    rcases hstate₃ with e₃ | ⟨e₃, hout⟩
    · rcases hstate₂ with e₂ | ⟨e₂, hout⟩
      · exact .inl (e₃.trans e₂)
      · exact .inr ⟨e₃.trans e₂, fun hin => hout ((t.sublist _).subset hin)⟩
    · exact .inr ⟨e₃, hages₂.room ▸ hout⟩
  · by_cases hin₂ : id ∈ h₂.members room
    · exact t.removed hin₂ hout
    · obtain ⟨c₂, hid₂, hclosed⟩ := s.removed hin hin₂
      obtain ⟨c₃, hid₃, -, e₃ | ⟨e₃, -⟩⟩ := t.present hid₂
      · exact ⟨c₃, hid₃, e₃.trans hclosed⟩
      · exact ⟨c₃, hid₃, e₃⟩

/-- A join that fails changes no more than the handle. -/
theorem settles_of_failed_join {h h' : Hub} {room : String} {id : Uuid} {exists' : Bool}
    {e : ChatError} (hj : h.join room id exists' = some (.error e, h')) : Settles h h' := by
  have hgone : ∀ c : Connection, c.Ages c.withoutSender ∧ c.withoutSender.state = c.state :=
    fun c => ⟨c.ages_withoutSender, rfl⟩
  rcases join_cases hj with ⟨-, -, rfl⟩ | ⟨-, -, -, rfl⟩ | ⟨-, hr, -⟩
  · exact settles_update h id hgone
  · exact (settles_withEntry h room).trans (settles_update _ id hgone)
  · cases hr

/-! ### The operations that settle -/

section Operations

variable {h : Hub} (hw : h.WellFormed)

include hw

/-- A step settles if it takes some connections out of a room and closes them, and changes no other
connection's state. -/
theorem settles_of_removed {h' : Hub} (room : String) (out : Uuid → Bool)
    (hm : ∀ room', h'.members room' =
      if room' = room then (h.members room).filter (!out ·) else h.members room')
    (hc : ∀ id, ∃ f : Connection → Connection, h'.connection? id = (h.connection? id).map f ∧
      ∀ c, h.connection? id = some c → c.Ages (f c) ∧
        ((f c).state = c.state ∧ (id ∈ h.members room → out id = false) ∨
          (f c).state = .closed ∧ out id = true ∧ (id ∈ h.members room ∨ c.room = room)))
    (hr : ∀ room', h'.isRetired room' = false) : Settles h h' := by
  have hmem : ∀ {room' id}, id ∈ h'.members room' ↔
      id ∈ h.members room' ∧ (room' = room → out id = false) := by
    intro room' id
    rw [hm]
    by_cases e : room' = room
    · subst e
      simp
    · simp [e]
  refine ⟨fun room' => ?_, fun {id} hid => ?_, fun {id c} hid => ?_, fun {room' id} hin hout => ?_,
    fun _ => hr⟩
  · rw [hm]
    split
    · rename_i e
      exact e ▸ List.filter_sublist
    · exact List.Sublist.refl _
  · obtain ⟨f, hf, -⟩ := hc id
    rw [hf, hid]
    rfl
  · obtain ⟨f, hf, hsame⟩ := hc id
    rw [hid] at hf
    obtain ⟨hages, ⟨hstate, -⟩ | ⟨hstate, hout, hwhere⟩⟩ := hsame c hid
    · exact ⟨f c, hf, hages, .inl hstate⟩
    · refine ⟨f c, hf, hages, .inr ⟨hstate, fun hin => ?_⟩⟩
      obtain ⟨hin, hkept⟩ := hmem.mp hin
      have e : c.room = room := hwhere.elim (fun hin' => hw.one_room hin hin') fun e => e
      rw [hkept e] at hout
      cases hout
  · obtain ⟨f, hf, hsame⟩ := hc id
    obtain ⟨c, hid, -⟩ := hw.entered hin
    rw [hid] at hf
    rcases (hsame c hid).2 with ⟨-, hkept⟩ | ⟨hstate, -, -⟩
    · exact absurd (hmem.mpr ⟨hin, fun e => hkept (e ▸ hin)⟩) hout
    · exact ⟨f c, hf, hstate⟩

theorem settles_leave (room : String) (id : Uuid) : Settles h (h.leave room id).2 := by
  refine settles_of_removed hw room (fun id' => id' = id) (fun room' => ?_) (fun id' => ?_)
    (isRetired_leave hw.unretired room id)
  · rw [members_leave, (hw.nodup room).erase_eq_filter]
    congr
  · rw [connection?_leave]
    by_cases e : id ∈ h.members room ∧ id = id'
    · obtain ⟨hin, rfl⟩ := e
      rw [if_pos ⟨hin, rfl⟩]
      exact ⟨_, rfl, fun c _ => ⟨(c.ages_closed _).trans (Connection.ages_withoutSender _),
        .inr ⟨by simp, by simp, .inl hin⟩⟩⟩
    · rw [if_neg e]
      refine ⟨fun c => c, by rw [Option.map_id'], fun c _ => ⟨.refl c, .inl ⟨rfl, fun hin => ?_⟩⟩⟩
      exact decide_eq_false fun e' : id' = id => e ⟨e' ▸ hin, e'.symm⟩

theorem settles_close (id : Uuid) (code : UInt16) : Settles h (h.close id code).2 := by
  cases hid : h.connection? id with
  | none =>
    rw [close_of_none hid]
    exact Settles.refl h
  | some c =>
    by_cases hc : c.state = .closed
    · rw [close_of_closed hid hc]
      exact Settles.refl h
    · refine settles_of_removed hw c.room (fun id' => id' = id) (fun room' => ?_) (fun id' => ?_)
        (isRetired_close hw.unretired id code)
      · rw [members_close hid hc, (hw.nodup c.room).erase_eq_filter]
        congr
      · by_cases e : id = id'
        · subst e
          refine ⟨_, connection?_close hid hc code, fun c' hid' => ?_⟩
          rw [hid] at hid'
          cases hid'
          split
          · exact ⟨(c.ages_closed _).trans (Connection.ages_withoutSender _),
              .inr ⟨by simp, by simp, .inr rfl⟩⟩
          · exact ⟨c.ages_closed _, .inr ⟨by simp, by simp, .inr rfl⟩⟩
        · rw [connection?_close_of_ne h e]
          refine ⟨fun c => c, by rw [Option.map_id'], fun c _ => ⟨.refl c, .inl ⟨rfl, fun _ => ?_⟩⟩⟩
          exact decide_eq_false (Ne.symm e)

theorem settles_closeRoom (room : String) : Settles h (h.closeRoom room).2 := by
  refine settles_of_removed hw room (fun _ => true) (fun room' => ?_) (fun id => ?_)
    (isRetired_closeRoom hw.unretired room)
  · rw [members_closeRoom]
    simp
  · rw [connection?_closeRoom]
    refine ⟨_, rfl, fun c _ => ?_⟩
    by_cases hin : id ∈ h.members room
    · rw [if_pos hin]
      exact ⟨(c.ages_closed _).trans (Connection.ages_withoutSender _),
        .inr ⟨by simp, rfl, .inl hin⟩⟩
    · rw [if_neg hin]
      exact ⟨.refl c, .inl ⟨rfl, fun hin' => absurd hin' hin⟩⟩

theorem settles_broadcast (room : String) (e : Envelope) (exclude : Option Uuid) :
    Settles h (h.broadcast room e exclude).2 := by
  refine settles_of_removed hw room (h.refuses exclude)
    (members_broadcast (hw.nodup room) e exclude) (fun id => ?_)
    (isRetired_broadcast (hw.nodup room) e exclude hw.unretired)
  rw [connection?_broadcast (hw.nodup room)]
  refine ⟨_, rfl, fun c hid => ⟨?_, ?_⟩⟩
  · split
    · exact c.ages_offered e
    · exact .refl c
  unfold refuses
  rw [hid]
  by_cases hin : id ∈ h.members room
  · by_cases hx : exclude = some id
    · simp [hx]
    · by_cases hc : c.state = .closed
      · simp [hx, hc, Connection.offered]
      · by_cases ha : c.accepts = true <;> simp [hx, hin, hc, ha, Connection.offered]
  · simp [hin]

theorem settles_handle (id : Uuid) (raw : String) (now : Time.Instant) :
    Settles h (h.handle id raw now).2 := by
  unfold handle
  split
  · exact Settles.refl h
  · split
    · exact Settles.refl h
    · split
      · exact settles_close hw _ _
      · exact settles_broadcast hw _ _ _

end Operations

/-! ### What a step can do -/

/-- The handle of a connection can still be used: it has not gone, and it is in no room. -/
def hasFreeHandle (h : Hub) (id : Uuid) : Bool :=
  (h.connection? id).any (·.hasSender) && h.rooms.all fun entry => !entry.2.members.contains id

/-- A new connection gets an identifier that nobody has. -/
def Operation.isFresh (h : Hub) : Operation → Bool
  | .openConnection id .. => (h.connection? id).isNone
  | _ => true

/-- An operation that can be called for: a new connection gets an identifier that nobody has, and a
join uses up a handle. -/
def Operation.isPossible (h : Hub) : Operation → Bool
  | .join id _ _ => h.hasFreeHandle id
  | op => op.isFresh h

theorem Operation.isFresh_of_isPossible {h : Hub} {op : Operation} (hop : op.isPossible h = true) :
    op.isFresh h = true := by
  cases op <;> first | exact hop | rfl

/-- A join leads into the room that its connection is bound to. -/
def Operation.isOwn (h : Hub) : Operation → Bool
  | .join id room _ => (h.connection? id).all (·.room = room)
  | _ => true

/-- Every operation of a run keeps to a rule. -/
def obeys (rule : Hub → Operation → Bool) (h : Hub) : List Operation → Bool
  | [] => true
  | op :: ops => rule h op && obeys rule (h.step op).2 ops

theorem obeys_append (rule : Hub → Operation → Bool) (h : Hub) (ops more : List Operation) :
    obeys rule h (ops ++ more) = (obeys rule h ops && obeys rule (h.run ops) more) := by
  induction ops generalizing h with
  | nil => rfl
  | cons op ops ih =>
    rw [List.cons_append, obeys, obeys, ih, Bool.and_assoc]
    rfl

theorem run_append (h : Hub) (ops more : List Operation) :
    h.run (ops ++ more) = (h.run ops).run more := List.foldl_append

/-- **What a step can do.** A new connection appears, a connecting one joins a room, or the hub
settles. -/
theorem step_cases {h : Hub} (hw : h.WellFormed) (op : Operation) :
    (∃ id identity room capacity, op = .openConnection id identity room capacity ∧
      (h.step op).2 = h.openConnection id identity room capacity) ∨
    (∃ id room c, op = .join id room true ∧ h.connection? id = some c ∧ c.state = .connecting ∧
      h.step op = (.joined (.ok ()), h.joined room id)) ∨
    Settles h (h.step op).2 := by
  cases op with
  | openConnection id identity room capacity => exact .inl ⟨id, identity, room, capacity, rfl, rfl⟩
  | join id room exists' =>
    cases hj : h.join room id exists' with
    | none =>
      have hs := join_isSome (hw.unretired room) id exists'
      rw [hj] at hs
      cases hs
    | some p =>
      obtain ⟨r, h'⟩ := p
      have hstep : h.step (.join id room exists') = (.joined r, h') := by simp [step, hj]
      rw [hstep]
      cases r with
      | error e => exact .inr (.inr (settles_of_failed_join hj))
      | ok u =>
        rcases join_cases hj with ⟨-, hr, -⟩ | ⟨-, hr, -⟩ | ⟨rfl, -, rfl, c, hid, hc⟩
        · cases hr
        · cases hr
        · exact .inr (.inl ⟨id, room, c, rfl, hid, hc, rfl⟩)
  | leave room id => exact .inr (.inr (settles_leave hw room id))
  | broadcast room e exclude => exact .inr (.inr (settles_broadcast hw room e exclude))
  | closeRoom room => exact .inr (.inr (settles_closeRoom hw room))
  | handle id raw now => exact .inr (.inr (settles_handle hw id raw now))
  | close id code => exact .inr (.inr (settles_close hw id code))
  | drop id => exact .inr (.inr (settles_close hw id CloseCode.normal))
  | receive id =>
    refine .inr (.inr ?_)
    unfold step receive
    dsimp only
    split
    · exact Settles.refl h
    · exact settles_update h id fun c => ⟨c.ages_receive, c.receive_state⟩
  | dropReceiver id =>
    exact .inr (.inr (settles_update h id fun c => ⟨c.ages_withoutReceiver, rfl⟩))

theorem mem_members_joined {h : Hub} {room room' : String} {id id' : Uuid} :
    id' ∈ (h.joined room id).members room' ↔
      id' ∈ h.members room' ∨ room' = room ∧ id' = id := by
  rw [members_joined]
  by_cases e : room' = room
  · subst e
    simp
  · simp [e]

/-- A join changes no other connection, and takes nobody out of a room. -/
theorem step_join_of_ne (h : Hub) {id id' : Uuid} (hne : id ≠ id') (room : String)
    (exists' : Bool) : (h.step (.join id room exists')).2.connection? id' = h.connection? id' ∧
      ∀ room', id' ∈ h.members room' → id' ∈ (h.step (.join id room exists')).2.members room' := by
  unfold step
  dsimp only
  cases hj : h.join room id exists' with
  | none => exact ⟨rfl, fun _ hin => hin⟩
  | some p =>
    obtain ⟨r, h'⟩ := p
    dsimp only
    rcases join_cases hj with ⟨-, -, rfl⟩ | ⟨-, -, -, rfl⟩ | ⟨-, -, rfl, -⟩
    · exact ⟨by rw [connection?_update, if_neg hne], fun _ hin => hin⟩
    · refine ⟨by rw [connection?_update, if_neg hne, connection?_withEntry], fun room' hin => ?_⟩
      rw [members_update, members_withEntry]
      exact hin
    · exact ⟨by rw [connection?_joined, if_neg hne],
        fun room' hin => mem_members_joined.mpr (.inl hin)⟩

/-- A connection that is connecting becomes a member of a room that exists. -/
theorem join_of_connecting {h : Hub} (hw : h.WellFormed) {id : Uuid} {c : Connection}
    (hid : h.connection? id = some c) (hc : c.state = .connecting) (room : String) :
    h.join room id true = some (.ok (), h.joined room id) := by
  obtain ⟨⟨r, h'⟩, hj⟩ := Option.isSome_iff_exists.mp (join_isSome (hw.unretired room) id true)
  rcases join_cases hj with ⟨hno, -⟩ | ⟨-, -, hpast, -⟩ | ⟨-, rfl, rfl, -⟩
  · cases hno
  · exact absurd hc (hpast c hid)
  · exact hj

theorem step_join_of_connecting {h : Hub} (hw : h.WellFormed) {id : Uuid} {c : Connection}
    (hid : h.connection? id = some c) (hc : c.state = .connecting) (room : String) :
    h.step (.join id room true) = (.joined (.ok ()), h.joined room id) := by
  simp only [step, join_of_connecting hw hid hc room]

/-! ### What every run keeps -/

theorem Settles.wellFormed {h h' : Hub} (hw : h.WellFormed) (s : Settles h h') :
    h'.WellFormed := by
  refine ⟨fun room => (hw.nodup room).sublist (s.sublist room), fun {room id} hin => ?_,
    fun hin hin' => ?_, s.unretired hw.unretired⟩
  · obtain ⟨c, hid, hc⟩ := hw.entered ((s.sublist room).subset hin)
    obtain ⟨c', hid', -, e | ⟨e, -⟩⟩ := s.present hid
    · exact ⟨c', hid', fun hc' => hc (e ▸ hc')⟩
    · exact ⟨c', hid', by rw [e]; simp⟩
  · exact hw.one_room ((s.sublist _).subset hin) ((s.sublist _).subset hin')

/-- A connection that is opened takes nobody's place. -/
theorem connection?_openConnection_of_some {h : Hub} {id id' : Uuid} {c : Connection}
    (hid : h.connection? id = none) (hid' : h.connection? id' = some c) (identity : Identity)
    (room : String) (capacity : Nat) :
    (h.openConnection id identity room capacity).connection? id' = some c := by
  rw [connection?_openConnection, if_neg, hid']
  rintro rfl
  rw [hid] at hid'
  cases hid'

theorem WellFormed.openConnection {h : Hub} (hw : h.WellFormed) {id : Uuid}
    (hid : h.connection? id = none) (identity : Identity) (room : String) (capacity : Nat) :
    (h.openConnection id identity room capacity).WellFormed := by
  refine ⟨hw.nodup, fun {room' id'} hin => ?_, hw.one_room, hw.unretired⟩
  obtain ⟨c, hid', hc⟩ := hw.entered hin
  exact ⟨c, connection?_openConnection_of_some hid hid' _ _ _, hc⟩

/-- A connecting connection is in no room. -/
theorem WellFormed.not_mem_of_connecting {h : Hub} (hw : h.WellFormed) {id : Uuid} {c : Connection}
    (hid : h.connection? id = some c) (hc : c.state = .connecting) (room : String) :
    id ∉ h.members room := by
  intro hin
  obtain ⟨c', hid', hc'⟩ := hw.entered hin
  rw [hid] at hid'
  cases hid'
  exact hc' hc

theorem WellFormed.joined {h : Hub} (hw : h.WellFormed) {id : Uuid} {c : Connection}
    (hid : h.connection? id = some c) (hc : c.state = .connecting) (room : String) :
    (h.joined room id).WellFormed := by
  have hout := hw.not_mem_of_connecting hid hc
  refine ⟨fun room' => ?_, fun {room' id'} hin => ?_, fun {room₁ room₂ id'} h₁ h₂ => ?_,
    isRetired_joined hw.unretired room id⟩
  · rw [members_joined]
    split
    · exact (hw.nodup room).append (List.nodup_singleton id) (by simpa using hout room)
    · exact hw.nodup room'
  · rw [connection?_joined]
    by_cases e : id = id'
    · subst e
      rw [if_pos rfl, hid]
      exact ⟨_, rfl, by rw [Connection.joined_state hc]; simp⟩
    · rw [if_neg e]
      rcases mem_members_joined.mp hin with hin | ⟨-, e'⟩
      · exact hw.entered hin
      · exact absurd e'.symm e
  · rcases mem_members_joined.mp h₁ with in₁ | ⟨e₁, rfl⟩
    · rcases mem_members_joined.mp h₂ with in₂ | ⟨e₂, rfl⟩
      · exact hw.one_room in₁ in₂
      · exact absurd in₁ (hout room₁)
    · rcases mem_members_joined.mp h₂ with in₂ | ⟨e₂, -⟩
      · exact absurd in₂ (hout room₂)
      · exact e₁.trans e₂.symm

theorem WellFormed.step {h : Hub} (hw : h.WellFormed) {op : Operation}
    (hop : op.isFresh h = true) : (h.step op).2.WellFormed := by
  rcases step_cases hw op with ⟨id, identity, room, capacity, rfl, e⟩ |
    ⟨id, room, c, rfl, hid, hc, e⟩ | s
  · rw [e]
    exact hw.openConnection (Option.isNone_iff_eq_none.mp hop) _ _ _
  · rw [e]
    exact hw.joined hid hc room
  · exact s.wellFormed hw

/-! ### What a step does to one connection -/

section Present

variable {h : Hub} (hw : h.WellFormed) {id : Uuid} {c : Connection}
  (hid : h.connection? id = some c) {op : Operation} (hop : op.isFresh h = true)

include hw hid hop

/-- No step loses a connection. -/
theorem ages_step : ∃ c', (h.step op).2.connection? id = some c' ∧ c.Ages c' := by
  rcases step_cases hw op with ⟨id', identity, room, capacity, rfl, e⟩ |
    ⟨id', room, c', rfl, hid', hc', e⟩ | s
  · rw [e]
    exact ⟨c, connection?_openConnection_of_some (Option.isNone_iff_eq_none.mp hop) hid _ _ _,
      .refl c⟩
  · rw [e, connection?_joined, hid]
    by_cases e' : id' = id
    · exact ⟨c.joined, by rw [if_pos e', Option.map_some], c.ages_joined⟩
    · exact ⟨c, by rw [if_neg e'], .refl c⟩
  · obtain ⟨c', hid', hages, -⟩ := s.present hid
    exact ⟨c', hid', hages⟩

/-- A connection that cannot join any more stays as it is, or is closed and not in its own room. It
comes into no room, and it is taken out of one only as it is closed. -/
theorem present_step
    (hc : c.state ≠ .connecting ∨ c.hasSender = false ∧ op.isPossible h = true) :
    ∃ c', (h.step op).2.connection? id = some c' ∧ c.Ages c' ∧
      (c'.state = c.state ∨ c'.state = .closed ∧ id ∉ (h.step op).2.members c.room) ∧
      (∀ room, id ∈ (h.step op).2.members room → id ∈ h.members room) ∧
      (∀ room, id ∈ h.members room → id ∈ (h.step op).2.members room ∨ c'.state = .closed) := by
  rcases step_cases hw op with ⟨id', identity, room, capacity, rfl, e⟩ |
    ⟨id', room, c', rfl, hid', hc', e⟩ | s
  · rw [e]
    exact ⟨c, connection?_openConnection_of_some (Option.isNone_iff_eq_none.mp hop) hid _ _ _,
      .refl c, .inl rfl, fun _ hin => hin, fun _ hin => .inl hin⟩
  · have hne : id' ≠ id := by
      rintro rfl
      rw [hid] at hid'
      cases hid'
      rcases hc with hc | ⟨hc, hp⟩
      · exact hc hc'
      · simp [Operation.isPossible, hasFreeHandle, hid, hc] at hp
    refine ⟨c, ?_, .refl c, .inl rfl, fun room' hin => ?_, fun room' hin => .inl ?_⟩
    · rw [e, connection?_joined, if_neg hne, hid]
    · rw [e, mem_members_joined] at hin
      exact hin.resolve_right fun hin => hne hin.2.symm
    · rw [e, mem_members_joined]
      exact .inl hin
  · obtain ⟨c', hid', hages, hstate⟩ := s.present hid
    refine ⟨c', hid', hages, hstate, fun room hin => (s.sublist room).subset hin,
      fun room hin => ?_⟩
    by_cases hin' : id ∈ (h.step op).2.members room
    · exact .inl hin'
    · obtain ⟨c₁, hid₁, hclosed⟩ := s.removed hin hin'
      rw [hid'] at hid₁
      cases hid₁
      exact .inr hclosed

end Present

/-- The connection is closed. -/
def IsClosed (h : Hub) (id : Uuid) : Prop := ∃ c, h.connection? id = some c ∧ c.state = .closed

theorem IsClosed.step {h : Hub} {id : Uuid} (hc : h.IsClosed id) (hw : h.WellFormed)
    {op : Operation} (hop : op.isFresh h = true) : (h.step op).2.IsClosed id := by
  obtain ⟨c, hid, hclosed⟩ := hc
  obtain ⟨c', hid', -, e | ⟨e, -⟩, -⟩ := present_step hw hid hop (.inl (by simp [hclosed]))
  · exact ⟨c', hid', e.trans hclosed⟩
  · exact ⟨c', hid', e⟩

/-- The connection is not connecting any more. -/
def IsPast (h : Hub) (id : Uuid) : Prop := ∃ c, h.connection? id = some c ∧ c.state ≠ .connecting

theorem IsPast.step {h : Hub} {id : Uuid} (hp : h.IsPast id) (hw : h.WellFormed) {op : Operation}
    (hop : op.isFresh h = true) : (h.step op).2.IsPast id := by
  obtain ⟨c, hid, hc⟩ := hp
  obtain ⟨c', hid', -, e | ⟨e, -⟩, -⟩ := present_step hw hid hop (.inl hc)
  · exact ⟨c', hid', e ▸ hc⟩
  · exact ⟨c', hid', by simp [e]⟩

/-- Nobody comes into a room but by joining it. -/
theorem mem_members_step {h : Hub} (hw : h.WellFormed) {op : Operation} {room : String} {id : Uuid}
    (hin : id ∈ (h.step op).2.members room) : id ∈ h.members room ∨
      op = .join id room true ∧ ∃ c, h.connection? id = some c ∧ c.state = .connecting := by
  rcases step_cases hw op with ⟨id', identity, room', capacity, rfl, e⟩ |
    ⟨id', room', c, rfl, hid, hc, e⟩ | s
  · rw [e] at hin
    exact .inl hin
  · rw [e, mem_members_joined] at hin
    rcases hin with hin | ⟨rfl, rfl⟩
    · exact .inl hin
    · exact .inr ⟨rfl, c, hid, hc⟩
  · exact .inl ((s.sublist room).subset hin)

/-! ### Whole runs -/

/-- What every step keeps holds at the end of a run. -/
theorem WellFormed.run_keeps {rule : Hub → Operation → Bool} {P : Hub → Prop}
    (hrule : ∀ h op, rule h op = true → op.isFresh h = true)
    (hstep : ∀ h op, h.WellFormed → P h → rule h op = true → P (h.step op).2)
    {h : Hub} (hw : h.WellFormed) (hP : P h) (ops : List Operation)
    (hops : obeys rule h ops = true) : (h.run ops).WellFormed ∧ P (h.run ops) := by
  induction ops generalizing h with
  | nil => exact ⟨hw, hP⟩
  | cons op ops ih =>
    rw [obeys, Bool.and_eq_true] at hops
    exact ih (hw.step (hrule h op hops.1)) (hstep h op hw hP hops.1) hops.2

theorem WellFormed.run {h : Hub} (hw : h.WellFormed) {ops : List Operation}
    (hops : obeys Operation.isFresh h ops = true) : (h.run ops).WellFormed :=
  (hw.run_keeps (P := fun _ => True) (fun _ _ hop => hop) (fun _ _ _ _ _ => trivial) trivial ops
    hops).1

theorem IsPast.run {h : Hub} {id : Uuid} (hp : h.IsPast id) (hw : h.WellFormed)
    {ops : List Operation} (hops : obeys Operation.isFresh h ops = true) :
    (h.run ops).IsPast id := by
  have hkeeps : ∀ h op, h.WellFormed → h.IsPast id → Operation.isFresh h op = true →
      (h.step op).2.IsPast id := by
    intro h op hw hp hop
    exact hp.step hw hop
  exact (hw.run_keeps (fun _ _ hop => hop) hkeeps hp ops hops).2

end ChatRooms.Hub

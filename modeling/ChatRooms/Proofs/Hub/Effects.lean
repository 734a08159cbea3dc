import Mathlib.Data.List.Basic
import Mathlib.Tactic.Basic
import ChatRooms.Hub.Operation

/-!
What the operations on the hub do to one connection and to the members of one room. Each operation
has one lemma for either side, `connection?_op` and `members_op`; nothing later unfolds an
operation. `join_cases` lists the three ways in which a join can end.
-/

namespace ChatRooms

namespace Lifecycle

@[simp] theorem closed_state (l : Lifecycle) (code : UInt16) : (l.closed code).state = .closed := by
  by_cases h : l.state = .closed <;> simp [closed, close?, h]

theorem closed_of_closed {l : Lifecycle} (h : l.state = .closed) (code : UInt16) :
    l.closed code = l := by
  simp [closed, close?, h]

theorem closed_of_open {l : Lifecycle} (h : l.state ≠ .closed) (code : UInt16) :
    l.closed code = ⟨.closed, code⟩ := by
  simp [closed, close?, h]

theorem join?_isSome_iff (l : Lifecycle) : l.join?.isSome ↔ l.state = .connecting := by
  unfold join?
  split <;> simp_all

end Lifecycle

namespace Connection

@[simp] theorem closed_isClosed (c : Connection) (code : UInt16) :
    (c.closed code).state = .closed := Lifecycle.closed_state _ _

theorem closed_of_closed {c : Connection} (h : c.state = .closed) (code : UInt16) :
    c.closed code = c := by
  unfold closed
  rw [Lifecycle.closed_of_closed h]

@[simp] theorem closed_closed (c : Connection) (code code' : UInt16) :
    (c.closed code).closed code' = c.closed code := closed_of_closed (closed_isClosed _ _) _

theorem closed_closeCode {c : Connection} (h : c.state ≠ .closed) (code : UInt16) :
    (c.closed code).closeCode = code := by
  unfold closed closeCode
  rw [Lifecycle.closed_of_open h]

theorem joined_state {c : Connection} (h : c.state = .connecting) : c.joined.state = .joined := by
  have hl : c.life.state = .connecting := h
  simp [joined, state, Lifecycle.join?, hl]

/-- What no operation on a connection undoes: its room and the size of its queue stay, a side of the
queue that has gone does not come back, no more waits than may wait, and what has been closed stays
closed, with its code. -/
structure Ages (c c' : Connection) : Prop where
  room : c'.room = c.room
  capacity : c'.capacity = c.capacity
  sender : c'.hasSender = true → c.hasSender = true
  receiver : c'.hasReceiver = true → c.hasReceiver = true
  bounded : c.queue.length ≤ c.capacity → c'.queue.length ≤ c'.capacity
  life : c.state = .closed → c'.life = c.life

theorem Ages.refl (c : Connection) : c.Ages c :=
  ⟨rfl, rfl, fun h => h, fun h => h, fun h => h, fun _ => rfl⟩

theorem Ages.trans {c₁ c₂ c₃ : Connection} (h : c₁.Ages c₂) (h' : c₂.Ages c₃) : c₁.Ages c₃ := by
  refine ⟨h'.room.trans h.room, h'.capacity.trans h.capacity, fun hs => h.sender (h'.sender hs),
    fun hr => h.receiver (h'.receiver hr), fun hb => h'.bounded (h.bounded hb),
    fun hc => (h'.life ?_).trans (h.life hc)⟩
  unfold state
  rw [h.life hc]
  exact hc

theorem ages_joined (c : Connection) : c.Ages c.joined := by
  refine ⟨rfl, rfl, fun h => h, fun h => h, fun h => h, fun hc => ?_⟩
  have hl : c.life.state = .closed := hc
  simp [joined, Lifecycle.join?, hl]

theorem ages_closed (c : Connection) (code : UInt16) : c.Ages (c.closed code) :=
  ⟨rfl, rfl, fun h => h, fun h => h, fun h => h, fun hc => Lifecycle.closed_of_closed hc code⟩

theorem ages_withoutSender (c : Connection) : c.Ages c.withoutSender :=
  ⟨rfl, rfl, fun h => (nomatch h), fun h => h, fun h => h, fun _ => rfl⟩

theorem ages_withoutReceiver (c : Connection) : c.Ages c.withoutReceiver :=
  ⟨rfl, rfl, fun h => h, fun h => (nomatch h), fun _ => Nat.zero_le _, fun _ => rfl⟩

theorem ages_push {c : Connection} (h : c.accepts = true) (e : Envelope) : c.Ages (c.push e) := by
  refine ⟨rfl, rfl, fun h => h, fun h => h, fun _ => ?_, fun _ => rfl⟩
  have hlt : c.queue.length < c.capacity := by
    simp only [accepts, Bool.and_eq_true, decide_eq_true_eq] at h
    exact h.2
  simp only [push, List.length_append, List.length_singleton]
  omega

theorem ages_receive (c : Connection) : c.Ages c.receive.2 := by
  unfold receive
  split
  · rename_i hq
    refine ⟨rfl, rfl, fun h => h, fun h => h, fun h => ?_, fun _ => rfl⟩
    rw [hq, List.length_cons] at h
    exact Nat.le_of_succ_le h
  · exact Ages.refl c

@[simp] theorem withoutSender_state (c : Connection) : c.withoutSender.state = c.state := rfl
@[simp] theorem push_state (c : Connection) (e : Envelope) : (c.push e).state = c.state := rfl

@[simp] theorem receive_state (c : Connection) : c.receive.2.state = c.state := by
  unfold receive
  split <;> rfl

end Connection

namespace Hub

variable (h : Hub)

theorem contains_iff (room : String) (id : Uuid) :
    h.contains room id = true ↔ id ∈ h.members room := by simp [contains]

theorem members_of_rooms {h h' : Hub} (e : h'.rooms = h.rooms) (room : String) :
    h'.members room = h.members room := by
  unfold members
  rw [e]

theorem isRetired_of_rooms {h h' : Hub} (e : h'.rooms = h.rooms) (room : String) :
    h'.isRetired room = h.isRetired room := by
  unfold isRetired
  rw [e]

/-! ### Changing and opening connections -/

theorem connection?_update (id id' : Uuid) (f : Connection → Connection) :
    (h.update id f).connection? id' =
      if id = id' then (h.connection? id').map f else h.connection? id' :=
  Table.get?_modify _ _ _ _

@[simp] theorem members_update (id : Uuid) (f : Connection → Connection) (room : String) :
    (h.update id f).members room = h.members room := rfl

theorem connection?_openConnection (id id' : Uuid) (identity : Identity) (room : String)
    (capacity : Nat) :
    (h.openConnection id identity room capacity).connection? id' =
      if id = id' then some (.create identity room capacity) else h.connection? id' :=
  Table.get?_insert _ _ _ _

/-! ### Entries of rooms -/

theorem members_withEntry (room room' : String) :
    (h.withEntry room).members room' = h.members room' := by
  unfold withEntry
  split
  · rfl
  · rename_i hr
    have hn : h.rooms.get? room = none := by simpa [Table.has] using hr
    by_cases e : room = room'
    · subst e
      simp [members, hn, RoomEntry.empty]
    · simp [members, Table.get?_insert, e]

theorem isRetired_withEntry (room room' : String) :
    (h.withEntry room).isRetired room' = h.isRetired room' := by
  unfold withEntry
  split
  · rfl
  · rename_i hr
    have hn : h.rooms.get? room = none := by simpa [Table.has] using hr
    by_cases e : room = room'
    · subst e
      simp [isRetired, hn, RoomEntry.empty]
    · simp [isRetired, Table.get?_insert, e]

@[simp] theorem connection?_withEntry (room : String) (id : Uuid) :
    (h.withEntry room).connection? id = h.connection? id := by
  unfold withEntry
  split <;> rfl

theorem get?_withEntry (room : String) :
    ∃ entry, (h.withEntry room).rooms.get? room = some entry := by
  unfold withEntry
  split
  · rename_i hr
    exact Option.isSome_iff_exists.mp (by simpa [Table.has] using hr)
  · exact ⟨_, Table.get?_insert_self _ _ _⟩

/-- Changing the entry of a room changes the members of that room alone. -/
theorem members_modify {h : Hub} {room : String} {entry : RoomEntry} (f : RoomEntry → RoomEntry)
    (hr : h.rooms.get? room = some entry) (room' : String) :
    Hub.members { h with rooms := h.rooms.modify room f } room' =
      if room' = room then (f entry).members else h.members room' := by
  by_cases e : room' = room
  · subst e
    simp [members, Table.get?_modify, hr]
  · simp [members, Table.get?_modify, e, Ne.symm e]

/-- Only an entry without members is unlinked. -/
theorem members_prune (room room' : String) :
    (h.prune room).members room' = h.members room' := by
  by_cases e : room = room'
  · subst e
    cases hr : h.rooms.get? room with
    | none => simp [prune, members, Table.get?_modify, hr]
    | some entry =>
      cases hm : entry.members with
      | nil => simp [prune, members, Table.get?_modify, Table.get?_erase, hr, hm,
          RoomEntry.retireIfEmpty]
      | cons id ids => simp [prune, members, Table.get?_modify, hr, hm, RoomEntry.retireIfEmpty]
  · unfold prune members
    dsimp only
    split <;> simp [Table.get?_modify, Table.get?_erase, e]

/-- An entry that is retired is unlinked at once. -/
theorem isRetired_prune (room room' : String) :
    (h.prune room).isRetired room' = if room' = room then false else h.isRetired room' := by
  by_cases e : room' = room
  · subst e
    unfold prune isRetired
    dsimp only
    split
    · simp [Table.get?_erase]
    · rename_i hr
      simpa using hr
  · unfold prune isRetired
    dsimp only
    split <;> simp [Table.get?_modify, Table.get?_erase, Ne.symm e]

/-! ### Leaving a room -/

theorem connection?_leave (room : String) (id id' : Uuid) :
    (h.leave room id).2.connection? id' =
      if id ∈ h.members room ∧ id = id' then
        (h.connection? id').map fun c => (c.closed CloseCode.normal).withoutSender
      else h.connection? id' := by
  unfold leave
  by_cases hc : id ∈ h.members room
  · have hu := connection?_update h id id' fun c => (c.closed CloseCode.normal).withoutSender
    rw [if_pos ((contains_iff _ _ _).mpr hc)]
    by_cases e : id = id'
    · subst e
      rw [if_pos ⟨hc, rfl⟩]
      rw [if_pos rfl] at hu
      dsimp only
      split <;> exact hu
    · rw [if_neg fun p => e p.2]
      rw [if_neg e] at hu
      dsimp only
      split <;> exact hu
  · rw [if_neg fun p => hc ((contains_iff _ _ _).mp p), if_neg fun p => hc p.1]

theorem members_leave (room : String) (id : Uuid) (room' : String) :
    (h.leave room id).2.members room' =
      if room' = room then (h.members room).erase id else h.members room' := by
  unfold leave
  by_cases hc : h.contains room id = true
  · rw [if_pos hc]
    dsimp only
    obtain ⟨entry, hr⟩ : ∃ entry, h.rooms.get? room = some entry := by
      cases hr : h.rooms.get? room with
      | none => simp [contains, members, hr] at hc
      | some entry => exact ⟨entry, rfl⟩
    have hm := members_modify (h := h.update id fun c => (c.closed CloseCode.normal).withoutSender)
      (fun entry => entry.without id) hr room'
    have he : (entry.without id).members = (h.members room).erase id := by
      simp [RoomEntry.without, members, hr]
    rw [he] at hm
    split
    · rw [members_prune]
      exact hm
    · exact hm
  · rw [if_neg hc]
    rw [contains_iff] at hc
    split
    · rename_i e
      rw [e, List.erase_of_not_mem hc]
    · rfl

theorem isRetired_leave {h : Hub} (hr : ∀ room, h.isRetired room = false) (room : String)
    (id : Uuid) (room' : String) : (h.leave room id).2.isRetired room' = false := by
  have hm : ∀ room', Hub.isRetired { h.update id fun c =>
      (c.closed CloseCode.normal).withoutSender with
        rooms := h.rooms.modify room (·.without id) } room' = false := by
    intro room'
    have hr' := hr room'
    unfold isRetired at hr' ⊢
    rw [Table.get?_modify]
    split
    · cases hg : h.rooms.get? room' with
      | none => rfl
      | some entry => simpa [hg, RoomEntry.without] using hr'
    · exact hr'
  unfold leave
  split
  · dsimp only
    split
    · rw [isRetired_prune]
      split
      · rfl
      · exact hm room'
    · exact hm room'
  · exact hr room'

/-! ### Closing a connection -/

theorem close_of_none {h : Hub} {id : Uuid} (hid : h.connection? id = none) (code : UInt16) :
    h.close id code = (false, h) := by
  unfold close
  rw [hid]

theorem close_of_closed {h : Hub} {id : Uuid} {c : Connection} (hid : h.connection? id = some c)
    (hc : c.state = .closed) (code : UInt16) : h.close id code = (false, h) := by
  unfold close
  rw [hid]
  exact if_pos hc

theorem close_of_open {h : Hub} {id : Uuid} {c : Connection} (hid : h.connection? id = some c)
    (hc : c.state ≠ .closed) (code : UInt16) :
    h.close id code = (true, ((h.update id (·.closed code)).leave c.room id).2) := by
  unfold close
  rw [hid]
  exact if_neg hc

/-- A close changes no other connection. -/
theorem connection?_close_of_ne {id id' : Uuid} (e : id ≠ id') (code : UInt16) :
    (h.close id code).2.connection? id' = h.connection? id' := by
  cases hid : h.connection? id with
  | none => rw [close_of_none hid]
  | some c =>
    by_cases hc : c.state = .closed
    · rw [close_of_closed hid hc]
    · rw [close_of_open hid hc, connection?_leave, if_neg fun p => e p.2, connection?_update,
        if_neg e]

/-- The first close of a connection sets its code; the handle goes if it is in the connection's own
room. -/
theorem connection?_close {h : Hub} {id : Uuid} {c : Connection} (hid : h.connection? id = some c)
    (hc : c.state ≠ .closed) (code : UInt16) :
    (h.close id code).2.connection? id =
      (h.connection? id).map fun c =>
        if id ∈ h.members c.room then (c.closed code).withoutSender else c.closed code := by
  rw [close_of_open hid hc, connection?_leave, connection?_update, if_pos rfl, hid, members_update]
  by_cases hm : id ∈ h.members c.room <;> simp [hm]

theorem members_close {h : Hub} {id : Uuid} {c : Connection} (hid : h.connection? id = some c)
    (hc : c.state ≠ .closed) (code : UInt16) (room : String) :
    (h.close id code).2.members room =
      if room = c.room then (h.members c.room).erase id else h.members room := by
  rw [close_of_open hid hc, members_leave]
  rfl

theorem isRetired_close {h : Hub} (hr : ∀ room, h.isRetired room = false) (id : Uuid)
    (code : UInt16) (room : String) : (h.close id code).2.isRetired room = false := by
  cases hid : h.connection? id with
  | none => rw [close_of_none hid, hr]
  | some c =>
    by_cases hc : c.state = .closed
    · rw [close_of_closed hid hc, hr]
    · rw [close_of_open hid hc]
      exact isRetired_leave (h := h.update id (·.closed code)) hr _ _ _

/-! ### Joining a room -/

/-- What a successful join makes of the hub. -/
def joined (h : Hub) (room : String) (id : Uuid) : Hub :=
  { (h.withEntry room).update id .joined with
    rooms := (h.withEntry room).rooms.modify room (·.adding id) }

theorem connection?_joined (room : String) (id id' : Uuid) :
    (h.joined room id).connection? id' =
      if id = id' then (h.connection? id').map .joined else h.connection? id' := by
  have hu := connection?_update (h.withEntry room) id id' .joined
  rwa [connection?_withEntry] at hu

theorem members_joined (room : String) (id : Uuid) (room' : String) :
    (h.joined room id).members room' =
      if room' = room then h.members room ++ [id] else h.members room' := by
  obtain ⟨entry, hr⟩ := get?_withEntry h room
  have hm := members_modify (h := (h.withEntry room).update id .joined)
    (fun entry => entry.adding id) hr room'
  have he : (entry.adding id).members = h.members room ++ [id] := by
    rw [← members_withEntry h room room]
    simp [RoomEntry.adding, members, hr]
  rw [he] at hm
  rw [← members_withEntry h room room']
  exact hm

theorem isRetired_joined {h : Hub} (hr : ∀ room, h.isRetired room = false) (room : String)
    (id : Uuid) (room' : String) : (h.joined room id).isRetired room' = false := by
  have hw := isRetired_withEntry h room room'
  rw [hr] at hw
  unfold joined isRetired at *
  rw [Table.get?_modify]
  split
  · cases hg : (h.withEntry room).rooms.get? room' with
    | none => rfl
    | some entry => simpa [hg, RoomEntry.adding] using hw
  · exact hw

/-- The ways in which a join can end: the room does not exist, the connection is not connecting any
more, or it becomes a member. -/
theorem join_cases {h h' : Hub} {room : String} {id : Uuid} {exists' : Bool}
    {r : Except ChatError Unit} (hj : h.join room id exists' = some (r, h')) :
    (exists' = false ∧ r = .error .roomNotFound ∧ h' = h.update id .withoutSender) ∨
    (exists' = true ∧ r = .error (closedBeforeJoin id) ∧
      (∀ c, h.connection? id = some c → c.state ≠ .connecting) ∧
      h' = (h.withEntry room).update id .withoutSender) ∨
    (exists' = true ∧ r = .ok () ∧ h' = h.joined room id ∧
      ∃ c, h.connection? id = some c ∧ c.state = .connecting) := by
  unfold join at hj
  cases exists' with
  | false =>
    rw [if_neg (by simp)] at hj
    cases hj
    exact .inl ⟨rfl, rfl, rfl⟩
  | true =>
    rw [if_pos rfl] at hj
    unfold enter at hj
    dsimp only at hj
    rw [connection?_withEntry] at hj
    split at hj
    · cases hj
    · split at hj
      · rename_i ha
        cases hj
        obtain ⟨c, hid, hl⟩ := (Option.any_eq_true _ _).mp ha
        exact .inr (.inr ⟨rfl, rfl, rfl, c, hid, (Lifecycle.join?_isSome_iff _).mp hl⟩)
      · rename_i ha
        cases hj
        refine .inr (.inl ⟨rfl, rfl, fun c hid hs => ha ?_, rfl⟩)
        exact (Option.any_eq_true _ _).mpr ⟨c, hid, (Lifecycle.join?_isSome_iff _).mpr hs⟩

/-- A join ends, unless the entry of its room is retired. -/
theorem join_isSome {h : Hub} {room : String} (hr : h.isRetired room = false) (id : Uuid)
    (exists' : Bool) : (h.join room id exists').isSome := by
  unfold join enter
  dsimp only
  rw [isRetired_withEntry, hr]
  cases exists' with
  | false => rfl
  | true =>
    rw [if_pos rfl, if_neg (by simp)]
    split <;> rfl

/-! ### Closing a room -/

private theorem connection?_foldl_closed (ids : List Uuid) (h : Hub) (id : Uuid) :
    (ids.foldl (fun h id => h.update id fun c => (c.closed CloseCode.roomClosed).withoutSender)
      h).connection? id = (h.connection? id).map fun c =>
        if id ∈ ids then (c.closed CloseCode.roomClosed).withoutSender else c := by
  induction ids generalizing h with
  | nil => simp
  | cons a ids ih =>
    have htwice : ∀ c : Connection, ((c.closed CloseCode.roomClosed).withoutSender.closed
        CloseCode.roomClosed).withoutSender = (c.closed CloseCode.roomClosed).withoutSender := by
      intro c
      rw [Connection.closed_of_closed (by simp)]
      rfl
    rw [List.foldl_cons, ih, connection?_update]
    by_cases e : a = id
    · subst e
      by_cases hin : a ∈ ids <;> simp [hin, htwice, Function.comp_def]
    · simp [e, Ne.symm e]

theorem connection?_closeRoom (room : String) (id : Uuid) :
    (h.closeRoom room).2.connection? id = (h.connection? id).map fun c =>
      if id ∈ h.members room then (c.closed CloseCode.roomClosed).withoutSender else c :=
  connection?_foldl_closed _ _ _

theorem members_closeRoom (room room' : String) :
    (h.closeRoom room).2.members room' = if room' = room then [] else h.members room' := by
  unfold closeRoom members
  dsimp only
  rw [Table.get?_erase]
  by_cases e : room' = room
  · simp [e]
  · simp [e, Ne.symm e]

theorem isRetired_closeRoom {h : Hub} (hr : ∀ room, h.isRetired room = false)
    (room room' : String) : (h.closeRoom room).2.isRetired room' = false := by
  have hr' := hr room'
  unfold closeRoom isRetired at *
  dsimp only
  rw [Table.get?_erase]
  split
  · rfl
  · exact hr'

end Hub

end ChatRooms

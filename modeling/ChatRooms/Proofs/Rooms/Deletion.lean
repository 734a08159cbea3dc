import ChatRooms.Http.App
import ChatRooms.Proofs.Schedule
import ChatRooms.Proofs.Hub.Step

/-!
Joins and deletions in flight. A join first asks the book whether its room exists and later enters
the room; a deletion first strikes the room from the book and later closes its members. Between the
two steps of a call anything else may happen. A join that was told that its room exists, and enters
it after the members have been closed, is a member of a room that does not exist. The theorem of
this module says that this is the only way to become one.
-/

namespace ChatRooms

/-! ### The book -/

namespace RoomBook

/-- The room has a row. -/
def has (b : RoomBook) (room : String) : Bool := b.rows.any (·.roomId = room)

theorem row?_isSome (b : RoomBook) (room : String) : (b.row? room).isSome = b.has room := by
  rw [Bool.eq_iff_iff, row?, has, List.find?_isSome, List.any_eq_true]

/-- Striking a room leaves the others. -/
theorem has_strike (b : RoomBook) (room room' : String) :
    has { b with rows := b.rows.filter (·.roomId ≠ room) } room' =
      (b.has room' && decide (room' ≠ room)) := by
  rw [Bool.eq_iff_iff]
  simp only [has, List.any_filter, List.any_eq_true, Bool.and_eq_true, decide_eq_true_eq]
  constructor
  · rintro ⟨row, hin, hne, rfl⟩
    exact ⟨⟨row, hin, rfl⟩, hne⟩
  · rintro ⟨⟨row, hin, rfl⟩, hne⟩
    exact ⟨row, hin, hne, rfl⟩

section Open

variable {b : RoomBook} (hopen : b.isOpen = true)

include hopen

theorem contains_of_open (room : String) : b.contains room = .ok (b.has room) := by
  rw [contains, if_neg (by simp [hopen]), row?_isSome]

theorem delete_of_open (room : String) : b.delete room =
    (.ok (b.has room), { b with rows := b.rows.filter (·.roomId ≠ room) }) := by
  rw [delete, if_neg (by simp [hopen]), row?_isSome]

theorem isOpen_create (now : Time.Instant) (room : String) (createdBy : Option String) :
    (b.create now room createdBy).2.isOpen = true := by
  rw [create, if_neg (by simp [hopen])]
  split <;> exact hopen

/-- Creating a room loses none. -/
theorem has_create {room : String} (hr : b.has room = true) (now : Time.Instant) (room' : String)
    (createdBy : Option String) : (b.create now room' createdBy).2.has room = true := by
  rw [create, if_neg (by simp [hopen])]
  split
  · exact hr
  · unfold has at hr ⊢
    rw [List.any_append, hr, Bool.true_or]

end Open

end RoomBook

/-! ### Calls in flight -/

/-- The book and the hub between two steps, and the calls that are in flight. -/
structure Lobby where
  book : RoomBook
  hub : Hub
  /-- the joins that were told that their room exists -/
  joins : Table Uuid String
  /-- the rooms that were struck from the book and whose members are not closed yet -/
  deletions : List String

namespace Lobby

/-- A step of a call, or an operation on the hub that takes one step. -/
inductive Action where
  | createRoom (room : String) (createdBy : Option String) (now : Time.Instant)
  /-- a join asks the book -/
  | lookUp (id : Uuid) (room : String)
  /-- a join that was told that its room exists enters it -/
  | insert (id : Uuid)
  /-- a deletion strikes the room from the book -/
  | deleteRoom (room : String)
  /-- a deletion that struck its room closes the members -/
  | closeMembers (room : String)
  | operate (op : Hub.Operation)

/-- The action ends a call. -/
def Action.isFinishing : Action → Bool
  | .insert _ | .closeMembers _ => true
  | _ => false

/-- An operation that is not a step of a join or of a deletion. -/
def isSeparate : Hub.Operation → Bool
  | .join .. | .closeRoom _ => false
  | _ => true

/-- Carries out an action, if it is due. A handle is used for one join. -/
def act (l : Lobby) : Action → Option Lobby
  | .createRoom room createdBy now => some { l with book := (l.book.create now room createdBy).2 }
  | .lookUp id room =>
    if l.hub.hasFreeHandle id && !l.joins.has id then
      match l.book.contains room with
      | .ok true => some { l with joins := l.joins.insert id room }
      | _ => some { l with hub := (l.hub.step (.join id room false)).2 }
    else none
  | .insert id =>
    match l.joins.get? id with
    | some room =>
      some { l with joins := l.joins.erase id, hub := (l.hub.step (.join id room true)).2 }
    | none => none
  | .deleteRoom room =>
    match l.book.delete room with
    | (.ok true, book) => some { l with book, deletions := l.deletions ++ [room] }
    | (_, book) => some { l with book }
  | .closeMembers room =>
    if room ∈ l.deletions then
      some { l with deletions := l.deletions.erase room, hub := (l.hub.closeRoom room).2 }
    else none
  | .operate op =>
    if isSeparate op && op.isFresh l.hub then some { l with hub := (l.hub.step op).2 } else none

/-- Carries out actions in order, if each is due. -/
abbrev run (l : Lobby) (acts : List Action) : Option Lobby := Schedule.run act l acts

/-- Rooms with these rows, nobody connected and no call in flight. -/
def start (rows : List RoomRow) : Lobby := ⟨⟨rows, true⟩, .empty, [], []⟩

/-- The connection has been told that the room exists, and can still join it. -/
def IsComing (l : Lobby) (room : String) (id : Uuid) : Prop :=
  l.joins.get? id = some room ∧ ∃ c, l.hub.connection? id = some c ∧ c.state = .connecting

/-- To close the members of the room now leaves somebody behind: the room does not exist, its
members will not be closed again, and a connection is on its way into it. -/
def Strands (l : Lobby) (room : String) : Prop :=
  l.book.contains room = .ok false ∧ room ∉ l.deletions.erase room ∧ ∃ id, l.IsComing room id

/-- Whenever the members of a room are closed, nobody is left behind. -/
def IsOrderly (l : Lobby) : List Action → Prop
  | [] => True
  | a :: acts => (∀ room, a = .closeMembers room → ¬l.Strands room) ∧
    ∀ l', l.act a = some l' → IsOrderly l' acts

/-! ### What each action does -/

section Inversion

variable {l l' : Lobby} {id : Uuid} {room : String}

theorem act_lookUp (hopen : l.book.isOpen = true) (ha : l.act (.lookUp id room) = some l') :
    l.hub.hasFreeHandle id = true ∧
      (l.book.has room = true ∧ l' = { l with joins := l.joins.insert id room } ∨
        l' = { l with hub := (l.hub.step (.join id room false)).2 }) := by
  simp only [act, RoomBook.contains_of_open hopen] at ha
  split at ha
  · rename_i hfree
    rw [Bool.and_eq_true] at hfree
    cases hr : l.book.has room with
    | true =>
      rw [hr] at ha
      exact ⟨hfree.1, .inl ⟨rfl, (Option.some.inj ha).symm⟩⟩
    | false =>
      rw [hr] at ha
      exact ⟨hfree.1, .inr (Option.some.inj ha).symm⟩
  · cases ha

theorem act_insert (ha : l.act (.insert id) = some l') : ∃ room, l.joins.get? id = some room ∧
    l' = { l with joins := l.joins.erase id, hub := (l.hub.step (.join id room true)).2 } := by
  simp only [act] at ha
  split at ha
  · rename_i room hj
    exact ⟨room, hj, (Option.some.inj ha).symm⟩
  · cases ha

theorem act_deleteRoom (hopen : l.book.isOpen = true) (ha : l.act (.deleteRoom room) = some l') :
    l' = { l with
      book := { l.book with rows := l.book.rows.filter (·.roomId ≠ room) }
      deletions := if l.book.has room then l.deletions ++ [room] else l.deletions } := by
  rw [act, RoomBook.delete_of_open hopen] at ha
  cases hr : l.book.has room <;>
  · rw [hr] at ha
    exact (Option.some.inj ha).symm

theorem act_closeMembers (ha : l.act (.closeMembers room) = some l') : room ∈ l.deletions ∧
    l' = { l with deletions := l.deletions.erase room, hub := (l.hub.closeRoom room).2 } := by
  rw [act] at ha
  split at ha
  · rename_i hin
    exact ⟨hin, (Option.some.inj ha).symm⟩
  · cases ha

theorem act_operate {op : Hub.Operation} (ha : l.act (.operate op) = some l') :
    isSeparate op = true ∧ op.isFresh l.hub = true ∧
      l' = { l with hub := (l.hub.step op).2 } := by
  rw [act] at ha
  split at ha
  · rename_i hop
    rw [Bool.and_eq_true] at hop
    exact ⟨hop.1, hop.2, (Option.some.inj ha).symm⟩
  · cases ha

end Inversion

/-! ### What an action keeps -/

/-- What holds of the lobby after every run. -/
structure Sound (l : Lobby) : Prop where
  wellFormed : l.hub.WellFormed
  isOpen : l.book.isOpen = true
  known : ∀ {id room}, l.joins.get? id = some room → ∃ c, l.hub.connection? id = some c

/-- A room that does not exist, but has members or has some coming, is about to be closed. -/
def Safe (l : Lobby) : Prop :=
  ∀ room, l.book.has room = false →
    (∃ id, id ∈ l.hub.members room ∨ l.IsComing room id) → room ∈ l.deletions

theorem sound_start (rows : List RoomRow) : (start rows).Sound :=
  ⟨Hub.wellFormed_empty, rfl, fun hj => by cases hj⟩

theorem safe_start (rows : List RoomRow) : (start rows).Safe := by
  rintro room - ⟨id, hin | ⟨hj, -⟩⟩
  · cases hin
  · cases hj

section Keeps

variable {l : Lobby} (hl : l.Sound)

include hl

/-- An operation on the hub lets nobody come who was not coming. -/
theorem IsComing.of_operate (op : Hub.Operation) (hop : op.isFresh l.hub = true) {room : String}
    {id : Uuid} (hc : IsComing { l with hub := (l.hub.step op).2 } room id) :
    l.IsComing room id := by
  obtain ⟨hj, c', hid', hc'⟩ := hc
  obtain ⟨c, hid⟩ := hl.known hj
  refine ⟨hj, c, hid, ?_⟩
  by_contra hc
  obtain ⟨c₁, hid₁, hpast⟩ := Hub.IsPast.step ⟨c, hid, hc⟩ hl.wellFormed hop
  rw [hid'] at hid₁
  cases hid₁
  exact hpast hc'

/-- An operation on the hub keeps everything safe, unless somebody joins by it. -/
theorem Safe.operate (hs : l.Safe) {op : Hub.Operation} (hop : op.isFresh l.hub = true)
    (hj : ∀ id room, op ≠ .join id room true) : Safe { l with hub := (l.hub.step op).2 } := by
  rintro room hr ⟨id, hin | hc⟩
  · rcases Hub.mem_members_step hl.wellFormed hin with hin | ⟨e, -⟩
    · exact hs room hr ⟨id, .inl hin⟩
    · exact absurd e (hj id room)
  · exact hs room hr ⟨id, .inr (IsComing.of_operate hl op hop hc)⟩

/-- A connection that was known before is known afterwards. -/
theorem Sound.of_joins {joins : Table Uuid String} (op : Hub.Operation)
    (hop : op.isFresh l.hub = true)
    (hj : ∀ {id room}, joins.get? id = some room → ∃ c, l.hub.connection? id = some c) :
    Sound { l with joins := joins, hub := (l.hub.step op).2 } := by
  refine ⟨hl.wellFormed.step hop, hl.isOpen, fun hj' => ?_⟩
  obtain ⟨c, hid⟩ := hj hj'
  obtain ⟨c', hid', -⟩ := Hub.ages_step hl.wellFormed hid hop
  exact ⟨c', hid'⟩

theorem Sound.act {a : Action} {l' : Lobby} (ha : l.act a = some l') : l'.Sound := by
  cases a with
  | createRoom room createdBy now =>
    cases ha
    exact ⟨hl.wellFormed, RoomBook.isOpen_create hl.isOpen now room createdBy, hl.known⟩
  | lookUp id room =>
    obtain ⟨hfree, ⟨-, rfl⟩ | rfl⟩ := act_lookUp hl.isOpen ha
    · refine ⟨hl.wellFormed, hl.isOpen, fun {id' room'} hj => ?_⟩
      rw [Table.get?_insert] at hj
      split at hj
      · rename_i e
        rw [Hub.hasFreeHandle, Bool.and_eq_true, Option.any_eq_true] at hfree
        obtain ⟨c, hid, -⟩ := hfree.1
        exact ⟨c, e ▸ hid⟩
      · exact hl.known hj
    · exact hl.of_joins (.join id room false) rfl hl.known
  | insert id =>
    obtain ⟨room, -, rfl⟩ := act_insert ha
    refine hl.of_joins (.join id room true) rfl fun hj => ?_
    rw [Table.get?_erase] at hj
    split at hj
    · cases hj
    · exact hl.known hj
  | deleteRoom room =>
    rw [act_deleteRoom hl.isOpen ha]
    exact ⟨hl.wellFormed, hl.isOpen, hl.known⟩
  | closeMembers room =>
    obtain ⟨-, rfl⟩ := act_closeMembers ha
    have hl' := hl.of_joins (.closeRoom room) rfl hl.known
    exact ⟨hl'.wellFormed, hl'.isOpen, hl'.known⟩
  | operate op =>
    obtain ⟨-, hop, rfl⟩ := act_operate ha
    exact hl.of_joins op hop hl.known

/-- An action keeps everything safe, unless it leaves somebody behind. -/
theorem Safe.act (hs : l.Safe) {a : Action} {l' : Lobby} (ha : l.act a = some l')
    (hstrands : ∀ room, a = .closeMembers room → ¬l.Strands room) : l'.Safe := by
  cases a with
  | createRoom room createdBy now =>
    cases ha
    intro room' hr' hin
    refine hs room' ?_ hin
    by_contra hr
    rw [RoomBook.has_create hl.isOpen (by simpa using hr)] at hr'
    cases hr'
  | lookUp id room =>
    obtain ⟨-, ⟨hr, rfl⟩ | rfl⟩ := act_lookUp hl.isOpen ha
    · rintro room' hr' ⟨id', hin | ⟨hj, hc⟩⟩
      · exact hs room' hr' ⟨id', .inl hin⟩
      · rw [Table.get?_insert] at hj
        split at hj
        · -- the room was asked for and exists
          cases hj
          rw [hr] at hr'
          cases hr'
        · exact hs room' hr' ⟨id', .inr ⟨hj, hc⟩⟩
    · exact hs.operate hl rfl fun _ _ e => by cases e
  | insert id =>
    obtain ⟨room, hj, rfl⟩ := act_insert ha
    rintro room' hr' ⟨id', hin | ⟨hj', hc'⟩⟩
    · rcases Hub.mem_members_step hl.wellFormed hin with hin | ⟨e, hc⟩
      · exact hs room' hr' ⟨id', .inl hin⟩
      · -- whoever enters was coming
        cases e
        exact hs room hr' ⟨id, .inr ⟨hj, hc⟩⟩
    · refine hs room' hr' ⟨id', .inr (IsComing.of_operate hl (.join id room true) rfl ?_)⟩
      rw [Table.get?_erase] at hj'
      split at hj'
      · cases hj'
      · exact ⟨hj', hc'⟩
  | deleteRoom room =>
    rw [act_deleteRoom hl.isOpen ha]
    intro room' hr' hin
    rw [RoomBook.has_strike, Bool.and_eq_false_iff] at hr'
    dsimp only
    by_cases hr : l.book.has room = true
    · rw [if_pos hr]
      rcases hr' with hr' | e
      · exact List.mem_append_left _ (hs room' hr' hin)
      · exact List.mem_append_right _ (List.mem_singleton.mpr (by simpa using e))
    · rw [if_neg hr]
      refine hs room' ?_ hin
      rcases hr' with hr' | e
      · exact hr'
      · have e' : room' = room := by simpa using e
        simpa [e'] using hr
  | closeMembers room =>
    obtain ⟨-, rfl⟩ := act_closeMembers ha
    rintro room' hr' ⟨id', hin⟩
    by_cases e : room' = room
    · subst e
      rcases hin with hin | hc
      · rw [Hub.members_closeRoom, if_pos rfl] at hin
        cases hin
      · have hc' := IsComing.of_operate hl (.closeRoom room') rfl hc
        by_contra hout
        refine hstrands room' rfl ⟨?_, hout, id', hc'⟩
        rw [RoomBook.contains_of_open hl.isOpen]
        exact congrArg _ hr'
    · refine (List.mem_erase_of_ne e).mpr (hs room' hr' ⟨id', ?_⟩)
      rcases hin with hin | hc
      · rw [Hub.members_closeRoom, if_neg e] at hin
        exact .inl hin
      · exact .inr (IsComing.of_operate hl (.closeRoom room) rfl hc)
  | operate op =>
    obtain ⟨hseparate, hop, rfl⟩ := act_operate ha
    refine hs.operate hl hop fun id room e => ?_
    rw [e] at hseparate
    cases hseparate

end Keeps

theorem Sound.run {l : Lobby} (hl : l.Sound) (acts : List Action) {l' : Lobby}
    (hrun : l.run acts = some l') : l'.Sound := by
  have hkeeps : ∀ {l₁ a l₂}, Sound l₁ → True → l₁.act a = some l₂ → l₂.Sound := by
    intro l₁ a l₂ hl _ ha
    exact hl.act ha
  exact Schedule.run_keeps hkeeps hrun hl fun _ _ => trivial

theorem Safe.run {l : Lobby} (hl : l.Sound) (hs : l.Safe) (acts : List Action) {l' : Lobby}
    (hrun : l.run acts = some l') (horderly : l.IsOrderly acts) : l'.Safe := by
  induction acts generalizing l with
  | nil =>
    cases hrun
    exact hs
  | cons a acts ih =>
    obtain ⟨l₁, ha, hrest⟩ := Schedule.run_cons_eq_some.mp hrun
    exact ih (hl.act ha) (hs.act hl ha horderly.1) hrest (horderly.2 l₁ ha)

/-! ### A member of a room that does not exist -/

/-- The connection has joined a room that does not exist, and nothing in flight will change it. -/
structure IsGhost (l : Lobby) (room : String) (id : Uuid) : Prop where
  member : id ∈ l.hub.members room
  joined : ∃ c, l.hub.connection? id = some c ∧ c.state = .joined
  missing : l.book.has room = false
  kept : room ∉ l.deletions
  entered : l.joins.get? id = none

section Ghost

variable {l : Lobby} (hl : l.Sound) {room : String} {id : Uuid}

include hl

theorem IsGhost.act (hg : l.IsGhost room id) {a : Action} (hfinish : a.isFinishing = true)
    {l' : Lobby} (ha : l.act a = some l') : l'.IsGhost room id := by
  cases a with
  | insert id' =>
    obtain ⟨room', hj, rfl⟩ := act_insert ha
    have hne : id' ≠ id := by
      rintro rfl
      rw [hg.entered] at hj
      cases hj
    obtain ⟨hconn, hmem⟩ := Hub.step_join_of_ne l.hub hne room' true
    refine ⟨hmem room hg.member, ?_, hg.missing, hg.kept, ?_⟩
    · rw [hconn]
      exact hg.joined
    · rw [Table.get?_erase, if_neg hne]
      exact hg.entered
  | closeMembers room' =>
    obtain ⟨hin, rfl⟩ := act_closeMembers ha
    have hne : room ≠ room' := fun e => hg.kept (e ▸ hin)
    obtain ⟨c, hid, hc⟩ := hg.joined
    refine ⟨?_, ⟨c, ?_, hc⟩, hg.missing, fun hin => hg.kept (List.mem_of_mem_erase hin), hg.entered⟩
    · rw [Hub.members_closeRoom, if_neg hne]
      exact hg.member
    · rw [Hub.connection?_closeRoom, hid, Option.map_some, if_neg]
      exact fun hin' => hne (hl.wellFormed.one_room hg.member hin')
  | _ => cases hfinish

omit hl in
/-- The calls in flight can be finished. -/
theorem exists_finishing_action (hbusy : l.joins ≠ [] ∨ l.deletions ≠ []) :
    ∃ a l', a.isFinishing = true ∧ l.act a = some l' ∧
      l'.joins.length + l'.deletions.length < l.joins.length + l.deletions.length := by
  cases hj : l.joins with
  | cons entry rest =>
    obtain ⟨id, room⟩ := entry
    have hget : l.joins.get? id = some room := by simp [hj, Table.get?]
    refine ⟨.insert id, _, rfl, by rw [Lobby.act, hget], ?_⟩
    have hlt : (Table.erase l.joins id).length ≤ rest.length := by
      simpa [hj, Table.erase] using List.length_filter_le _ rest
    simp only [List.length_cons]
    omega
  | nil =>
    cases hd : l.deletions with
    | cons room rest =>
      have hin : room ∈ l.deletions := by simp [hd]
      refine ⟨.closeMembers room, _, rfl, by rw [Lobby.act, if_pos hin], ?_⟩
      simp [hj, hd]
    | nil =>
      rcases hbusy with hbusy | hbusy
      · exact absurd hj hbusy
      · exact absurd hd hbusy

/-- Whatever is in flight is finished, and a ghost stays one. -/
theorem IsGhost.finish (hg : l.IsGhost room id) : ∃ rest l', (∀ a ∈ rest, a.isFinishing = true) ∧
    l.run rest = some l' ∧ l'.Sound ∧ l'.joins = [] ∧ l'.deletions = [] ∧ l'.IsGhost room id := by
  induction hn : l.joins.length + l.deletions.length using Nat.strongRecOn generalizing l with
  | ind n ih =>
    by_cases hbusy : l.joins ≠ [] ∨ l.deletions ≠ []
    · obtain ⟨a, l₁, hfinish, ha, hlt⟩ := exists_finishing_action hbusy
      obtain ⟨rest, l', hrest, hrun, hend⟩ :=
        ih _ (hn ▸ hlt) (hl.act ha) (hg.act hl hfinish ha) rfl
      refine ⟨a :: rest, l', fun b hb => ?_, Schedule.run_cons_eq_some.mpr ⟨l₁, ha, hrun⟩, hend⟩
      rcases List.mem_cons.mp hb with rfl | hb
      · exact hfinish
      · exact hrest b hb
    · rw [not_or, not_not, not_not] at hbusy
      exact ⟨[], l, by simp, rfl, hl, hbusy.1, hbusy.2, hg⟩

/-- Whoever is left behind becomes a ghost on entering the room. -/
theorem Strands.ghost (hs : l.Strands room) (hin : room ∈ l.deletions) : ∃ id l',
    l.run [.closeMembers room, .insert id] = some l' ∧ l'.IsGhost room id := by
  obtain ⟨hno, hkept, id, hj, c, hid, hc⟩ := hs
  rw [RoomBook.contains_of_open hl.isOpen] at hno
  -- a connection that is coming is no member, so that the close does not reach it
  have hout := hl.wellFormed.not_mem_of_connecting hid hc room
  have hid₁ : (l.hub.closeRoom room).2.connection? id = some c := by
    rw [Hub.connection?_closeRoom, hid, Option.map_some, if_neg hout]
  have hfresh : Hub.Operation.isFresh l.hub (.closeRoom room) = true := rfl
  have hw₁ : (l.hub.closeRoom room).2.WellFormed := Hub.WellFormed.step hl.wellFormed hfresh
  have hjoin := Hub.step_join_of_connecting hw₁ hid₁ hc room
  refine ⟨id, { l with
    joins := l.joins.erase id
    deletions := l.deletions.erase room
    hub := (l.hub.closeRoom room).2.joined room id }, ?_, ?_, ⟨c.joined, ?_,
      Connection.joined_state hc⟩, ?_, hkept, ?_⟩
  · simp only [Schedule.run, Lobby.act, if_pos hin, hj, hjoin]
  · exact Hub.mem_members_joined.mpr (.inr ⟨rfl, rfl⟩)
  · rw [Hub.connection?_joined, if_pos rfl, hid₁]
    rfl
  · exact Except.ok.inj hno
  · rw [Table.get?_erase, if_pos rfl]

end Ghost

/-! ### Calls without interruption -/

/-- A deletion that nothing interrupts is the one that a request carries out. -/
theorem run_deleteRoom (s : Service) (joins : Table Uuid String) {room : String}
    (hopen : s.book.isOpen = true) (hr : s.book.has room = true) :
    run ⟨s.book, s.hub, joins, []⟩ [.deleteRoom room, .closeMembers room] =
      some ⟨(Http.App.deleteRoom s room).2.book, (Http.App.deleteRoom s room).2.hub, joins,
        []⟩ := by
  simp [Schedule.run, act, Http.App.deleteRoom, RoomBook.delete_of_open hopen, hr]

/-- A join that nothing interrupts is the hub's, told that the room exists. -/
theorem run_join {book : RoomBook} {hub : Hub} (hopen : book.isOpen = true) {id : Uuid}
    (hfree : hub.hasFreeHandle id = true) {room : String} (hr : book.has room = true)
    (deletions : List String) :
    run ⟨book, hub, [], deletions⟩ [.lookUp id room, .insert id] =
      some ⟨book, (hub.step (.join id room true)).2, [], deletions⟩ := by
  simp [Schedule.run, act, hfree, RoomBook.contains_of_open hopen, hr, Table.has, Table.insert,
    Table.get?, Table.erase]

/-! ### Which deletions leave members behind -/

/-- **A deleted room has no members, unless a join was on its way.** Take any run of joins,
deletions, creations of rooms and operations on the hub. If nobody is left behind whenever the
members of a room are closed, then a room that has members exists, or is about to be closed; so it
exists if nothing is in flight. But if somebody is left behind, then what is in flight can be
finished in such a way that a connection has joined a room that does not exist. -/
theorem members_exist_unless_stranded (rows : List RoomRow) (acts : List Action) (l : Lobby)
    (hrun : (start rows).run acts = some l) :
    ((start rows).IsOrderly acts → ∀ room id, l.hub.contains room id = true →
      l.book.contains room = .ok true ∨ room ∈ l.deletions) ∧
    ∀ room, room ∈ l.deletions → l.Strands room →
      ∃ rest l', (∀ a ∈ rest, a.isFinishing = true) ∧
        l.run (.closeMembers room :: rest) = some l' ∧ l'.joins = [] ∧ l'.deletions = [] ∧
        l'.book.contains room = .ok false ∧ ∃ id c, l'.hub.contains room id = true ∧
          l'.hub.connection? id = some c ∧ c.state = .joined := by
  have hl := (sound_start rows).run acts hrun
  constructor
  · intro horderly room id hin
    rw [Hub.contains_iff] at hin
    have hs := (safe_start rows).run (sound_start rows) acts hrun horderly
    rw [RoomBook.contains_of_open hl.isOpen]
    by_cases hr : l.book.has room = true
    · exact .inl (congrArg _ hr)
    · exact .inr (hs room (by simpa using hr) ⟨id, .inl hin⟩)
  · intro room hin hs
    obtain ⟨id, l₁, hfirst, hghost⟩ := hs.ghost hl hin
    have hl₁ := hl.run _ hfirst
    obtain ⟨rest, l', hrest, hfinish, hl', hjoins, hdeletions, hg⟩ := hghost.finish hl₁
    obtain ⟨c, hid, hc⟩ := hg.joined
    refine ⟨.insert id :: rest, l', fun a ha => ?_, ?_, hjoins, hdeletions, ?_, id, c,
      (Hub.contains_iff _ _ _).mpr hg.member, hid, hc⟩
    · rcases List.mem_cons.mp ha with rfl | ha
      · rfl
      · exact hrest a ha
    · have hall : l.run ([.closeMembers room, .insert id] ++ rest) = some l' :=
        Schedule.run_append_eq_some.mpr ⟨l₁, hfirst, hfinish⟩
      exact hall
    · rw [RoomBook.contains_of_open hl'.isOpen]
      exact congrArg _ hg.missing

/-- A join is told that its room exists, and the room is struck from the book. -/
def lateJoin : List Action :=
  [.createRoom "lab" none .zero, .operate (.openConnection ⟨1⟩ ⟨"u1", "Ada"⟩ "lab" 4),
    .lookUp ⟨1⟩ "lab", .deleteRoom "lab"]

theorem members_exist_unless_stranded_late : ∃ l, (start []).run lateJoin = some l ∧
    (∀ room id, l.hub.contains room id = true →
      l.book.contains room = .ok true ∨ room ∈ l.deletions) ∧
    ∃ rest l', l.run (.closeMembers "lab" :: rest) = some l' ∧ l'.joins = [] ∧ l'.deletions = [] ∧
      l'.book.contains "lab" = .ok false ∧ ∃ id, l'.hub.contains "lab" id = true := by
  obtain ⟨hsafe, hghost⟩ := members_exist_unless_stranded [] lateJoin _ rfl
  obtain ⟨rest, l', -, hrun, hjoins, hdeletions, hno, id, c, hin, -⟩ :=
    hghost "lab" (by decide) ⟨rfl, by decide, ⟨1⟩, rfl, _, rfl, rfl⟩
  exact ⟨_, rfl, hsafe (by simp [IsOrderly, lateJoin]), rest, l', hrun, hjoins, hdeletions, hno, id,
    hin⟩

/-- The connection enters the room after its members were closed. It has joined a room that does not
exist, and deleting the room again does not reach it. -/
theorem late_join_is_ghost : ∃ l,
    (start []).run (lateJoin ++ [.closeMembers "lab", .insert ⟨1⟩]) = some l ∧
    l.joins = [] ∧ l.deletions = [] ∧ l.book.contains "lab" = .ok false ∧
    l.hub.contains "lab" ⟨1⟩ = true ∧
    (∃ c, l.hub.connection? ⟨1⟩ = some c ∧ c.state = .joined ∧ c.room = "lab") ∧
    ∀ accounts, (Http.App.deleteRoom ⟨accounts, l.book, l.hub⟩ "lab").1.status = 404 := by
  refine ⟨_, rfl, rfl, rfl, rfl, ?_, ⟨_, rfl, rfl, rfl⟩, fun _ => rfl⟩
  decide

end Lobby

end ChatRooms

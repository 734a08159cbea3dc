import ChatRooms.Proofs.Hub.Handle
import ChatRooms.Proofs.Http.Upgrade
import ChatRooms.Proofs.Rooms.Deletion

/-!
What the deletion of a room does. Its row is struck from the book, its entry is unlinked from the
hub, and whoever was in it is expelled: closed, without a handle and in no room. That is for good
(`IsExpelled.run`), so that nothing an expelled connection does on its own way out finds anything
left to do, while all others are as they were. A room of the same name may be created again; it is
open to those who have not joined yet, and to nobody who was expelled.
-/

namespace ChatRooms

open ChatRooms.Http ChatRooms.Time

/-! ### Connections that were forced out -/

namespace Connection

/-- A connection that is forced out: it is closed with the code unless it was closed before, and
the handle is gone. What waits in the queue stays there. -/
def expelled (c : Connection) (code : UInt16) : Connection :=
  { c with
    life := ⟨.closed, if c.state = .closed then c.closeCode else code⟩
    hasSender := false }

theorem closed_withoutSender (c : Connection) (code : UInt16) :
    (c.closed code).withoutSender = c.expelled code := by
  have hlife : c.life.closed code =
      ⟨.closed, if c.state = .closed then c.closeCode else code⟩ := by
    by_cases hc : c.state = .closed
    · rw [if_pos hc, Lifecycle.closed_of_closed hc, ← hc]
      rfl
    · have hclose : c.life.close? code = some ⟨.closed, code⟩ := if_neg hc
      rw [if_neg hc, Lifecycle.closed, hclose]
      rfl
  rw [withoutSender, closed, hlife, expelled]

end Connection

namespace Hub

/-- The connection is closed with the code, its handle is gone, and it is in no room. -/
def IsExpelled (h : Hub) (id : Uuid) (code : UInt16) : Prop :=
  h.IsRemoved id code ∧ h.IsOut id code

section Expelled

variable {h : Hub} {id : Uuid} {code : UInt16} (hx : h.IsExpelled id code)

include hx

/-- A close of its own finds an expelled connection closed already. -/
theorem IsExpelled.close (code' : UInt16) : h.close id code' = (false, h) := by
  obtain ⟨c, hid, -, hclosed, -⟩ := hx.1
  exact close_of_closed hid hclosed code'

theorem IsExpelled.drop : h.step (.drop id) = (.flag false, h) := by
  rw [step, hx.close]

/-- The queue of an expelled connection has an end. -/
theorem IsExpelled.receive_of_nil (hq : h.queue id = []) : (h.receive id).1 = some .ended := by
  obtain ⟨c, hid, hsender, -⟩ := hx.1
  have hnil : c.queue = [] := by
    rw [queue, hid] at hq
    exact hq
  simp [receive, hid, Connection.receive, hnil, hsender]

/-- An expelled connection does not come back, into whichever room. -/
theorem IsExpelled.join (hw : h.WellFormed) (room : String) :
    ∃ h', h.join room id true = some (.error (closedBeforeJoin id), h') ∧
      ∀ room', id ∉ h'.members room' := by
  obtain ⟨c, hid, hclosed, -, hout⟩ := hx.2
  obtain ⟨⟨r, h'⟩, hj⟩ := Option.isSome_iff_exists.mp (join_isSome (hw.unretired room) id true)
  rcases join_cases hj with ⟨hno, -⟩ | ⟨-, rfl, -, rfl⟩ | ⟨-, -, -, c', hid', hconnecting⟩
  · cases hno
  · refine ⟨_, hj, fun room' => ?_⟩
    rw [members_update, members_withEntry]
    exact hout room'
  · rw [hid] at hid'
    cases hid'
    rw [hclosed] at hconnecting
    cases hconnecting

variable (hw : h.WellFormed) {ops : List Operation}
  (hops : obeys Operation.isFresh h ops = true)

include hw hops

/-- Expelled is expelled. -/
theorem IsExpelled.run : (h.run ops).IsExpelled id code := by
  have hkeeps : ∀ h op, h.WellFormed → h.IsExpelled id code → Operation.isFresh h op = true →
      (h.step op).2.IsExpelled id code := by
    intro h op hw hx hop
    exact ⟨hx.1.step hw hop, hx.2.step hw hop⟩
  exact (hw.run_keeps (fun _ _ hop => hop) hkeeps hx ops hops).2

/-- What an expelled connection still receives is what waited for it. -/
theorem IsExpelled.received_append_queue (hd : Operation.dropReceiver id ∉ ops) :
    collect (receivedBy id) h ops ++ (h.run ops).queue id = h.queue id := by
  rw [Hub.received_append_queue hw ops hops hd, placed_after_close hw hx.1.isClosed ops hops,
    List.append_nil]

end Expelled

/-! ### Closing a room -/

section CloseRoom

variable {h : Hub} {room : String} {id : Uuid}

theorem get?_closeRoom (h : Hub) (room room' : String) :
    (h.closeRoom room).2.rooms.get? room' = if room = room' then none else h.rooms.get? room' :=
  Table.get?_erase _ _ _

theorem connection?_closeRoom_of_not_mem (hout : id ∉ h.members room) :
    (h.closeRoom room).2.connection? id = h.connection? id := by
  simp [connection?_closeRoom, hout]

variable (hw : h.WellFormed) (hin : id ∈ h.members room)

include hw hin

theorem expelled_of_closeRoom : ∃ c, h.connection? id = some c ∧
    (h.closeRoom room).2.connection? id = some (c.expelled CloseCode.roomClosed) ∧
    (h.closeRoom room).2.IsExpelled id (c.expelled CloseCode.roomClosed).closeCode := by
  obtain ⟨c, hid, -⟩ := hw.entered hin
  have hid' : (h.closeRoom room).2.connection? id = some (c.expelled CloseCode.roomClosed) := by
    rw [connection?_closeRoom, hid, Option.map_some, if_pos hin, Connection.closed_withoutSender]
  refine ⟨c, hid, hid', ⟨_, hid', rfl, rfl, rfl⟩, ⟨_, hid', rfl, rfl, fun room' hin' => ?_⟩⟩
  rw [members_closeRoom] at hin'
  split at hin'
  · cases hin'
  · rename_i hne
    exact hne (hw.one_room hin' hin)

end CloseRoom

end Hub

/-! ### The book -/

namespace RoomBook

theorem contains_eq_ok_iff {b : RoomBook} {room : String} {p : Bool} :
    b.contains room = .ok p ↔ b.isOpen = true ∧ b.has room = p := by
  cases hopen : b.isOpen with
  | false => simp [contains, hopen]
  | true => simp [contains_of_open hopen]

/-- A room that is created is there. -/
theorem contains_create {b : RoomBook} (hopen : b.isOpen = true) (now : Instant) (room : String)
    (createdBy : Option String) : (b.create now room createdBy).2.contains room = .ok true := by
  refine contains_eq_ok_iff.mpr ⟨isOpen_create hopen now room createdBy, ?_⟩
  rw [create, if_neg (by simp [hopen])]
  cases hrow : b.row? room with
  | some row =>
    rw [← row?_isSome, hrow]
    rfl
  | none => simp [has]

end RoomBook

/-! ### The request -/

namespace Service

/-- The request asks to delete the room. -/
structure AsksToDelete (r : Request) (room : String) : Prop where
  method : r.method = "DELETE"
  route : ∃ bytes, Route.ofPath? r.target.path = some (.room bytes) ∧
    Route.parameter "room_id" bytes = .ok room

theorem AsksToDelete.serve {r : Request} {room : String} (hr : AsksToDelete r room) (s : Service)
    (canUpgrade : Bool) (u : Supply) (progress : Progress) (inTime : Bool) :
    s.serve r canUpgrade u progress inTime =
      (.response (App.complete "DELETE" (Cors.permit (App.deleteRoom s room).1)),
        (App.deleteRoom s room).2) := by
  obtain ⟨bytes, hpath, hroom⟩ := hr.route
  have hdispatch : App.dispatch r canUpgrade u s =
      (.response (App.complete "DELETE" (Cors.permit (App.deleteRoom s room).1)),
        (App.deleteRoom s room).2) := by
    simp [App.dispatch, hpath, hr.method, Route.methods, App.answer, App.withParameter, hroom]
  rw [Service.serve, hdispatch]

theorem deleteRoom_of_contains {s : Service} {room : String}
    (hroom : s.book.contains room = .ok true) :
    App.deleteRoom s room = (.empty 204,
      { s with
        book := { s.book with rows := s.book.rows.filter (·.roomId ≠ room) }
        hub := (s.hub.closeRoom room).2 }) := by
  obtain ⟨hopen, hhas⟩ := RoomBook.contains_eq_ok_iff.mp hroom
  rw [App.deleteRoom, RoomBook.delete_of_open hopen, hhas]

theorem deleteRoom_of_not_contains {s : Service} {room : String}
    (hroom : s.book.contains room = .ok false) :
    App.deleteRoom s room = (.ofError .roomNotFound, s) := by
  obtain ⟨hopen, hhas⟩ := RoomBook.contains_eq_ok_iff.mp hroom
  have hrows : s.book.rows.filter (·.roomId ≠ room) = s.book.rows := by
    refine List.filter_eq_self.mpr fun row hin => decide_eq_true fun e => ?_
    rw [RoomBook.has, List.any_eq_false] at hhas
    exact hhas row hin (decide_eq_true e)
  rw [App.deleteRoom, RoomBook.delete_of_open hopen, hhas, hrows]

/-- **Deleting a room evicts everyone in it and nobody else.** Take a service whose hub can be met,
and a request to delete a room. If the book has the room, the answer is 204, and the room's row is
gone from the book, where all others stay. The hub is what closing the room makes of it, which
counts the former members: the room's entry is gone, and other rooms, and connections that are not
in the room, are as they were. Each member is expelled. Whatever happens at the hub afterwards, it
stays closed with the same code, in no room, and cannot join one; its own close and its drop do
nothing; and what its receiver gets is what waited for it, followed by the end of the queue. If the
room is created again it is there, and every connection that is still connecting can join it. If the
book does not have the room, the answer is 404, and the service is as it was. -/
theorem deletion_evicts_members {s : Service} (hs : s.hub.Reachable) {r : Request} {room : String}
    (hr : AsksToDelete r room) (canUpgrade : Bool) (u : Supply) (progress : Progress)
    (inTime : Bool) :
    (s.book.contains room = .ok true → ∃ response s',
      s.serve r canUpgrade u progress inTime = (.response response, s') ∧ response.status = 204 ∧
      s'.accounts = s.accounts ∧
      s'.book = { s.book with rows := s.book.rows.filter (·.roomId ≠ room) } ∧
      s'.book.contains room = .ok false ∧
      (∀ room', room' ≠ room → s'.book.contains room' = s.book.contains room') ∧
      (∀ now createdBy, (s'.book.create now room createdBy).2.contains room = .ok true) ∧
      s.hub.closeRoom room = (s.hub.memberCount room, s'.hub) ∧
      s'.hub.rooms.get? room = none ∧
      (∀ room', room' ≠ room → s'.hub.rooms.get? room' = s.hub.rooms.get? room') ∧
      (∀ id, id ∉ s.hub.members room → s'.hub.connection? id = s.hub.connection? id) ∧
      (∀ id, id ∈ s.hub.members room → ∃ c, s.hub.connection? id = some c ∧
        s'.hub.connection? id = some (c.expelled CloseCode.roomClosed) ∧
        ∀ ops, Hub.obeys Hub.Operation.isFresh s'.hub ops = true →
          let h := s'.hub.run ops
          h.IsExpelled id (c.expelled CloseCode.roomClosed).closeCode ∧
          (∀ code, h.close id code = (false, h)) ∧ h.step (.drop id) = (.flag false, h) ∧
          (.dropReceiver id ∉ ops →
            Hub.collect (Hub.receivedBy id) s'.hub ops ++ h.queue id = c.queue) ∧
          (h.queue id = [] → (h.receive id).1 = some .ended) ∧
          ∀ room', ∃ h', h.join room' id true = some (.error (Hub.closedBeforeJoin id), h') ∧
            ∀ room'', id ∉ h'.members room'') ∧
      ∀ ops, Hub.obeys Hub.Operation.isFresh s'.hub ops = true → ∀ id c,
        (s'.hub.run ops).connection? id = some c → c.state = .connecting →
          ∃ h', (s'.hub.run ops).join room id true = some (.ok (), h') ∧
            h'.contains room id = true) ∧
    (s.book.contains room = .ok false → ∃ response,
      s.serve r canUpgrade u progress inTime = (.response response, s) ∧
        response.status = 404) := by
  obtain ⟨hw, -⟩ := hs.invariant
  rw [hr.serve s canUpgrade u progress inTime]
  constructor
  · intro hroom
    obtain ⟨hopen, -⟩ := RoomBook.contains_eq_ok_iff.mp hroom
    have hstruck : ∀ room',
        RoomBook.contains { s.book with rows := s.book.rows.filter (·.roomId ≠ room) } room' =
          .ok (s.book.has room' && decide (room' ≠ room)) := fun room' =>
      RoomBook.contains_eq_ok_iff.mpr ⟨hopen, RoomBook.has_strike s.book room room'⟩
    have hw' : (s.hub.closeRoom room).2.WellFormed := (Hub.settles_closeRoom hw room).wellFormed hw
    rw [deleteRoom_of_contains hroom]
    refine ⟨_, _, rfl, status_complete _ _, rfl, rfl, ?_, fun room' hne => ?_,
      fun now createdBy => RoomBook.contains_create (by exact hopen) now room createdBy, rfl, ?_,
      fun room' hne => ?_, fun id hout => Hub.connection?_closeRoom_of_not_mem hout,
      fun id hin => ?_, fun ops hops id c hid hc => ?_⟩
    · exact (hstruck room).trans (by simp)
    · exact (hstruck room').trans (by simp [RoomBook.contains_of_open hopen, hne])
    · rw [Hub.get?_closeRoom, if_pos rfl]
    · rw [Hub.get?_closeRoom, if_neg (Ne.symm hne)]
    · obtain ⟨c, hid, hid', hx⟩ := Hub.expelled_of_closeRoom hw hin
      refine ⟨c, hid, hid', fun ops hops => ?_⟩
      have hlater := hx.run hw' hops
      refine ⟨hlater, hlater.close, hlater.drop, fun hd => ?_, hlater.receive_of_nil,
        fun room' => hlater.join (hw'.run hops) room'⟩
      rw [hx.received_append_queue hw' hops hd, Hub.queue_closeRoom, Hub.queue, hid]
      rfl
    · exact ⟨_, Hub.join_of_connecting (hw'.run hops) hid hc room,
        (Hub.contains_iff _ _ _).mpr (Hub.mem_members_joined.mpr (.inr ⟨rfl, rfl⟩))⟩
  · intro hroom
    rw [deleteRoom_of_not_contains hroom]
    exact ⟨_, rfl, status_complete _ _⟩

/-- Two members of a room for whom an envelope waits, and a member of another one. -/
def busyOps : List Hub.Operation :=
  [.openConnection ⟨1⟩ ⟨"u1", "Ada"⟩ "lab" 4, .openConnection ⟨2⟩ ⟨"u2", "Bob"⟩ "lab" 4,
    .openConnection ⟨3⟩ ⟨"u3", "Eve"⟩ "hall" 4, .join ⟨1⟩ "lab" true, .join ⟨2⟩ "lab" true,
    .join ⟨3⟩ "hall" true, .broadcast "lab" ⟨"lab", "first", "u0", "Bot", .zero⟩ none]

/-- A service with that room, of which one member is about to leave: it is closed already. -/
def busyService : Service :=
  { accounts := .empty 3600000000000 4
    book := (RoomBook.empty.create .zero "lab" none).2
    hub := (Hub.empty.run busyOps).half (.close ⟨2⟩ CloseCode.policyViolation) }

def deleteLab : Request :=
  ⟨"DELETE", ⟨Text.Utf8.encode "/chat/rooms/lab".toList, none⟩, [], []⟩

theorem deletion_evicts_members_busy :
    let s' := (busyService.serve deleteLab false ⟨.zero, .zero, ""⟩ .all true).2
    s'.book.contains "lab" = .ok false ∧ busyService.hub.closeRoom "lab" = (2, s'.hub) ∧
      s'.hub.connection? ⟨3⟩ = busyService.hub.connection? ⟨3⟩ ∧
      (s'.hub.run [.drop ⟨1⟩, .receive ⟨1⟩]).IsExpelled ⟨1⟩ CloseCode.roomClosed ∧
      ((s'.hub.run [.drop ⟨1⟩, .receive ⟨1⟩]).receive ⟨1⟩).1 = some .ended ∧
      (s'.hub.run [.close ⟨2⟩ CloseCode.normal]).IsExpelled ⟨2⟩ CloseCode.policyViolation := by
  have hreach : busyService.hub.Reachable := by
    have hrun : (Hub.empty.run busyOps).Reachable := Hub.Reachable.empty.run (by decide)
    exact hrun.half (.close ⟨2⟩ CloseCode.policyViolation)
  have hasks : AsksToDelete deleteLab "lab" := ⟨rfl, Text.Utf8.encode "lab".toList, rfl, rfl⟩
  obtain ⟨response, s', hserve, -, -, -, hgone, -, -, hcount, -, -, hothers, hmembers, -⟩ :=
    (deletion_evicts_members hreach hasks false ⟨.zero, .zero, ""⟩ .all true).1 (by decide)
  rw [hserve]
  obtain ⟨c₁, hid₁, -, hlater₁⟩ := hmembers ⟨1⟩ (by decide)
  obtain ⟨c₂, hid₂, -, hlater₂⟩ := hmembers ⟨2⟩ (by decide)
  cases hid₁
  cases hid₂
  obtain ⟨hx₁, -, -, -, hends, -⟩ := hlater₁ [.drop ⟨1⟩, .receive ⟨1⟩] rfl
  obtain ⟨hx₂, -⟩ := hlater₂ [.close ⟨2⟩ CloseCode.normal] rfl
  have hempty : (s'.hub.run [.drop ⟨1⟩, .receive ⟨1⟩]).queue ⟨1⟩ = [] := by
    have hhub : s'.hub = (busyService.hub.closeRoom "lab").2 := by rw [hcount]
    rw [hhub]
    decide
  exact ⟨hgone, hcount, hothers ⟨3⟩ (by decide), hx₁, hends hempty, hx₂⟩

end Service

end ChatRooms

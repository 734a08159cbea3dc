import Mathlib.Data.List.Nodup
import Mathlib.Data.Option.Basic
import Mathlib.Logic.Function.Basic
import ChatRooms.Rooms.Operation
import ChatRooms.Proofs.Since
import ChatRooms.Proofs.Time.RoundTrip

/-!
The book of rooms as a register. What the book answers is what a register answers that has no rows
and no texts: it knows the record of each room that exists. `Matches` says how book and register
stand to each other, and every call keeps it. What is in the register is read off the calls: a room
exists since it was created, with the record that it got then, unless it was deleted. A directory in
memory that takes over what is created and deleted knows the same rooms.
-/

namespace ChatRooms

open ChatRooms.Time

/-! ### The register -/

/-- The record of each room that exists. -/
abbrev Register := String → Option Room

/-- The call creates or deletes the room. -/
def RoomBook.Operation.writes (room : String) : RoomBook.Operation → Bool
  | .create _ room' _ | .delete room' => room' = room
  | .get .. | .list _ | .contains _ | .restart => false

/-- The call asks for a room with this record. -/
def RoomBook.Operation.AsksFor (r : Room) (op : RoomBook.Operation) : Prop :=
  ∃ now createdBy, op = .create now r.roomId createdBy ∧ r = ⟨r.roomId, createdBy, now⟩

theorem RoomBook.Operation.asksFor_create (r : Room) (now : ClockTime) (room : String)
    (createdBy : Option String) :
    (RoomBook.Operation.create now room createdBy).AsksFor r ↔ r = ⟨room, createdBy, now⟩ := by
  constructor
  · rintro ⟨now', createdBy', hop, hr⟩
    cases hop
    exact hr
  · rintro rfl
    exact ⟨now, createdBy, rfl, rfl⟩

namespace Register

def empty : Register := fun _ => none

/-- The register after a call. A room that exists keeps its record. -/
def step (m : Register) : RoomBook.Operation → Register
  | .create now room createdBy =>
    Function.update m room (some ((m room).getD ⟨room, createdBy, now⟩))
  | .delete room => Function.update m room none
  | .get .. | .list _ | .contains _ | .restart => m

/-- The register after calls in order. -/
def run (m : Register) (ops : List RoomBook.Operation) : Register := ops.foldl step m

variable (m : Register) (room : String)

/-- A call leaves the record of every other room as it is. -/
theorem step_of_not_writes {op : RoomBook.Operation} (h : op.writes room = false) :
    m.step op room = m room := by
  cases op with
  | create now room' createdBy =>
    exact Function.update_of_ne (Ne.symm (of_decide_eq_false h)) _ _
  | delete room' => exact Function.update_of_ne (Ne.symm (of_decide_eq_false h)) _ _
  | get | list | contains | restart => rfl

/-- A room has a record after a call if it had it and is not deleted, or if it had none and is
created with it. -/
theorem step_eq_some_iff (op : RoomBook.Operation) (r : Room) : m.step op room = some r ↔
    (m room = none ∧ op.AsksFor r ∧ r.roomId = room) ∨
      m room = some r ∧ ¬op = .delete room := by
  cases op with
  | create now room' createdBy =>
    by_cases e : room' = room
    · subst e
      rw [RoomBook.Operation.asksFor_create]
      cases hm : m room' with
      | none =>
        have hrecord : m.step (.create now room' createdBy) room' =
            some ⟨room', createdBy, now⟩ := by simp [step, hm]
        rw [hrecord]
        constructor
        · intro h
          cases h
          exact .inl ⟨rfl, rfl, rfl⟩
        · rintro (⟨-, rfl, -⟩ | ⟨h, -⟩)
          · rfl
          · cases h
      | some r' => simp [step, hm]
    · have hroom : ¬(r = ⟨room', createdBy, now⟩ ∧ r.roomId = room) := by
        rintro ⟨h, hid⟩
        exact e ((congrArg Room.roomId h).symm.trans hid)
      rw [RoomBook.Operation.asksFor_create]
      simp [step, hroom, Ne.symm e]
  | delete room' =>
    by_cases e : room' = room
    · simp [step, RoomBook.Operation.AsksFor, e]
    · simp [step, RoomBook.Operation.AsksFor, e, Ne.symm e]
  | get | list | contains | restart => simp [step, RoomBook.Operation.AsksFor]

/-- A room exists after a call if it is created, or if it existed and is not deleted. -/
theorem step_isSome_iff (op : RoomBook.Operation) : (m.step op room).isSome = true ↔
    (∃ now createdBy, op = .create now room createdBy) ∨
      (m room).isSome = true ∧ ¬op = .delete room := by
  cases op with
  | create now room' createdBy =>
    by_cases e : room' = room
    · simp [step, e]
    · simp [step, e, Ne.symm e]
  | delete room' =>
    by_cases e : room' = room
    · simp [step, e]
    · simp [step, e, Ne.symm e]
  | get | list | contains | restart => simp [step]

end Register

/-! ### Book and register -/

/-- The row that is stored for a room. -/
def RoomRow.ofRoom (r : Room) : RoomRow := ⟨r.roomId, r.createdBy, r.createdAt.storedText⟩

@[simp] theorem RoomRow.roomId_ofRoom (r : Room) : (ofRoom r).roomId = r.roomId := rfl

namespace RoomBook

/-- The room that is read from a row is the one for which the row was stored. -/
theorem roomOfRow_ofRoom (now : Instant) {r : Room} (h : r.createdAt.IsRegular) :
    roomOfRow now (.ofRoom r) = r := by
  rw [roomOfRow, RoomRow.ofRoom, Instant.read?_storedText h, Option.getD_some]

/-- The book can be asked, no room has two rows, and each room has the row of its record, which was
made with the time of a clock. -/
structure Matches (b : RoomBook) (m : Register) : Prop where
  isOpen : b.isOpen = true
  distinct : (b.rows.map (·.roomId)).Nodup
  row? : ∀ room, b.row? room = (m room).map .ofRoom
  isRegular : ∀ {room r}, m room = some r → r.createdAt.IsRegular

theorem matches_empty : empty.Matches .empty :=
  ⟨rfl, List.nodup_nil, fun _ => rfl, fun h => by cases h⟩

namespace Matches

variable {b : RoomBook} {m : Register} (hm : b.Matches m)

include hm

theorem row?_of_mem {row : RoomRow} (hin : row ∈ b.rows) : b.row? row.roomId = some row := by
  rw [RoomBook.row?, List.find?_eq_some_iff_append]
  refine ⟨by simp, ?_⟩
  obtain ⟨before, after, hrows⟩ := List.append_of_mem hin
  refine ⟨before, after, hrows, fun row' hbefore => ?_⟩
  have hd := hm.distinct
  rw [hrows, List.map_append, List.map_cons] at hd
  have hne : row'.roomId ≠ row.roomId := fun e =>
    (List.nodup_append.mp hd).2.2 _ (List.mem_map_of_mem hbefore) _ List.mem_cons_self e
  simp [hne]

/-- A row is in the book if and only if it is that of a room in the register. -/
theorem mem_rows_iff (row : RoomRow) : row ∈ b.rows ↔ ∃ r, m r.roomId = some r ∧ .ofRoom r = row := by
  constructor
  · intro hin
    have hrow := hm.row?_of_mem hin
    rw [hm.row?, Option.map_eq_some_iff] at hrow
    obtain ⟨r, hr, rfl⟩ := hrow
    exact ⟨r, hr, rfl⟩
  · rintro ⟨r, hr, rfl⟩
    have hrow := hm.row? r.roomId
    rw [hr, Option.map_some] at hrow
    exact List.mem_of_find?_eq_some hrow

/-- The record of a room names that room. -/
theorem roomId_eq {room : String} {r : Room} (hr : m room = some r) : r.roomId = room := by
  have hrow := hm.row? room
  rw [hr, Option.map_some, RoomBook.row?] at hrow
  have hroom := List.find?_some hrow
  exact of_decide_eq_true hroom

/-! ### The answers -/

theorem contains (room : String) : b.contains room = .ok (m room).isSome := by
  simp [RoomBook.contains, hm.isOpen, hm.row?]

/-- The record of a room is read back from its row. -/
theorem map_roomOfRow (now : Instant) (room : String) :
    (b.row? room).map (roomOfRow now) = m room := by
  rw [hm.row?]
  cases h : m room with
  | none => rfl
  | some r => rw [Option.map_some, Option.map_some, roomOfRow_ofRoom now (hm.isRegular h)]

theorem get (now : Instant) (room : String) : b.get now room = .ok (m room) := by
  simp [RoomBook.get, hm.isOpen, hm.map_roomOfRow]

theorem delete (room : String) : (b.delete room).1 = .ok (m room).isSome := by
  simp [RoomBook.delete, hm.isOpen, hm.row?]

theorem create (now : Instant) (room : String) (createdBy : Option String) :
    (b.create now room createdBy).1 = .ok ((m room).getD ⟨room, createdBy, now⟩) := by
  cases h : m room with
  | none => simp [RoomBook.create, hm.isOpen, hm.row?, h]
  | some r =>
    simp [RoomBook.create, hm.isOpen, hm.row?, h, roomOfRow_ofRoom now (hm.isRegular h)]

/-- The list has every room of the register, and each once. -/
theorem list (now : Instant) : ∃ rooms, b.list now = .ok rooms ∧ (rooms.map (·.roomId)).Nodup ∧
    (∀ r, r ∈ rooms ↔ m r.roomId = some r) ∧
    ∀ room, room ∈ rooms.map (·.roomId) ↔ (m room).isSome = true := by
  have hsorted := b.rows.mergeSort_perm rowNotAfter
  have hmem : ∀ r, r ∈ (b.rows.mergeSort rowNotAfter).map (roomOfRow now) ↔
      m r.roomId = some r := by
    intro r
    simp only [List.mem_map, hsorted.mem_iff, hm.mem_rows_iff]
    constructor
    · rintro ⟨-, ⟨r', hr', rfl⟩, rfl⟩
      rw [roomOfRow_ofRoom now (hm.isRegular hr')]
      exact hr'
    · intro hr
      exact ⟨_, ⟨r, hr, rfl⟩, roomOfRow_ofRoom now (hm.isRegular hr)⟩
  refine ⟨(b.rows.mergeSort rowNotAfter).map (roomOfRow now), ?_, ?_, hmem, fun room => ?_⟩
  · simp [RoomBook.list, hm.isOpen]
  · rw [List.map_map]
    exact ((hsorted.map _).nodup_iff).mpr hm.distinct
  · rw [List.mem_map, Option.isSome_iff_exists]
    constructor
    · rintro ⟨r, hin, rfl⟩
      exact ⟨r, (hmem r).mp hin⟩
    · rintro ⟨r, hr⟩
      have hroom := hm.roomId_eq hr
      exact ⟨r, (hmem r).mpr (hroom ▸ hr), hroom⟩

/-! ### What calls leave behind -/

theorem after_create (now : ClockTime) (room : String) (createdBy : Option String) :
    (b.create now room createdBy).2.Matches (m.step (.create now room createdBy)) := by
  cases h : m room with
  | some r =>
    have hb : (b.create now room createdBy).2 = b := by
      simp [RoomBook.create, hm.isOpen, hm.row?, h]
    have hm' : m.step (.create now room createdBy) = m := by
      rw [Register.step, h, Option.getD_some, ← h, Function.update_eq_self]
    rwa [hb, hm']
  | none =>
    have hnone : b.row? room = none := by rw [hm.row?, h, Option.map_none]
    have hb : (b.create now room createdBy).2 =
        { b with rows := b.rows ++ [.ofRoom ⟨room, createdBy, now⟩] } := by
      simp [RoomBook.create, hm.isOpen, hnone, RoomRow.ofRoom]
    rw [hb, Register.step, h, Option.getD_none]
    refine ⟨hm.isOpen, ?_, fun room' => ?_, fun {room' r} hr => ?_⟩
    · rw [List.map_append, List.map_singleton, ← List.concat_eq_append]
      refine List.Nodup.concat (fun hin => ?_) hm.distinct
      obtain ⟨row, hin, e⟩ := List.mem_map.mp hin
      have hrow := hm.row?_of_mem hin
      rw [e, RoomRow.roomId_ofRoom, hnone] at hrow
      cases hrow
    · rw [RoomBook.row?, List.find?_append, ← RoomBook.row?, hm.row?, List.find?_singleton]
      by_cases e : room' = room
      · subst e
        simp [h]
      · simp [e, Ne.symm e]
    · by_cases e : room' = room
      · subst e
        rw [Function.update_self] at hr
        cases hr
        exact now.isRegular
      · rw [Function.update_of_ne e] at hr
        exact hm.isRegular hr

theorem after_delete (room : String) : (b.delete room).2.Matches (m.step (.delete room)) := by
  have hb : (b.delete room).2 = { b with rows := b.rows.filter (·.roomId ≠ room) } := by
    simp [RoomBook.delete, hm.isOpen]
  rw [hb, Register.step]
  refine ⟨hm.isOpen, hm.distinct.sublist (List.filter_sublist.map _), fun room' => ?_,
    fun {room' r} hr => ?_⟩
  · rw [RoomBook.row?, List.find?_filter]
    by_cases e : room' = room
    · subst e
      simp
    · rw [Function.update_of_ne e, ← hm.row? room', RoomBook.row?]
      congr 1
      funext row
      by_cases e' : row.roomId = room' <;> simp [e', e]
  · by_cases e : room' = room
    · subst e
      rw [Function.update_self] at hr
      cases hr
    · rw [Function.update_of_ne e] at hr
      exact hm.isRegular hr

/-- Every call keeps book and register together. -/
theorem step (op : Operation) : (b.step op).Matches (m.step op) := by
  cases op with
  | create now room createdBy => exact hm.after_create now room createdBy
  | delete room => exact hm.after_delete room
  | restart => exact ⟨rfl, hm.distinct, hm.row?, hm.isRegular⟩
  | get | list | contains => exact hm

theorem run (ops : List Operation) : (b.run ops).Matches (m.run ops) := by
  induction ops generalizing b m with
  | nil => exact hm
  | cons op ops ih => exact ih (hm.step op)

end Matches

end RoomBook

/-! ### The directory in memory -/

namespace RoomSet

/-- The directory knows the rooms that are in the register. -/
def Knows (d : RoomSet) (m : Register) : Prop := ∀ room, d.contains room = (m room).isSome

theorem Knows.step {d : RoomSet} {m : Register} (hd : d.Knows m) (op : RoomBook.Operation) :
    (d.follow op).Knows (m.step op) := by
  cases op with
  | create now room createdBy =>
    intro room'
    have hroom : (d.create room).contains room' = (d.contains room' || decide (room' = room)) := by
      unfold create
      by_cases e : room' = room
      · split <;> simp_all
      · split <;> simp [e]
    rw [follow, hroom, hd room', Register.step]
    by_cases e : room' = room <;> simp [e]
  | delete room =>
    intro room'
    have hroom : (d.delete room).2.contains room' = (d.contains room' && decide (room' ≠ room)) := by
      rw [Bool.eq_iff_iff]
      simp [delete]
    rw [follow, hroom, hd room', Register.step]
    by_cases e : room' = room <;> simp [e]
  | get | list | contains | restart => exact hd

theorem Knows.run {d : RoomSet} {m : Register} (hd : d.Knows m) (ops : List RoomBook.Operation) :
    (d.replay ops).Knows (m.run ops) := by
  induction ops generalizing d m with
  | nil => exact hd
  | cons op ops ih => exact ih (hd.step op)

end RoomSet

/-! ### What the calls have made of the book -/

/-- **The book of rooms is a register of the first records.** After any calls, also under several
processes, the book and a register of rooms give the same answers. A room exists if it was created
and has not been deleted since, and its record is that of the call that created it when it did not
exist; a call leaves every other room as it is. A directory in memory that takes over the creations
and deletions knows the same rooms and gives the same answers to deletions. -/
theorem RoomBook.book_is_register (ops : List RoomBook.Operation) (room : String) :
    let b := RoomBook.empty.run ops
    let m := Register.empty.run ops
    let d := RoomSet.replay [] ops
    (b.contains room = .ok (m room).isSome ∧
      (∀ now, b.get now room = .ok (m room)) ∧
      (∀ now, ∃ rooms, b.list now = .ok rooms ∧ (rooms.map (·.roomId)).Nodup ∧
        (∀ r, r ∈ rooms ↔ m r.roomId = some r) ∧
        ∀ room, room ∈ rooms.map (·.roomId) ↔ (m room).isSome = true) ∧
      (∀ now createdBy,
        (b.create now room createdBy).1 = .ok ((m room).getD ⟨room, createdBy, now⟩)) ∧
      (b.delete room).1 = .ok (m room).isSome) ∧
    ((m room).isSome = true ↔ Since Register.step
      (fun _ op => ∃ now createdBy, op = .create now room createdBy)
      (fun _ op => op = .delete room) Register.empty ops) ∧
    (∀ r, m room = some r ↔ Since Register.step
      (fun m op => m room = none ∧ op.AsksFor r ∧ r.roomId = room)
      (fun _ op => op = .delete room) Register.empty ops) ∧
    (∀ op : RoomBook.Operation, op.writes room = false → m.step op room = m room) ∧
    b.contains room = .ok (d.contains room) ∧ (b.delete room).1 = .ok (d.delete room).1 := by
  intro b m d
  have hm : b.Matches m := matches_empty.run ops
  have hknows : d.Knows m := RoomSet.Knows.run (d := []) (fun _ => rfl) ops
  refine ⟨⟨hm.contains room, fun now => hm.get now room, hm.list, fun now => hm.create now room,
    hm.delete room⟩, ?_, fun r => ?_, fun _ => m.step_of_not_writes room, ?_, ?_⟩
  · exact iff_since (P := fun m : Register => (m room).isSome = true) (by simp [Register.empty])
      (fun m op => m.step_isSome_iff room op) ops
  · exact iff_since (P := fun m : Register => m room = some r) (by simp [Register.empty])
      (fun m op => m.step_eq_some_iff room op r) ops
  · rw [hm.contains, hknows room]
  · rw [hm.delete, RoomSet.delete, hknows room]

/-- A room is created, and again under another process; another room comes and goes. -/
def createdTwice : List RoomBook.Operation :=
  [.create .zero "lab" (some "u1"), .create .zero "Lab" none, .restart,
    .create .zero "lab" (some "u2"), .delete "Lab"]

theorem RoomBook.book_is_register_twice :
    (RoomBook.empty.run createdTwice).get .zero "lab" = .ok (some ⟨"lab", some "u1", .zero⟩) ∧
    (RoomBook.empty.run createdTwice).contains "Lab" = .ok false ∧
    (Register.empty.run createdTwice).step (.delete "Lab") "lab" =
      Register.empty.run createdTwice "lab" := by
  obtain ⟨⟨-, hget, -⟩, -, -, hother, -⟩ := book_is_register createdTwice "lab"
  obtain ⟨⟨hcontains, -⟩, -⟩ := book_is_register createdTwice "Lab"
  have hkept : Register.empty.run createdTwice "lab" = some ⟨"lab", some "u1", .zero⟩ := by decide
  have hgone : Register.empty.run createdTwice "Lab" = none := by decide
  refine ⟨(hget .zero).trans (by rw [hkept]), hcontains.trans (by rw [hgone]; rfl), ?_⟩
  exact hother (.delete "Lab") (by decide)

end ChatRooms

import ChatRooms.Proofs.Rooms.Register
import ChatRooms.Proofs.Time.Order

/-!
The list of all rooms. The table is sorted by the texts of the creation times, which in plain years
is the order of the times themselves. So the list has each room that exists once, and no room stands
behind one that was created later.
-/

namespace ChatRooms

open ChatRooms.Text ChatRooms.Time

/-! ### Where records come from -/

namespace Register

/-- A room has the record of the call that created it, unless it was deleted since. -/
theorem run_eq_some_iff (ops : List RoomBook.Operation) (room : String) (r : Room) :
    Register.empty.run ops room = some r ↔ Since step
      (fun m op => m room = none ∧ op.AsksFor r ∧ r.roomId = room)
      (fun _ op => op = .delete room) empty ops :=
  iff_since (P := fun m : Register => m room = some r) (by simp [empty])
    (fun m op => m.step_eq_some_iff room op r) ops

/-- The creation time in a record is a reading of the clock at a creation. -/
theorem create_mem_of_run {ops : List RoomBook.Operation} {room : String} {r : Room}
    (h : Register.empty.run ops room = some r) :
    ∃ now : ClockTime, r.createdAt = now ∧ .create now r.roomId r.createdBy ∈ ops := by
  obtain ⟨before, op, after, rfl, ⟨-, ⟨now, createdBy, rfl, hr⟩, -⟩, -⟩ :=
    (run_eq_some_iff ops room r).mp h
  rw [hr]
  exact ⟨now, rfl, List.mem_append_right before List.mem_cons_self⟩

end Register

/-! ### The order of the list -/

namespace RoomBook

theorem rowNotAfter_iff (a b : RoomRow) : rowNotAfter a b = true ↔ a.createdAt ≤ b.createdAt := by
  rw [rowNotAfter, Bool.not_eq_true', decide_eq_false_iff_not, not_lt]

/-- Rows are sorted by the texts of their creation times. -/
theorem pairwise_mergeSort (rows : List RoomRow) :
    (rows.mergeSort rowNotAfter).Pairwise (fun a b => a.createdAt ≤ b.createdAt) := by
  have htrans : ∀ a b c : RoomRow, rowNotAfter a b = true → rowNotAfter b c = true →
      rowNotAfter a c = true := by
    intro a b c hab hbc
    rw [rowNotAfter_iff] at *
    exact hab.trans hbc
  have htotal : ∀ a b : RoomRow, (rowNotAfter a b || rowNotAfter b a) = true := by
    intro a b
    rw [Bool.or_eq_true, rowNotAfter_iff, rowNotAfter_iff]
    exact le_total a.createdAt b.createdAt
  exact (List.pairwise_mergeSort htrans htotal rows).imp fun h => (rowNotAfter_iff _ _).mp h

/-- No room of the list stands behind one that was created later, if all rooms were created in plain
years. -/
theorem Matches.pairwise_list {b : RoomBook} {m : Register} (hm : b.Matches m)
    (hplain : ∀ room r, m room = some r → r.createdAt.HasPlainYear) {now : Instant}
    {rooms : List Room} (h : b.list now = .ok rooms) :
    rooms.Pairwise fun r s => s.createdAt.before r.createdAt = false := by
  have hrooms : (b.rows.mergeSort rowNotAfter).map (roomOfRow now) = rooms := by
    simpa [RoomBook.list, hm.isOpen] using h
  rw [← hrooms, List.pairwise_map]
  refine (pairwise_mergeSort b.rows).imp_of_mem fun {row row'} hin hin' hle => ?_
  rw [List.mem_mergeSort, hm.mem_rows_iff] at hin hin'
  obtain ⟨r, hr, rfl⟩ := hin
  obtain ⟨r', hr', rfl⟩ := hin'
  have hlt := Instant.storedText_lt_iff (hm.isRegular hr') (hm.isRegular hr) (hplain _ _ hr')
    (hplain _ _ hr)
  rw [roomOfRow_ofRoom now (hm.isRegular hr), roomOfRow_ofRoom now (hm.isRegular hr'),
    ← Bool.not_eq_true, ← hlt]
  exact not_lt.mpr hle

/-- **The list of rooms is complete and chronological.** After any calls whose clock readings at
creations lie in the years 0 to 9999, in whatever order, the list has each room that was created and
not deleted since exactly once, with the record of its creation, and no room stands behind one that
was created later. In these years the order of stored texts, by characters or by bytes, is the order
of the instants that they stand for. -/
theorem list_is_chronological (ops : List Operation)
    (hclock : ∀ now room createdBy, .create now room createdBy ∈ ops → now.HasPlainYear)
    (now : Instant) :
    (∃ rooms, (empty.run ops).list now = .ok rooms ∧ (rooms.map (·.roomId)).Nodup ∧
      (∀ room, room ∈ rooms.map (·.roomId) ↔ (empty.run ops).contains room = .ok true) ∧
      (∀ r, r ∈ rooms ↔ Since Register.step
        (fun m op => m r.roomId = none ∧ op.AsksFor r)
        (fun _ op => op = .delete r.roomId) Register.empty ops) ∧
      rooms.Pairwise fun r s => s.createdAt.before r.createdAt = false) ∧
    ∀ t u : ClockTime, t.HasPlainYear → u.HasPlainYear →
      (t.storedText < u.storedText ↔ t.before u = true) ∧
      (Utf8.encode t.storedText.toList < Utf8.encode u.storedText.toList ↔ t.before u = true) := by
  have hm : (empty.run ops).Matches (Register.empty.run ops) := matches_empty.run ops
  have hplain : ∀ room r, Register.empty.run ops room = some r → r.createdAt.HasPlainYear :=
    fun room r hr => by
      obtain ⟨now, hnow, hmem⟩ := Register.create_mem_of_run hr
      rw [hnow]
      exact hclock _ _ _ hmem
  obtain ⟨rooms, hlist, hnodup, hmem, hids⟩ := hm.list now
  refine ⟨⟨rooms, hlist, hnodup, fun room => ?_, fun r => ?_, hm.pairwise_list hplain hlist⟩,
    fun t u ht hu => ⟨Instant.storedText_lt_iff t.isRegular u.isRegular ht hu,
      Instant.encode_storedText_lt_iff t.isRegular u.isRegular ht hu⟩⟩
  · rw [hids, hm.contains]
    simp
  · rw [hmem, Register.run_eq_some_iff]
    simp

/-- Half a second into the leap second at the end of 2016. -/
def leapSecond : ClockTime := ⟨⟨1483228799, 1500000000, by decide, by decide⟩, by decide⟩

/-- A thousandth of a second before that leap second. -/
def beforeLeapSecond : ClockTime := ⟨⟨1483228799, 999000000, by decide, by decide⟩, by decide⟩

/-- Rooms around a leap second, created while the clock goes backwards. -/
def newYear : List Operation :=
  [.create leapSecond "lab" none, .create beforeLeapSecond "hall" (some "u1"),
    .create .zero "attic" none, .delete "attic", .restart]

theorem list_is_chronological_newYear :
    (∃ rooms, (empty.run newYear).list .zero = .ok rooms ∧
      (∀ room, room ∈ rooms.map (·.roomId) ↔ (empty.run newYear).contains room = .ok true) ∧
      rooms.Pairwise fun r s => s.createdAt.before r.createdAt = false) ∧
    (empty.run newYear).contains "hall" = .ok true ∧
    beforeLeapSecond.storedText < leapSecond.storedText := by
  have hclock : ∀ now room createdBy, .create now room createdBy ∈ newYear →
      now.HasPlainYear := by
    intro now room createdBy h
    simp only [newYear, List.mem_cons, Operation.create.injEq, reduceCtorEq, List.not_mem_nil,
      or_false] at h
    rcases h with ⟨rfl, -⟩ | ⟨rfl, -⟩ | ⟨rfl, -⟩ <;> decide
  obtain ⟨⟨rooms, hlist, -, hids, -, hpairwise⟩, htexts⟩ :=
    list_is_chronological newYear hclock .zero
  refine ⟨⟨rooms, hlist, hids, hpairwise⟩, by decide, ?_⟩
  exact (htexts beforeLeapSecond leapSecond (by decide) (by decide)).1.mpr (by decide)

end RoomBook

end ChatRooms

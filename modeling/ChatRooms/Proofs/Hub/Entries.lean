import Mathlib.Data.Set.Card
import ChatRooms.Proofs.Since
import ChatRooms.Proofs.Hub.Membership

/-!
The entries of rooms. A room gets its entry when somebody tries to join it, and loses it with its
last member. Whoever cannot join because the connection was closed before leaves an entry behind in
which nobody is. It stays until somebody joins the room or the room is closed, and until then the
number of entries is not the number of rooms that have members. `isVacant_step` says that nothing
else makes or ends such an entry.
-/

namespace ChatRooms

/-- A new key does not repeat one that is there. -/
theorem Table.nodup_keys_insert {κ ν : Type} [DecidableEq κ] {t : Table κ ν}
    (hn : (t.map (·.1)).Nodup) {k : κ} (hk : t.get? k = none) (v : ν) :
    ((t.insert k v).map (·.1)).Nodup := by
  rw [insert_of_get?_eq_none hk, List.map_append, List.map_singleton, ← List.concat_eq_append]
  refine List.Nodup.concat (fun hin => ?_) hn
  rw [← get?_isSome_iff, hk] at hin
  cases hin

namespace Hub

/-- The room has an entry, and nobody is in it. -/
def IsVacant (h : Hub) (room : String) : Prop :=
  ∃ entry, h.rooms.get? room = some entry ∧ entry.members = []

theorem isVacant_iff (h : Hub) (room : String) :
    h.IsVacant room ↔ (h.rooms.get? room).isSome ∧ h.members room = [] := by
  unfold IsVacant members
  cases h.rooms.get? room <;> simp

/-- No room has two entries. -/
def HasDistinctRooms (h : Hub) : Prop := (h.rooms.map (·.1)).Nodup

/-! ### What makes no room vacant and leaves none so -/

/-- The same rooms are vacant, and no room gets a second entry. -/
structure KeepsVacancies (h h' : Hub) : Prop where
  vacant : ∀ room, h'.IsVacant room ↔ h.IsVacant room
  distinct : h.HasDistinctRooms → h'.HasDistinctRooms

theorem KeepsVacancies.of_rooms {h h' : Hub} (e : h'.rooms = h.rooms) : KeepsVacancies h h' := by
  constructor
  · intro room
    unfold IsVacant
    rw [e]
  · unfold HasDistinctRooms
    rw [e]
    exact id

theorem KeepsVacancies.trans {h₁ h₂ h₃ : Hub} (k : KeepsVacancies h₁ h₂)
    (l : KeepsVacancies h₂ h₃) : KeepsVacancies h₁ h₃ :=
  ⟨fun room => (l.vacant room).trans (k.vacant room), fun hd => l.distinct (k.distinct hd)⟩

theorem keepsVacancies_foldl {α : Type} {f : Hub → α → Hub} (hf : ∀ h a, KeepsVacancies h (f h a))
    (h : Hub) (as : List α) : KeepsVacancies h (as.foldl f h) := by
  induction as generalizing h with
  | nil => exact .of_rooms rfl
  | cons a as ih => exact (hf h a).trans (ih (f h a))

/-- Changing the entry of a room makes no other room vacant. -/
theorem isVacant_modify {h h' : Hub} {room : String} (f : RoomEntry → RoomEntry)
    (e : h'.rooms = h.rooms.modify room f) (room' : String) : h'.IsVacant room' ↔
      if room' = room then ∃ entry, h.rooms.get? room = some entry ∧ (f entry).members = []
      else h.IsVacant room' := by
  unfold IsVacant
  rw [e, Table.get?_modify]
  by_cases er : room' = room
  · subst er
    cases h.rooms.get? room' <;> simp
  · rw [if_neg (Ne.symm er), if_neg er]

theorem HasDistinctRooms.modify {h h' : Hub} (hd : h.HasDistinctRooms) {room : String}
    {f : RoomEntry → RoomEntry} (e : h'.rooms = h.rooms.modify room f) : h'.HasDistinctRooms := by
  unfold HasDistinctRooms
  rw [e, Table.map_fst_modify]
  exact hd

/-- An entry without members does not outlast its unlinking. -/
theorem isVacant_prune (h : Hub) (room room' : String) :
    (h.prune room).IsVacant room' ↔ h.IsVacant room' ∧ room' ≠ room := by
  unfold IsVacant prune
  dsimp only
  by_cases e : room' = room
  · subst e
    cases hr : h.rooms.get? room' with
    | none => simp [Table.get?_modify, hr]
    | some entry =>
      by_cases hm : entry.members = []
      · simp [Table.get?_modify, Table.get?_erase, hr, hm, RoomEntry.retireIfEmpty]
      · simp [Table.get?_modify, hr, hm, RoomEntry.retireIfEmpty]
  · split <;> simp [Table.get?_modify, Table.get?_erase, e, Ne.symm e]

theorem HasDistinctRooms.prune {h : Hub} (hd : h.HasDistinctRooms) (room : String) :
    (h.prune room).HasDistinctRooms := by
  have hmodified : ((h.rooms.modify room .retireIfEmpty).map (·.1)).Nodup := by
    rw [Table.map_fst_modify]
    exact hd
  unfold Hub.prune HasDistinctRooms
  dsimp only
  split
  · exact Table.nodup_keys_erase hmodified room
  · exact hmodified

/-- Whoever leaves a room does not leave it vacant: the entry goes with its last member. -/
theorem keepsVacancies_leave (h : Hub) (room : String) (id : Uuid) :
    KeepsVacancies h (h.leave room id).2 := by
  by_cases hin : id ∈ h.members room
  · have hno : ¬h.IsVacant room := by
      rw [isVacant_iff]
      rintro ⟨-, hnobody⟩
      rw [hnobody] at hin
      cases hin
    unfold leave
    rw [if_pos ((contains_iff _ _ _).mpr hin)]
    dsimp only
    set g : Hub := { h.update id fun c => (c.closed CloseCode.normal).withoutSender with
      rooms := h.rooms.modify room (·.without id) } with hg
    have hrooms : g.rooms = h.rooms.modify room (·.without id) := rfl
    have hother : ∀ room' ≠ room, g.IsVacant room' ↔ h.IsVacant room' := fun room' e =>
      (isVacant_modify _ hrooms room').trans (if_neg e ▸ Iff.rfl)
    split
    · refine ⟨fun room' => ?_, fun hd => (hd.modify hrooms).prune room⟩
      rw [isVacant_prune]
      by_cases e : room' = room
      · simp [e, hno]
      · simp [e, hother room' e]
    · rename_i hsome
      refine ⟨fun room' => ?_, fun hd => hd.modify hrooms⟩
      by_cases e : room' = room
      · rw [e, isVacant_iff g]
        simpa [hno] using fun _ => hsome
      · exact hother room' e
  · have hsame : (h.leave room id).2 = h := by
      unfold leave
      rw [if_neg fun hc => hin ((contains_iff _ _ _).mp hc)]
    exact .of_rooms (congrArg Hub.rooms hsame)

theorem keepsVacancies_close (h : Hub) (id : Uuid) (code : UInt16) :
    KeepsVacancies h (h.close id code).2 := by
  unfold close
  split
  · exact .of_rooms rfl
  · split
    · exact .of_rooms rfl
    · exact KeepsVacancies.trans (.of_rooms (by rfl)) (keepsVacancies_leave _ _ _)

theorem keepsVacancies_evict (room : String) (h : Hub) (id : Uuid) :
    KeepsVacancies h (evict room h id) := by
  unfold evict
  split
  · exact .of_rooms rfl
  · split
    · exact .of_rooms rfl
    · exact KeepsVacancies.trans (.of_rooms (by rfl)) (keepsVacancies_leave _ _ _)

theorem keepsVacancies_broadcastIn (h : Hub) (order : List Uuid) (room : String) (e : Envelope)
    (exclude : Option Uuid) : KeepsVacancies h (h.broadcastIn order room e exclude).2 := by
  have hserved : ∀ (order : List Uuid) (d : Delivery),
      KeepsVacancies d.hub (order.foldl (deliver e exclude) d).hub := by
    intro order
    induction order with
    | nil => exact fun d => .of_rooms rfl
    | cons a order ih =>
      intro d
      refine KeepsVacancies.trans (.of_rooms ?_) (ih (deliver e exclude d a))
      rw [deliver_eq]
      dsimp only
      split <;> rfl
  exact (hserved order ⟨h, 0, []⟩).trans (keepsVacancies_foldl (keepsVacancies_evict room) _ _)

theorem keepsVacancies_broadcast (h : Hub) (room : String) (e : Envelope)
    (exclude : Option Uuid) : KeepsVacancies h (h.broadcast room e exclude).2 :=
  keepsVacancies_broadcastIn h (h.members room) room e exclude

theorem keepsVacancies_handle (h : Hub) (id : Uuid) (raw : String) (now : Time.Instant) :
    KeepsVacancies h (h.handle id raw now).2 := by
  unfold handle
  split
  · exact .of_rooms rfl
  · split
    · exact .of_rooms rfl
    · split
      · exact keepsVacancies_close _ _ _
      · exact keepsVacancies_broadcast _ _ _ _

/-- Only joins and the closing of a room do anything to vacant rooms. -/
theorem keepsVacancies_step (h : Hub) {op : Operation} (hj : ∀ id room, op ≠ .join id room true)
    (hc : ∀ room, op ≠ .closeRoom room) : KeepsVacancies h (h.step op).2 := by
  cases op with
  | join id room exists' =>
    cases exists' with
    | true => exact absurd rfl (hj id room)
    | false => exact .of_rooms rfl
  | closeRoom room => exact absurd rfl (hc room)
  | openConnection id identity room capacity => exact .of_rooms rfl
  | leave room id => exact keepsVacancies_leave h room id
  | broadcast room e exclude => exact keepsVacancies_broadcast h room e exclude
  | handle id raw now => exact keepsVacancies_handle h id raw now
  | close id code => exact keepsVacancies_close h id code
  | drop id => exact keepsVacancies_close h id _
  | receive id =>
    refine .of_rooms ?_
    unfold step receive
    dsimp only
    split <;> rfl
  | dropReceiver id => exact .of_rooms rfl

/-! ### What makes a room vacant, and what ends it -/

theorem isVacant_withEntry (h : Hub) (room room' : String) : (h.withEntry room).IsVacant room' ↔
    h.IsVacant room' ∨ room' = room ∧ h.members room = [] := by
  rw [isVacant_iff, isVacant_iff, members_withEntry]
  by_cases e : room' = room
  · subst e
    have hsome := Option.isSome_iff_exists.mpr (get?_withEntry h room')
    simp [hsome]
  · have hsame : (h.withEntry room).rooms.get? room' = h.rooms.get? room' := by
      unfold withEntry
      split
      · rfl
      · exact (Table.get?_insert _ _ _ _).trans (if_neg (Ne.symm e))
    simp [hsame, e]

theorem isVacant_joined (h : Hub) (room : String) (id : Uuid) (room' : String) :
    (h.joined room id).IsVacant room' ↔ h.IsVacant room' ∧ room' ≠ room := by
  refine (isVacant_modify (h := h.withEntry room) (·.adding id) rfl room').trans ?_
  by_cases e : room' = room
  · simp [e, RoomEntry.adding]
  · rw [if_neg e, isVacant_withEntry]
    simp [e]

theorem isVacant_closeRoom (h : Hub) (room room' : String) :
    (h.closeRoom room).2.IsVacant room' ↔ h.IsVacant room' ∧ room' ≠ room := by
  unfold IsVacant closeRoom
  dsimp only
  rw [Table.get?_erase]
  by_cases e : room' = room
  · simp [e]
  · simp [e, Ne.symm e]

/-- The operation is a join that is refused because the connection was closed before, while nobody
is in the room. -/
def Operation.vacates (room : String) (h : Hub) (op : Operation) : Prop :=
  ∃ id, op = .join id room true ∧ (h.step op).1 = .joined (.error (closedBeforeJoin id)) ∧
    h.members room = []

/-- Somebody joins the room, or the room is closed. -/
def Operation.reclaims (room : String) (h : Hub) (op : Operation) : Prop :=
  op = .closeRoom room ∨ ∃ id, op = .join id room true ∧ (h.step op).1 = .joined (.ok ())

/-- **What a step does to vacant rooms.** Only a refused join leaves a room vacant, and only a join
or the closing of the room ends that. -/
theorem isVacant_step (room : String) (h : Hub) (op : Operation) :
    (h.step op).2.IsVacant room ↔ op.vacates room h ∨ h.IsVacant room ∧ ¬op.reclaims room h := by
  by_cases hj : ∃ id room', op = .join id room' true
  · obtain ⟨id, room', rfl⟩ := hj
    cases hjoin : h.join room' id true with
    | none =>
      have hstep : h.step (.join id room' true) = (.spinning, h) := by simp [step, hjoin]
      simp [Operation.vacates, Operation.reclaims, hstep]
    | some p =>
      obtain ⟨r, h'⟩ := p
      have hstep : h.step (.join id room' true) = (.joined r, h') := by simp [step, hjoin]
      rcases join_cases hjoin with ⟨hno, -⟩ | ⟨-, rfl, -, rfl⟩ | ⟨-, rfl, rfl, -⟩
      · cases hno
      · rw [hstep]
        refine (isVacant_withEntry h room' room).trans ?_
        by_cases e : room' = room
        · subst e
          simp [Operation.vacates, Operation.reclaims, hstep, or_comm]
        · simp [Operation.vacates, Operation.reclaims, hstep, e, Ne.symm e]
      · rw [hstep, isVacant_joined, ne_comm]
        by_cases e : room' = room
        · subst e
          simp [Operation.vacates, Operation.reclaims, hstep]
        · simp [Operation.vacates, Operation.reclaims, hstep, e]
  · by_cases hc : ∃ room', op = .closeRoom room'
    · obtain ⟨room', rfl⟩ := hc
      refine (isVacant_closeRoom h room' room).trans ?_
      rw [ne_comm]
      simp [Operation.vacates, Operation.reclaims]
    · have hno : ¬op.vacates room h := by
        rintro ⟨id, e, -⟩
        exact hj ⟨id, room, e⟩
      have hno' : ¬op.reclaims room h := by
        rintro (e | ⟨id, e, -⟩)
        · exact hc ⟨room, e⟩
        · exact hj ⟨id, room, e⟩
      rw [(keepsVacancies_step h (fun id room' e => hj ⟨id, room', e⟩)
        fun room' e => hc ⟨room', e⟩).vacant room]
      simp [hno, hno']

/-! ### The number of entries -/

theorem HasDistinctRooms.withEntry {h : Hub} (hd : h.HasDistinctRooms) (room : String) :
    (h.withEntry room).HasDistinctRooms := by
  unfold Hub.withEntry
  split
  · exact hd
  · rename_i hr
    exact Table.nodup_keys_insert hd (by simpa [Table.has] using hr) .empty

theorem HasDistinctRooms.step {h : Hub} (hd : h.HasDistinctRooms) (op : Operation) :
    (h.step op).2.HasDistinctRooms := by
  by_cases hj : ∃ id room, op = .join id room true
  · obtain ⟨id, room, rfl⟩ := hj
    unfold Hub.step
    dsimp only
    cases hjoin : h.join room id true with
    | none => exact hd
    | some p =>
      obtain ⟨r, h'⟩ := p
      rcases join_cases hjoin with ⟨hno, -⟩ | ⟨-, -, -, rfl⟩ | ⟨-, -, rfl, -⟩
      · cases hno
      · exact hd.withEntry room
      · exact (hd.withEntry room).modify (f := (·.adding id)) rfl
  · by_cases hc : ∃ room, op = .closeRoom room
    · obtain ⟨room, rfl⟩ := hc
      exact Table.nodup_keys_erase hd room
    · exact (keepsVacancies_step h (fun id room e => hj ⟨id, room, e⟩)
        fun room e => hc ⟨room, e⟩).distinct hd

theorem HasDistinctRooms.run {h : Hub} (hd : h.HasDistinctRooms) (ops : List Operation) :
    (h.run ops).HasDistinctRooms := by
  induction ops generalizing h with
  | nil => exact hd
  | cons op ops ih => exact ih (hd.step op)

/-- The rooms that have an entry are those with members and those that are vacant. -/
theorem HasDistinctRooms.roomCount_eq {h : Hub} (hd : h.HasDistinctRooms) : h.roomCount =
    {room | h.members room ≠ []}.ncard + {room | h.IsVacant room}.ncard := by
  have hentries : {room | h.members room ≠ []} ∪ {room | h.IsVacant room} =
      ((h.rooms.map (·.1)).toFinset : Set String) := by
    ext room
    rw [List.coe_toFinset, Set.mem_ofPred_eq, ← Table.get?_isSome_iff]
    simp only [Set.mem_union, Set.mem_ofPred_eq, isVacant_iff, members]
    cases h.rooms.get? room with
    | none => simp
    | some entry => simpa using ne_or_eq entry.members []
  have hapart : Disjoint {room | h.members room ≠ []} {room | h.IsVacant room} := by
    rw [Set.disjoint_left]
    intro room hsome hvacant
    exact hsome ((isVacant_iff h room).mp hvacant).2
  have hfinite : ({room | h.members room ≠ []} ∪ {room | h.IsVacant room}).Finite :=
    hentries ▸ Finset.finite_toSet _
  rw [← Set.ncard_union_eq hapart (hfinite.subset Set.subset_union_left)
    (hfinite.subset Set.subset_union_right), hentries, Set.ncard_coe_finset,
    List.toFinset_card_of_nodup hd, List.length_map, roomCount]

/-- What a join that fails does to the entries: nothing, unless it is refused because the connection
was closed before, and the room had no entry. -/
theorem rooms_of_failed_join {h h' : Hub} {room : String} {id : Uuid} {exists' : Bool}
    {e : ChatError} (hj : h.join room id exists' = some (.error e, h')) :
    h'.rooms = h.rooms ∨ e = closedBeforeJoin id ∧ h.rooms.get? room = none ∧
      h'.rooms = h.rooms ++ [(room, .empty)] := by
  rcases join_cases hj with ⟨-, -, rfl⟩ | ⟨-, hr, -, rfl⟩ | ⟨-, hr, -⟩
  · exact .inl rfl
  · by_cases hn : h.rooms.get? room = none
    · refine .inr ⟨Except.error.inj hr, hn, ?_⟩
      have hno : h.rooms.has room = false := by simp [Table.has, hn]
      rw [← Table.insert_of_get?_eq_none hn]
      simp [update, withEntry, hno]
    · have hyes : h.rooms.has room = true := by
        simpa [Table.has, Option.isSome_iff_ne_none] using hn
      exact .inl (by simp [update, withEntry, hyes])
  · cases hr

/-- **Which rooms are left without members.** After every run of operations, a room has an entry
without members exactly if a join of it was refused because the connection was closed before, while
nobody was in it, and since then nobody has joined it and it has not been closed. Every other entry
has members, so that the number of entries is that of the rooms with members and of those left
vacant. A join that fails for another reason, or in a room that has an entry, leaves the entries as
they are. -/
theorem vacant_since_refusal (ops : List Operation) :
    let h := empty.run ops
    (∀ room, h.IsVacant room ↔ Since (fun h op => (h.step op).2) (Operation.vacates room)
      (Operation.reclaims room) empty ops) ∧
    h.roomCount = {room | h.members room ≠ []}.ncard + {room | h.IsVacant room}.ncard ∧
    ∀ room id exists' e h', h.join room id exists' = some (.error e, h') →
      h'.rooms = h.rooms ∨ e = closedBeforeJoin id ∧ h.rooms.get? room = none ∧
        h'.rooms = h.rooms ++ [(room, .empty)] := by
  intro h
  have hd : HasDistinctRooms empty := List.nodup_nil
  refine ⟨fun room => ?_, (hd.run ops).roomCount_eq, fun _ _ _ _ _ => rooms_of_failed_join⟩
  have hno : ¬empty.IsVacant room := by
    rintro ⟨entry, hentry, -⟩
    cases hentry
  exact iff_since (P := fun h : Hub => h.IsVacant room) hno (isVacant_step room) ops

/-- A connection is closed before it joins its room. -/
def closedGuest : List Operation :=
  [.openConnection ⟨1⟩ ⟨"u1", "Ada"⟩ "lab" 4, .close ⟨1⟩ CloseCode.normal]

theorem vacant_since_refusal_closed :
    (empty.run (closedGuest ++ [.join ⟨1⟩ "lab" true])).IsVacant "lab" ∧
    ∃ h', (empty.run closedGuest).join "lab" ⟨1⟩ true = some (.error (closedBeforeJoin ⟨1⟩), h') ∧
      h'.rooms = (empty.run closedGuest).rooms ++ [("lab", .empty)] := by
  obtain ⟨hvacant, -, -⟩ := vacant_since_refusal (closedGuest ++ [.join ⟨1⟩ "lab" true])
  obtain ⟨-, -, hfailed⟩ := vacant_since_refusal closedGuest
  refine ⟨(hvacant "lab").mpr ⟨closedGuest, _, [], rfl, ⟨⟨1⟩, rfl, rfl, rfl⟩, by simp⟩, _, rfl, ?_⟩
  rcases hfailed "lab" ⟨1⟩ true _ _ rfl with hsame | ⟨-, -, hnew⟩
  · cases hsame
  · exact hnew

/-- A join that is refused leaves an entry behind: one room is counted, and nobody is in any. -/
theorem refused_join_leaves_entry :
    let ops := closedGuest ++ [.join ⟨1⟩ "lab" true]
    obeys Operation.isProper empty ops = true ∧
    (∃ e, ((empty.run closedGuest).step (.join ⟨1⟩ "lab" true)).1 = .joined (.error e)) ∧
    (empty.run closedGuest).rooms = [] ∧ (empty.run ops).rooms = [("lab", .empty)] ∧
    (empty.run ops).roomCount = 1 ∧ {room | (empty.run ops).members room ≠ []}.ncard = 0 := by
  have hnobody : ∀ room, members ⟨[], [("lab", .empty)]⟩ room = [] := by
    intro room
    simp only [members, Table.get?]
    split <;> rfl
  have hnone : {room | (empty.run (closedGuest ++ [.join ⟨1⟩ "lab" true])).members room ≠ []} = ∅ :=
    Set.eq_empty_of_forall_notMem fun room hsome => hsome (hnobody room)
  exact ⟨by decide, ⟨_, rfl⟩, rfl, rfl, rfl, by rw [hnone, Set.ncard_empty]⟩

end Hub

end ChatRooms

import ChatRooms.Proofs.Hub.Queue
import ChatRooms.Proofs.Hub.Reachable

/-!
The exact effect of a broadcast. Every member of the room is accounted for: it is served, or it is
closed and removed, or it is left alone; and nobody else is touched. Since this says all that there
is to say of the hub afterwards, the order in which the members are served does not matter, which is
`broadcastIn_congr`.
-/

namespace ChatRooms

namespace Table

variable {κ ν : Type} [DecidableEq κ] {k : κ} {ks : List κ}

theorem get?_of_sublist {t : Table κ ν} (hk : k ∉ ks) (ht : (t.map (·.1)).Sublist ks) :
    t.get? k = none := by
  rw [← Option.not_isSome_iff_eq_none, get?_isSome_iff]
  exact fun hin => hk (ht.subset hin)

/-- A table with some of the keys begins with the first of them, or does not have it at all. -/
theorem cases_of_sublist {t : Table κ ν} (hk : k ∉ ks) (ht : (t.map (·.1)).Sublist (k :: ks)) :
    (t.get? k = none ∧ (t.map (·.1)).Sublist ks) ∨
    ∃ v rest, t = (k, v) :: rest ∧ get? rest k = none ∧ (rest.map (·.1)).Sublist ks := by
  cases t with
  | nil => exact .inl ⟨rfl, List.nil_sublist _⟩
  | cons entry rest =>
    obtain ⟨k', v⟩ := entry
    rw [List.map_cons] at ht
    cases ht with
    | cons _ ht => exact .inl ⟨get?_of_sublist hk ht, ht⟩
    | cons_cons _ ht => exact .inr ⟨v, rest, rfl, get?_of_sublist hk ht, ht⟩

/-- Tables with some of the same keys, in the same order, are equal if their look-ups are. -/
theorem eq_of_get? (hn : ks.Nodup) {t₁ t₂ : Table κ ν} (h₁ : (t₁.map (·.1)).Sublist ks)
    (h₂ : (t₂.map (·.1)).Sublist ks) (h : ∀ k, t₁.get? k = t₂.get? k) : t₁ = t₂ := by
  induction ks generalizing t₁ t₂ with
  | nil =>
    rw [List.map_eq_nil_iff.mp (List.sublist_nil.mp h₁),
      List.map_eq_nil_iff.mp (List.sublist_nil.mp h₂)]
  | cons k ks ih =>
    obtain ⟨hk, hn⟩ := List.nodup_cons.mp hn
    have hkey := h k
    rcases cases_of_sublist hk h₁ with ⟨hno₁, hs₁⟩ | ⟨v₁, rest₁, rfl, hno₁, hs₁⟩ <;>
    rcases cases_of_sublist hk h₂ with ⟨hno₂, hs₂⟩ | ⟨v₂, rest₂, rfl, hno₂, hs₂⟩
    · exact ih hn hs₁ hs₂ h
    · simp [hno₁, get?] at hkey
    · simp [hno₂, get?] at hkey
    · have hv : v₁ = v₂ := by simpa [get?] using hkey
      have hrest : rest₁ = rest₂ := by
        refine ih hn hs₁ hs₂ fun k' => ?_
        by_cases e : k = k'
        · rw [← e, hno₁, hno₂]
        · have hkey' := h k'
          simpa [get?, e] using hkey'
      rw [hv, hrest]

end Table

theorem Connection.accepts_iff (c : Connection) :
    c.accepts = true ↔ c.hasReceiver = true ∧ c.queue.length < c.capacity := by
  simp [accepts]

namespace Hub

/-- The entry of a room is told by its members, and by whether there is one that has none. -/
theorem get?_rooms_congr {h h' : Hub} {room : String} (hm : h'.members room = h.members room)
    (hv : h'.IsVacant room ↔ h.IsVacant room) (hr : h.isRetired room = false)
    (hr' : h'.isRetired room = false) : h'.rooms.get? room = h.rooms.get? room := by
  unfold members at hm
  unfold IsVacant at hv
  unfold isRetired at hr hr'
  cases hg : h.rooms.get? room with
  | none =>
    rw [hg] at hm hv
    cases hg' : h'.rooms.get? room with
    | none => rfl
    | some entry' =>
      rw [hg'] at hm hv
      obtain ⟨entry, hno, -⟩ := hv.mp ⟨entry', rfl, hm⟩
      cases hno
  | some entry =>
    rw [hg] at hm hv hr
    cases hg' : h'.rooms.get? room with
    | none =>
      rw [hg'] at hm hv
      obtain ⟨entry', hno, -⟩ := hv.mpr ⟨entry, rfl, hm.symm⟩
      cases hno
    | some entry' =>
      rw [hg'] at hm hr'
      have hmembers : entry'.members = entry.members := hm
      have hretired : entry'.retired = entry.retired := Eq.trans hr' (Eq.symm hr)
      cases entry
      cases entry'
      simp_all

/-- A member cannot be served if it is open, and its queue takes nothing. -/
theorem refuses_iff {h : Hub} {id : Uuid} {c : Connection} (hid : h.connection? id = some c)
    (exclude : Option Uuid) : h.refuses exclude id = true ↔
      ¬exclude = some id ∧ ¬c.state = .closed ∧ ¬c.accepts = true := by
  unfold refuses
  rw [hid]
  simp [and_assoc]

section Fanout

variable {h : Hub} (hw : h.WellFormed) {room : String} {order : List Uuid} (e : Envelope)
  (exclude : Option Uuid) (hp : order.Perm (h.members room))

include hw hp

/-- **The order does not matter.** -/
theorem broadcastIn_congr (hd : h.HasDistinctKeys) :
    h.broadcastIn order room e exclude = h.broadcast room e exclude := by
  have hn := hw.nodup room
  obtain ⟨hcount, hconn, hmem, hret⟩ := broadcastIn_effect e exclude hp hn
  obtain ⟨hcount', hconn', hmem', hret'⟩ := broadcastIn_effect e exclude (List.Perm.refl _) hn
  have horder := KeepsOrder.broadcastIn h order room e exclude
  have horder' := KeepsOrder.broadcastIn h (h.members room) room e exclude
  have hvacant := keepsVacancies_broadcastIn h order room e exclude
  have hvacant' := keepsVacancies_broadcastIn h (h.members room) room e exclude
  have hconnections : (h.broadcastIn order room e exclude).2.connections =
      (h.broadcast room e exclude).2.connections := by
    refine Table.eq_of_get? hd.connections (horder.connections ▸ List.Sublist.refl _)
      (horder'.connections ▸ List.Sublist.refl _) fun id => ?_
    exact (hconn id).trans (hconn' id).symm
  have hrooms : (h.broadcastIn order room e exclude).2.rooms =
      (h.broadcast room e exclude).2.rooms := by
    refine Table.eq_of_get? hd.rooms horder.rooms horder'.rooms fun room' => ?_
    exact get?_rooms_congr ((hmem room').trans (hmem' room').symm)
      ((hvacant.vacant room').trans (hvacant'.vacant room').symm) (hret' hw.unretired room')
      (hret hw.unretired room')
  exact Prod.ext (hcount.trans hcount'.symm) (congrArg₂ Hub.mk hconnections hrooms)

/-! ### Member by member -/

/-- What becomes of a member that is served, of one that cannot be, and of one that is passed over.
-/
theorem member_broadcastIn {id : Uuid} {c : Connection} (hin : id ∈ h.members room)
    (hid : h.connection? id = some c) :
    let after := (h.broadcastIn order room e exclude).2
    if exclude = some id ∨ c.state = .closed then
      after.connection? id = some c ∧ id ∈ after.members room
    else if c.hasReceiver = true ∧ c.queue.length < c.capacity then
      after.connection? id = some { c with queue := c.queue ++ [e] } ∧ id ∈ after.members room
    else
      after.connection? id = some { c with life := ⟨.closed, 1013⟩, hasSender := false } ∧
        ∀ room', id ∉ after.members room' := by
  intro after
  obtain ⟨-, hconn, hmem, -⟩ := broadcastIn_effect e exclude hp (hw.nodup room)
  have hafter : after.connection? id =
      some (if exclude = some id then c else c.offered e) := by
    refine (hconn id).trans ?_
    rw [hid, Option.map_some]
    by_cases hx : exclude = some id <;> simp [hin, hx]
  have hstays : id ∈ after.members room ↔ h.refuses exclude id = false := by
    rw [hmem room, if_pos rfl, List.mem_filter]
    simp [hin]
  have hrefuses := refuses_iff hid exclude
  by_cases hx : exclude = some id
  · rw [if_pos (.inl hx)]
    rw [if_pos hx] at hafter
    exact ⟨hafter, hstays.mpr (by simpa [hx] using hrefuses)⟩
  · rw [if_neg hx] at hafter
    by_cases hc : c.state = .closed
    · rw [if_pos (.inr hc)]
      rw [Connection.offered, if_pos hc] at hafter
      exact ⟨hafter, hstays.mpr (by simpa [hc] using hrefuses)⟩
    · rw [if_neg (by simp [hx, hc])]
      rw [Connection.offered, if_neg hc] at hafter
      by_cases ha : c.hasReceiver = true ∧ c.queue.length < c.capacity
      · rw [if_pos ha]
        rw [if_pos (c.accepts_iff.mpr ha)] at hafter
        exact ⟨hafter, hstays.mpr (by simpa [c.accepts_iff.mpr ha] using hrefuses)⟩
      · have hfull : ¬c.accepts = true := fun hyes => ha (c.accepts_iff.mp hyes)
        rw [if_neg ha]
        rw [if_neg hfull, Connection.closed, Lifecycle.closed_of_open hc] at hafter
        refine ⟨hafter, fun room' hin' => ?_⟩
        -- the member was in no other room, and is not in this one any more
        have hout : id ∉ after.members room := by
          rw [hstays, hrefuses.mpr ⟨hx, hc, hfull⟩]
          simp
        rw [hmem room'] at hin'
        split at hin'
        · rename_i er
          rw [hmem room, if_pos rfl] at hout
          exact hout hin'
        · rename_i er
          exact er (hw.one_room hin' hin)

/-- The result counts those who have the envelope at the end of their queue afterwards. -/
theorem count_broadcastIn : (h.broadcastIn order room e exclude).1 =
    (h.members room).countP fun id =>
      (h.broadcastIn order room e exclude).2.queue id = h.queue id ++ [e] := by
  obtain ⟨hcount, -⟩ := broadcastIn_effect e exclude hp (hw.nodup room)
  refine hcount.trans (List.countP_congr fun id hin => ?_)
  obtain ⟨c, hid, -⟩ := hw.entered hin
  have hafter := member_broadcastIn hw e exclude hp hin hid
  rw [decide_eq_true_eq]
  unfold takes queue
  dsimp only at hafter
  rw [hid]
  by_cases hx : exclude = some id ∨ c.state = .closed
  · rw [if_pos hx] at hafter
    rw [hafter.1]
    rcases hx with hx | hc
    · simp [hx]
    · simp [hc]
  · rw [if_neg hx] at hafter
    obtain ⟨hx, hc⟩ := not_or.mp hx
    by_cases ha : c.hasReceiver = true ∧ c.queue.length < c.capacity
    · rw [if_pos ha] at hafter
      rw [hafter.1]
      simp [hx, hc, c.accepts_iff.mpr ha]
    · rw [if_neg ha] at hafter
      rw [hafter.1]
      have hno : ¬c.accepts = true := fun hyes => ha (c.accepts_iff.mp hyes)
      simp [hno]

/-- The entry of a room goes with its last member, and no other room is touched. -/
theorem rooms_broadcastIn :
    let after := (h.broadcastIn order room e exclude).2
    (h.members room ≠ [] → (after.rooms.get? room = none ↔ after.members room = [])) ∧
    ∀ room', room' ≠ room → after.rooms.get? room' = h.rooms.get? room' := by
  intro after
  obtain ⟨-, -, hmem, hret⟩ := broadcastIn_effect e exclude hp (hw.nodup room)
  have hvacant := keepsVacancies_broadcastIn h order room e exclude
  constructor
  · intro hsome
    constructor
    · intro hnone
      unfold members
      rw [hnone]
      rfl
    · intro hleft
      -- an entry without members would have been there before
      by_contra hentry
      have hbefore : h.IsVacant room :=
        (hvacant.vacant room).mp ((isVacant_iff after room).mpr
          ⟨Option.isSome_iff_ne_none.mpr hentry, hleft⟩)
      exact hsome ((isVacant_iff h room).mp hbefore).2
  · intro room' hne
    have hsame : after.members room' = h.members room' := by
      rw [hmem room', if_neg hne]
    exact get?_rooms_congr hsame (hvacant.vacant room') (hw.unretired room')
      (hret hw.unretired room')

end Fanout

/-- **The exact effect of a broadcast.** In whatever order the members are served, the excluded one
and those who are closed already are left as they are; each other one with a receiver and with place
in its queue has the envelope at the end of it; each other one is closed because it is too slow, and
is in no room any more. The result is the number of those who were served. The entry of the room
goes with its last member, and nothing outside of the room changes. Without an entry nothing happens
at all. The result and the hub are the same for every order. -/
theorem broadcast_exact {h : Hub} (hr : h.Reachable) (room : String) (e : Envelope)
    (exclude : Option Uuid) {order : List Uuid} (hp : order.Perm (h.members room)) :
    let after := (h.broadcastIn order room e exclude).2
    (∀ id ∈ h.members room, ∃ c, h.connection? id = some c ∧
      if exclude = some id ∨ c.state = .closed then
        after.connection? id = some c ∧ id ∈ after.members room
      else if c.hasReceiver = true ∧ c.queue.length < c.capacity then
        after.connection? id = some { c with queue := c.queue ++ [e] } ∧ id ∈ after.members room
      else
        after.connection? id = some { c with life := ⟨.closed, 1013⟩, hasSender := false } ∧
          ∀ room', id ∉ after.members room') ∧
    ((h.broadcastIn order room e exclude).1 =
      (h.members room).countP fun id => after.queue id = h.queue id ++ [e]) ∧
    (h.members room ≠ [] → (after.rooms.get? room = none ↔ after.members room = [])) ∧
    (after.members room).Sublist (h.members room) ∧
    (∀ id, id ∉ h.members room → after.connection? id = h.connection? id) ∧
    (∀ room', room' ≠ room → after.rooms.get? room' = h.rooms.get? room') ∧
    (h.rooms.get? room = none → h.broadcastIn order room e exclude = (0, h)) ∧
    h.broadcastIn order room e exclude = h.broadcast room e exclude := by
  intro after
  obtain ⟨hw, hd⟩ := hr.invariant
  obtain ⟨-, hconn, hmem, -⟩ := broadcastIn_effect e exclude hp (hw.nodup room)
  obtain ⟨hgone, hothers⟩ := rooms_broadcastIn hw e exclude hp
  refine ⟨fun id hin => ?_, count_broadcastIn hw e exclude hp, hgone, ?_, fun id hout => ?_,
    hothers, fun hnone => ?_, broadcastIn_congr hw e exclude hp hd⟩
  · obtain ⟨c, hid, -⟩ := hw.entered hin
    exact ⟨c, hid, member_broadcastIn hw e exclude hp hin hid⟩
  · rw [hmem room, if_pos rfl]
    exact List.filter_sublist
  · refine (hconn id).trans ?_
    simp [hout]
  · have hnobody : h.members room = [] := by
      unfold members
      rw [hnone]
      rfl
    rw [hnobody] at hp
    rw [hp.eq_nil]
    rfl

/-- Five members of a room after a first envelope: the queue of the second is full, the third has
lost its receiver, and the queue of the fifth is full too. -/
def mixedOps : List Operation :=
  [.openConnection ⟨1⟩ ⟨"u1", "Ada"⟩ "lab" 2, .openConnection ⟨2⟩ ⟨"u2", "Bob"⟩ "lab" 1,
    .openConnection ⟨3⟩ ⟨"u3", "Eve"⟩ "lab" 2, .openConnection ⟨4⟩ ⟨"u4", "Kim"⟩ "lab" 2,
    .openConnection ⟨5⟩ ⟨"u5", "Lou"⟩ "lab" 1, .join ⟨1⟩ "lab" true, .join ⟨2⟩ "lab" true,
    .join ⟨3⟩ "lab" true, .join ⟨4⟩ "lab" true, .join ⟨5⟩ "lab" true,
    .broadcast "lab" ⟨"lab", "first", "u0", "Bot", .zero⟩ none, .dropReceiver ⟨3⟩]

/-- The fourth member is closed, and still in the room. -/
def mixedRoom : Hub := (empty.run mixedOps).half (.close ⟨4⟩ CloseCode.normal)

theorem broadcast_exact_mixed :
    let e : Envelope := ⟨"lab", "second", "u0", "Bot", .zero⟩
    let r := mixedRoom.broadcastIn [⟨4⟩, ⟨2⟩, ⟨5⟩, ⟨1⟩, ⟨3⟩] "lab" e (some ⟨5⟩)
    mixedRoom.Reachable ∧ r = mixedRoom.broadcast "lab" e (some ⟨5⟩) ∧ r.1 = 1 ∧
    r.2.members "lab" = [⟨1⟩, ⟨4⟩, ⟨5⟩] ∧ r.2.rooms.get? "lab" ≠ none ∧
    r.2.queue ⟨1⟩ = mixedRoom.queue ⟨1⟩ ++ [e] ∧ r.2.queue ⟨5⟩ = mixedRoom.queue ⟨5⟩ ∧
    (r.2.connection? ⟨2⟩).map (·.closeCode) = some 1013 ∧
    (r.2.connection? ⟨3⟩).map (·.closeCode) = some 1013 := by
  intro e r
  have hreach : mixedRoom.Reachable := by
    have hrun : (empty.run mixedOps).Reachable := Reachable.empty.run (by decide)
    exact hrun.half _
  obtain ⟨-, hcount, hgone, -, -, -, -, hsame⟩ :=
    @broadcast_exact mixedRoom hreach "lab" e (some ⟨5⟩) [⟨4⟩, ⟨2⟩, ⟨5⟩, ⟨1⟩, ⟨3⟩] (by decide)
  have hleft : r.2.members "lab" = [⟨1⟩, ⟨4⟩, ⟨5⟩] := by decide
  refine ⟨hreach, hsame, hcount.trans (by decide), hleft, fun hnone => ?_, by decide, by decide,
    by decide, by decide⟩
  have hnobody := (hgone (by decide)).mp hnone
  rw [hleft] at hnobody
  cases hnobody

end Hub

end ChatRooms

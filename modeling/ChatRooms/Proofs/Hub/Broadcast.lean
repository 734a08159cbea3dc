import Mathlib.Data.List.Nodup
import Mathlib.Data.List.Perm.Basic
import ChatRooms.Proofs.Hub.Effects

/-!
What a broadcast does, whatever the order in which it serves the members of its room. Each member
but the excluded one is offered the envelope: a member that can take it has it at the end of its
queue, and one that cannot is closed and removed. `broadcastIn_effect` says so for the result, for
every connection and for the members of every room.
-/

namespace ChatRooms

/-- A connection after an envelope has been offered to it. -/
def Connection.offered (c : Connection) (e : Envelope) : Connection :=
  if c.state = .closed then c
  else if c.accepts then c.push e
  else (c.closed CloseCode.tryAgainLater).withoutSender

theorem Connection.ages_offered (c : Connection) (e : Envelope) : c.Ages (c.offered e) := by
  unfold Connection.offered
  split
  · exact Ages.refl c
  · split
    · rename_i ha
      exact ages_push ha e
    · exact (c.ages_closed _).trans (ages_withoutSender _)

namespace Hub

/-- The connection can take an envelope that is not kept from it. -/
def takes (h : Hub) (exclude : Option Uuid) (id : Uuid) : Bool :=
  (h.connection? id).any fun c => exclude ≠ some id && c.state ≠ .closed && c.accepts

/-- The connection cannot take an envelope that is not kept from it. -/
def refuses (h : Hub) (exclude : Option Uuid) (id : Uuid) : Bool :=
  (h.connection? id).any fun c => exclude ≠ some id && c.state ≠ .closed && !c.accepts

theorem takes_of_connection? {h h' : Hub} {id : Uuid}
    (e : h'.connection? id = h.connection? id) (exclude : Option Uuid) :
    h'.takes exclude id = h.takes exclude id ∧ h'.refuses exclude id = h.refuses exclude id := by
  unfold takes refuses
  rw [e]
  exact ⟨rfl, rfl⟩

/-! ### Delivery -/

section Deliver

variable (e : Envelope) (exclude : Option Uuid)

theorem deliver_eq (d : Delivery) (id : Uuid) :
    deliver e exclude d id =
      ⟨if d.hub.takes exclude id then d.hub.update id (·.push e) else d.hub,
        if d.hub.takes exclude id then d.delivered + 1 else d.delivered,
        if d.hub.refuses exclude id then d.failed ++ [id] else d.failed⟩ := by
  unfold deliver takes refuses
  cases d.hub.connection? id with
  | none => simp
  | some c =>
    by_cases hx : exclude = some id
    · simp [hx]
    · by_cases hc : c.state = .closed
      · simp [hc]
      · by_cases ha : c.accepts = true <;> simp [hx, hc, ha]

/-- What serving some connections, each once, adds up to. -/
theorem foldl_deliver {order : List Uuid} (hn : order.Nodup) (d : Delivery) :
    let d' := order.foldl (deliver e exclude) d
    d'.hub.rooms = d.hub.rooms ∧
    d'.delivered = d.delivered + order.countP (d.hub.takes exclude) ∧
    d'.failed = d.failed ++ order.filter (d.hub.refuses exclude) ∧
    ∀ id, d'.hub.connection? id = (d.hub.connection? id).map fun c =>
      if id ∈ order ∧ d.hub.takes exclude id then c.push e else c := by
  induction order generalizing d with
  | nil => simp
  | cons a order ih =>
    obtain ⟨ha, hn⟩ := List.nodup_cons.mp hn
    obtain ⟨hrooms, hcount, hfailed, hconn⟩ := ih hn (deliver e exclude d a)
    -- serving `a` does not change what the others take
    have hother : ∀ id, id ≠ a → (deliver e exclude d a).hub.connection? id =
        d.hub.connection? id := by
      intro id hid
      rw [deliver_eq]
      dsimp only
      split
      · rw [connection?_update, if_neg (Ne.symm hid)]
      · rfl
    have htakes : ∀ id ∈ order, (deliver e exclude d a).hub.takes exclude id =
        d.hub.takes exclude id ∧ (deliver e exclude d a).hub.refuses exclude id =
        d.hub.refuses exclude id := fun id hid =>
      takes_of_connection? (hother id fun h => ha (h ▸ hid)) exclude
    rw [List.countP_congr fun id hid => by rw [(htakes id hid).1]] at hcount
    rw [List.filter_congr fun id hid => by rw [(htakes id hid).2]] at hfailed
    refine ⟨?_, ?_, ?_, fun id => ?_⟩
    · rw [List.foldl_cons, hrooms, deliver_eq]
      dsimp only
      split <;> rfl
    · rw [List.foldl_cons, hcount, deliver_eq, List.countP_cons]
      dsimp only
      split <;> omega
    · rw [List.foldl_cons, hfailed, deliver_eq, List.filter_cons]
      dsimp only
      split <;> simp
    · rw [List.foldl_cons, hconn]
      by_cases hid : id = a
      · subst hid
        rw [deliver_eq]
        dsimp only
        by_cases ht : d.hub.takes exclude id = true
        · simp [ha, ht, connection?_update, Function.comp_def]
        · simp [ha, ht]
      · rw [hother id hid, takes_of_connection? (hother id hid) exclude |>.1]
        simp [hid]

end Deliver

/-! ### Removal of those that could not take the envelope -/

theorem evict_eq (room : String) {h : Hub} {id : Uuid} {c : Connection}
    (hid : h.connection? id = some c) (hc : c.state ≠ .closed) :
    evict room h id = ((h.update id (·.closed CloseCode.tryAgainLater)).leave room id).2 := by
  unfold evict
  rw [hid]
  exact if_neg hc

/-- What removing some members of a room, none of them closed yet, adds up to. -/
theorem foldl_evict (room : String) (ids : List Uuid) (hn : ids.Nodup) (h : Hub)
    (hmn : (h.members room).Nodup) (hm : ∀ id ∈ ids, id ∈ h.members room)
    (ho : ∀ id ∈ ids, ∃ c, h.connection? id = some c ∧ c.state ≠ .closed) :
    let h' := ids.foldl (evict room) h
    (∀ id, h'.connection? id = (h.connection? id).map fun c =>
      if id ∈ ids then (c.closed CloseCode.tryAgainLater).withoutSender else c) ∧
    (∀ room', h'.members room' =
      if room' = room then (h.members room).filter (· ∉ ids) else h.members room') ∧
    ((∀ room', h.isRetired room' = false) → ∀ room', h'.isRetired room' = false) := by
  induction ids generalizing h with
  | nil =>
    refine ⟨fun id => by simp, fun room' => ?_, fun hr => hr⟩
    by_cases e : room' = room
    · subst e
      simp
    · simp [e]
  | cons a ids ih =>
    obtain ⟨ha, hn⟩ := List.nodup_cons.mp hn
    obtain ⟨c, hc, hopen⟩ := ho a List.mem_cons_self
    have hin : a ∈ h.members room := hm a List.mem_cons_self
    have hmem : ∀ room', (evict room h a).members room' =
        if room' = room then (h.members room).erase a else h.members room' := by
      intro room'
      rw [evict_eq room hc hopen, members_leave]
      rfl
    have hconn : ∀ id, (evict room h a).connection? id = (h.connection? id).map fun c =>
        if id = a then (c.closed CloseCode.tryAgainLater).withoutSender else c := by
      intro id
      rw [evict_eq room hc hopen, connection?_leave, connection?_update, members_update]
      by_cases e : a = id
      · subst e
        simp [hin, Function.comp_def]
      · simp [e, Ne.symm e]
    obtain ⟨h1, h2, h3⟩ := ih hn (evict room h a)
      (by rw [hmem, if_pos rfl]; exact hmn.erase a)
      (fun id hid => by
        rw [hmem, if_pos rfl]
        exact (List.mem_erase_of_ne fun (e : id = a) => ha (e ▸ hid)).mpr
          (hm id (List.mem_cons_of_mem _ hid)))
      (fun id hid => by
        rw [hconn]
        obtain ⟨c', hc', ho'⟩ := ho id (List.mem_cons_of_mem _ hid)
        have e : id ≠ a := fun e => ha (e ▸ hid)
        exact ⟨c', by simp [hc', e], ho'⟩)
    refine ⟨fun id => ?_, fun room' => ?_, fun hr => h3 ?_⟩
    · rw [List.foldl_cons, h1, hconn, Option.map_map]
      congr 1
      funext c'
      by_cases e : id = a
      · subst e
        simp [ha]
      · simp [e]
    · rw [List.foldl_cons, h2]
      by_cases e : room' = room
      · subst e
        rw [if_pos rfl, if_pos rfl, hmem, if_pos rfl, hmn.erase_eq_filter, List.filter_filter]
        refine List.filter_congr fun id _ => ?_
        by_cases e : id = a <;> simp [e]
      · rw [if_neg e, if_neg e, hmem, if_neg e]
    · rw [evict_eq room hc hopen]
      exact isRetired_leave (h := h.update a (·.closed CloseCode.tryAgainLater)) hr _ _

/-! ### The whole broadcast -/

section Broadcast

variable {h : Hub} {room : String} {order : List Uuid} (e : Envelope) (exclude : Option Uuid)
  (hp : order.Perm (h.members room)) (hn : (h.members room).Nodup)

include hp hn

/-- The three sides of a broadcast in one. -/
theorem broadcastIn_effect :
    let r := h.broadcastIn order room e exclude
    r.1 = (h.members room).countP (h.takes exclude) ∧
    (∀ id, r.2.connection? id = (h.connection? id).map fun c =>
      if id ∈ h.members room ∧ exclude ≠ some id then c.offered e else c) ∧
    (∀ room', r.2.members room' =
      if room' = room then (h.members room).filter (!h.refuses exclude ·) else h.members room') ∧
    ((∀ room', h.isRetired room' = false) → ∀ room', r.2.isRetired room' = false) := by
  obtain ⟨hrooms, hcount, hfailed, hconn⟩ :=
    foldl_deliver e exclude (hp.nodup_iff.mpr hn) ⟨h, 0, []⟩
  set d := order.foldl (deliver e exclude) ⟨h, 0, []⟩ with hd
  dsimp only at hrooms hcount hfailed hconn
  rw [Nat.zero_add] at hcount
  rw [List.nil_append] at hfailed
  have hmem : ∀ id, id ∈ d.failed ↔ id ∈ h.members room ∧ h.refuses exclude id = true := by
    intro id
    rw [hfailed, List.mem_filter, hp.mem_iff]
  have hmembers : ∀ room', d.hub.members room' = h.members room' :=
    fun room' => members_of_rooms hrooms room'
  obtain ⟨h1, h2, h3⟩ := foldl_evict room d.failed
    (hfailed ▸ (hp.nodup_iff.mpr hn).filter _) d.hub ((hmembers room).symm ▸ hn)
    (fun id hid => (hmembers room).symm ▸ ((hmem id).mp hid).1)
    (fun id hid => by
      obtain ⟨c, hc, hr⟩ := (Option.any_eq_true _ _).mp ((hmem id).mp hid).2
      have ht : h.takes exclude id = false := by
        unfold takes
        rw [hc]
        simp_all
      exact ⟨c, by simp [hconn, hc, ht], by simp_all⟩)
  refine ⟨?_, fun id => ?_, fun room' => ?_, fun hr => ?_⟩
  · exact hcount.trans (hp.countP_eq _)
  · refine (h1 id).trans ?_
    rw [hconn id, Option.map_map]
    cases hid : h.connection? id with
    | none => rfl
    | some c =>
      rw [Option.map_some, Option.map_some]
      congr 1
      have hf := hmem id
      unfold refuses at hf
      unfold takes
      rw [hid] at hf ⊢
      simp only [hp.mem_iff] at hf ⊢
      unfold Connection.offered
      by_cases hin : id ∈ h.members room
      · by_cases hx : exclude = some id
        · simp_all
        · by_cases hc : c.state = .closed
          · simp_all
          · by_cases ha : c.accepts = true <;> simp_all
      · simp_all
  · refine (h2 room').trans ?_
    rw [hmembers, hmembers]
    by_cases er : room' = room
    · rw [if_pos er, if_pos er]
      refine List.filter_congr fun id hid => ?_
      have hf := hmem id
      by_cases hr : h.refuses exclude id = true <;> simp_all
    · rw [if_neg er, if_neg er]
  · exact h3 (fun room' => (isRetired_of_rooms hrooms room').trans (hr room'))

end Broadcast

section Members

variable {h : Hub} {room : String} (hn : (h.members room).Nodup) (e : Envelope)
  (exclude : Option Uuid)

include hn

theorem connection?_broadcast (id : Uuid) :
    (h.broadcast room e exclude).2.connection? id = (h.connection? id).map fun c =>
      if id ∈ h.members room ∧ exclude ≠ some id then c.offered e else c :=
  (broadcastIn_effect e exclude (List.Perm.refl _) hn).2.1 id

theorem members_broadcast (room' : String) :
    (h.broadcast room e exclude).2.members room' =
      if room' = room then (h.members room).filter (!h.refuses exclude ·)
      else h.members room' :=
  (broadcastIn_effect e exclude (List.Perm.refl _) hn).2.2.1 room'

theorem isRetired_broadcast (hr : ∀ room, h.isRetired room = false) (room' : String) :
    (h.broadcast room e exclude).2.isRetired room' = false :=
  (broadcastIn_effect e exclude (List.Perm.refl _) hn).2.2.2 hr room'

end Members

end Hub

end ChatRooms

import ChatRooms.Proofs.Hub.Effects
import Mathlib.Data.List.Induction

/-!
The life of a connection under any calls. The cells answer as the life that is read from them
(`step_cells`), though a close exchanges the state whatever it was. After any calls on a fresh life,
whether one of them was a close, and which was the first, is all that can still be told of them
(`after_fresh`).
-/

namespace ChatRooms

namespace ConnectionState

@[simp] theorem ofByte_toByte (s : ConnectionState) : ofByte s.toByte = s := by
  cases s <;> rfl

end ConnectionState

namespace Lifecycle

/-! ### The cells -/

@[simp] theorem life_cells (l : Lifecycle) : l.cells.life = l := by
  rw [cells, Cells.life, ConnectionState.ofByte_toByte]

theorem step_cells (l : Lifecycle) (call : Call) :
    l.cells.step call = ((l.step call).1, (l.step call).2.cells) := by
  obtain ⟨state, closeCode⟩ := l
  cases call <;> cases state <;> rfl

theorem run_cons (l : Lifecycle) (call : Call) (calls : List Call) :
    l.run (call :: calls) = l.step call :: (l.step call).2.run calls := by
  rw [run, Cells.run, step_cells, life_cells]
  rfl

/-! ### After any calls -/

/-- The life after calls. -/
def after (l : Lifecycle) (calls : List Call) : Lifecycle :=
  calls.foldl (fun l call => (l.step call).2) l

theorem after_append_singleton (l : Lifecycle) (calls : List Call) (call : Call) :
    l.after (calls ++ [call]) = ((l.after calls).step call).2 := by
  rw [after, List.foldl_append]
  rfl

/-- The code of a close. -/
def Call.code? : Call → Option UInt16
  | .join => none
  | .close code => some code

/-- The code of the first close. -/
def firstClose? (calls : List Call) : Option UInt16 := calls.findSome? Call.code?

theorem firstClose?_append_singleton (calls : List Call) (call : Call) :
    firstClose? (calls ++ [call]) = (firstClose? calls).or call.code? := by
  simp [firstClose?, List.findSome?_append]

/-- Each answer, and the life after it, is that of a step from the life after the calls before. -/
theorem getElem?_run (l : Lifecycle) (calls : List Call) (i : Nat) :
    (l.run calls)[i]? = calls[i]?.map (l.after (calls.take i)).step := by
  induction calls generalizing l i with
  | nil => rfl
  | cons call calls ih =>
    rw [run_cons]
    cases i with
    | zero => rfl
    | succ i => exact ih (l.step call).2 i

/-- The lives before the first call and after each. -/
theorem getElem?_lives (l : Lifecycle) {calls : List Call} {i : Nat} (hi : i ≤ calls.length) :
    (l :: (l.run calls).map Prod.snd)[i]? = some (l.after (calls.take i)) := by
  induction calls generalizing l i with
  | nil =>
    rw [Nat.le_zero.mp hi]
    rfl
  | cons call calls ih =>
    cases i with
    | zero => rfl
    | succ i =>
      rw [run_cons, List.getElem?_cons_succ]
      exact ih (l.step call).2 (Nat.le_of_succ_le_succ hi)

theorem length_run (l : Lifecycle) (calls : List Call) : (l.run calls).length = calls.length := by
  induction calls generalizing l with
  | nil => rfl
  | cons call calls ih => rw [run_cons, List.length_cons, ih, List.length_cons]

theorem after_fresh (calls : List Call) :
    fresh.after calls =
      match firstClose? calls with
      | some code => ⟨.closed, code⟩
      | none => ⟨if calls = [] then .connecting else .joined, CloseCode.normal⟩ := by
  induction calls using List.reverseRecOn with
  | nil => rfl
  | append_singleton calls call ih =>
    rw [after_append_singleton, ih, firstClose?_append_singleton]
    cases firstClose? calls with
    | some code => cases call <;> rfl
    | none =>
      by_cases hcalls : calls = [] <;> cases call <;>
        simp [hcalls, step, join?, closed, close?, Call.code?]

theorem closeCode_after (calls : List Call) :
    (fresh.after calls).closeCode = (firstClose? calls).getD CloseCode.normal := by
  rw [after_fresh]
  cases firstClose? calls <;> rfl

theorem state_after_eq_closed_iff (calls : List Call) :
    (fresh.after calls).state = .closed ↔ (firstClose? calls).isSome = true := by
  rw [after_fresh]
  cases firstClose? calls with
  | some code => simp
  | none => by_cases hcalls : calls = [] <;> simp [hcalls]

/-- A join is answered as the first call only. -/
theorem join_after (calls : List Call) :
    ((fresh.after calls).step .join).1 = true ↔ calls = [] := by
  rw [step, join?_isSome_iff, after_fresh]
  cases hfirst : firstClose? calls with
  | some code =>
    refine iff_of_false (by simp) ?_
    rintro rfl
    cases hfirst
  | none => by_cases hcalls : calls = [] <;> simp [hcalls]

/-- A close is answered if there has been none before. -/
theorem close_after (calls : List Call) (code : UInt16) :
    ((fresh.after calls).step (.close code)).1 = true ↔ firstClose? calls = none := by
  have hclosed := state_after_eq_closed_iff calls
  by_cases hstate : (fresh.after calls).state = .closed
  · simp [step, close?, hstate, Option.isSome_iff_ne_none.mp (hclosed.mp hstate)]
  · have hnone := mt hclosed.mpr hstate
    simpa [step, close?, hstate] using hnone

/-! ### Forward only -/

theorem state_le_step (l : Lifecycle) (call : Call) :
    l.state.toByte ≤ (l.step call).2.state.toByte := by
  cases call <;> cases hstate : l.state <;>
    simp [step, join?, closed, close?, hstate, ConnectionState.toByte]

theorem pairwise_states (l : Lifecycle) (calls : List Call) :
    ((l :: (l.run calls).map Prod.snd).map fun l => l.state.toByte).Pairwise (· ≤ ·) := by
  have : Trans (α := UInt8) (· ≤ ·) (· ≤ ·) (· ≤ ·) := ⟨UInt8.le_trans⟩
  rw [← List.isChain_iff_pairwise]
  induction calls generalizing l with
  | nil => exact .singleton _
  | cons call calls ih =>
    rw [run_cons]
    exact .cons_cons (state_le_step l call) (ih (l.step call).2)

/-! ### Closing a connection -/

/-- Closing a connection answers as the call on its life does, and leaves it that life; it reaches
the room exactly if it wins. -/
theorem close_connection {h : Hub} {id : Uuid} {c : Connection} (hid : h.connection? id = some c)
    (code : UInt16) :
    let answer := (c.life.step (.close code)).1
    h.close id code =
      (answer, if answer then ((h.update id (·.closed code)).leave c.room id).2 else h) ∧
    ((h.close id code).2.connection? id).map (·.life) = some (c.life.step (.close code)).2 := by
  by_cases hc : c.state = .closed
  · have hanswer : c.life.close? code = none := if_pos hc
    rw [Hub.close_of_closed hid hc, hid]
    simp [step, hanswer, closed]
  · have hanswer : c.life.close? code = some ⟨.closed, code⟩ := if_neg hc
    rw [Hub.connection?_close hid hc, Hub.close_of_open hid hc, hid]
    by_cases hm : id ∈ h.members c.room <;>
      simp [step, hanswer, hm, Connection.closed, Connection.withoutSender]

/-- **The first close wins.** Make any calls on a fresh life. It only goes forward, from connecting
over joined to closed. A join is answered as the first call and never else, a close if there has
been none before. The code is the normal one until then and that of the first close ever after. A
close of a connection with this life answers like the call, leaves the connection the life after it,
and takes it out of its room exactly if it wins. -/
theorem first_close_wins (calls : List Call) :
    let rows := fresh.run calls
    let lives := fresh :: rows.map Prod.snd
    rows.length = calls.length ∧
    (lives.map fun l => l.state.toByte).Pairwise (· ≤ ·) ∧
    (∀ i ≤ calls.length, lives[i]?.map Lifecycle.closeCode =
      some ((firstClose? (calls.take i)).getD CloseCode.normal)) ∧
    ∀ i (call : Call), calls[i]? = some call → ∃ before answer after,
      lives[i]? = some before ∧ rows[i]? = some (answer, after) ∧
      (call = .join → (answer = true ↔ i = 0)) ∧
      ∀ code, call = .close code → (answer = true ↔ firstClose? (calls.take i) = none) ∧
        ∀ (h : Hub) id c, h.connection? id = some c → c.life = before →
          h.close id code =
            (answer, if answer then ((h.update id (·.closed code)).leave c.room id).2 else h) ∧
          ((h.close id code).2.connection? id).map (·.life) = some after := by
  intro rows lives
  refine ⟨length_run fresh calls, pairwise_states fresh calls, fun i hi => ?_,
    fun i call hcall => ?_⟩
  · rw [getElem?_lives fresh hi, Option.map_some, closeCode_after]
  · obtain ⟨hi, -⟩ := List.getElem?_eq_some_iff.mp hcall
    have hrow := getElem?_run fresh calls i
    rw [hcall] at hrow
    refine ⟨fresh.after (calls.take i), _, _, getElem?_lives fresh (Nat.le_of_lt hi), hrow, ?_, ?_⟩
    · rintro rfl
      have hcalls : calls ≠ [] := List.ne_nil_of_length_pos (by omega)
      refine (join_after (calls.take i)).trans ?_
      rw [List.take_eq_nil_iff, or_iff_left hcalls]
    · rintro code rfl
      refine ⟨close_after (calls.take i) code, fun h id c hid hlife => ?_⟩
      rw [← hlife]
      exact close_connection hid code

/-- A connection that has joined is closed twice. -/
theorem first_close_wins_twice :
    let calls : List Call := [.join, .close 4000, .close CloseCode.normal]
    let h := (Hub.empty.openConnection ⟨1⟩ ⟨"u1", "Ada"⟩ "lab" 1).joined "lab" ⟨1⟩
    (fresh.run calls).map (fun row => (row.1, row.2.closeCode)) =
      [(true, CloseCode.normal), (true, 4000), (false, 4000)] ∧
    h.close ⟨1⟩ 4000 = (true, ((h.update ⟨1⟩ (·.closed 4000)).leave "lab" ⟨1⟩).2) ∧
    (h.close ⟨1⟩ 4000).2.close ⟨1⟩ CloseCode.normal = (false, (h.close ⟨1⟩ 4000).2) := by
  intro calls h
  obtain ⟨-, -, -, hcalls⟩ := first_close_wins calls
  obtain ⟨before, answer, after, hbefore, hrow, -, hclose⟩ := hcalls 1 (.close 4000) rfl
  obtain ⟨before', answer', after', hbefore', hrow', -, hclose'⟩ :=
    hcalls 2 (.close CloseCode.normal) rfl
  cases hbefore
  cases hrow
  cases hbefore'
  cases hrow'
  refine ⟨by decide, ((hclose 4000 rfl).2 h ⟨1⟩ _ rfl rfl).1, ?_⟩
  exact ((hclose' CloseCode.normal rfl).2 (h.close ⟨1⟩ 4000).2 ⟨1⟩ _ rfl rfl).1

end Lifecycle

end ChatRooms

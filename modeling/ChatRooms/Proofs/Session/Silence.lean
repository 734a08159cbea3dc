import ChatRooms.Proofs.Session.ReadLoop
import Mathlib.Data.List.Chain

/-!
How long the silence of a client is borne. However late the turns of the reading side are, a
connection is never given up before the silence has lasted its time (`Timed`); if every turn is
taken when it is due, it is given up then (`Punctual`). What goes out to the client meanwhile leaves
the timer alone (`State.view`).
-/

namespace ChatRooms.ReadLoop

open ChatRooms.Session ChatRooms.Time
open ReadLoop.State

/-! ### The timer -/

/-- What holds of the timer after the times at which something has come. As long as something waits
to be handled the connection is not given up, and else not before the silence has been borne. -/
structure Timed (s₀ : State) (heard : List Nat) (s : State) : Prop where
  valid : s.Valid
  id : s.session.id = s₀.session.id
  idleTimeout : s.idleTimeout = s₀.idleTimeout
  lastHeard : heard.getLastD s₀.clock ≤ s.clock
  idleAt : s.isReading = true → s.inbox = [] →
    heard.getLastD s₀.clock + s₀.idleTimeout ≤ s.idleAt

namespace Timed

variable {s₀ s s' : State} {heard : List Nat} (ht : Timed s₀ heard s)

include ht

/-- The timer is set again from the present, which is no earlier than the last frame. -/
theorem idleAt_handled {now : Instant} {e : Event} (hreading : (s.handled now e).isReading = true) :
    heard.getLastD s₀.clock + s₀.idleTimeout ≤ (s.handled now e).idleAt := by
  have hheard := ht.lastHeard
  have hsame := ht.idleTimeout
  rw [isReading_handled] at hreading
  rw [handled_eq]
  simp only [hreading, if_true]
  omega

theorem act {a : Action} (ha : s.act a = some s') :
    Timed s₀ (heard ++ (sign? ⟨s, a, s'⟩).toList) s' := by
  have hvalid := ht.valid.act ha
  cases a with
  | elapse millis =>
    obtain rfl := act_elapse ha
    rw [sign?_elapse, Option.toList_none, List.append_nil]
    exact ⟨hvalid, ht.id, ht.idleTimeout, Nat.le_trans ht.lastHeard (Nat.le_add_right _ _),
      ht.idleAt⟩
  | arrive e =>
    obtain ⟨-, rfl⟩ := act_arrive ha
    refine ⟨hvalid, ht.id, ht.idleTimeout, ?_, fun _ hinbox => absurd hinbox (by simp)⟩
    rw [sign?_arrive]
    cases e.isFrame with
    | true => simp
    | false => simpa using ht.lastHeard
  | turn now =>
    rw [sign?_turn, Option.toList_none, List.append_nil]
    obtain ⟨-, rfl⟩ | ⟨e, -, rfl⟩ := act_turn ha
    · exact ht
    · refine ⟨hvalid, ?_, ?_, ?_, fun hreading _ => ht.idleAt_handled hreading⟩
      · rw [handled_eq]
        exact ht.id
      · rw [handled_eq]
        exact ht.idleTimeout
      · rw [handled_eq]
        exact ht.lastHeard
  | aside a =>
    rw [sign?_aside, Option.toList_none, List.append_nil]
    have hbefore := isReading_of_act ha
    obtain ⟨-, session, hsession, rfl⟩ := act_aside ha
    exact ⟨hvalid, (Session.State.act_same hsession).1.trans ht.id, ht.idleTimeout, ht.lastHeard,
      fun hreading => ht.idleAt (hbefore hreading)⟩

end Timed

theorem Timed.run {s₀ s : State} (h₀ : Timed s₀ [] s₀) {acts : List Action}
    (hrun : s₀.run acts = some s) : Timed s₀ (signs s₀ acts) s := by
  refine Schedule.run_induction (P := fun acts s => Timed s₀ (signs s₀ acts) s) h₀ ?_ hrun
  intro acts s₁ a s₂ hrun ht ha
  rw [signs_append_singleton hrun ha]
  exact ht.act ha

/-- One more time behind others. -/
theorem isChain_append_singleton {R : Nat → Nat → Prop} {x t : Nat} {xs : List Nat} :
    (x :: xs ++ [t]).IsChain R ↔ (x :: xs).IsChain R ∧ R (xs.getLastD x) t := by
  rw [List.isChain_append]
  simp [List.getLast?_cons, List.getLastD_eq_getLast?]

/-! #### Not too early -/

/-- What holds besides as long as every turn is taken when it is due: a frame that waits has come
just now, and no silence has lasted too long. -/
structure Punctual (s₀ : State) (heard : List Nat) (s : State) : Prop where
  idleAt : s.idleAt ≤ heard.getLastD s₀.clock + s₀.idleTimeout
  clock : s.clock ≤ s.idleAt
  inbox : ∀ e ∈ s.inbox, e.isFrame = true → s.clock = heard.getLastD s₀.clock
  silences : (s₀.clock :: heard ++ [s.clock]).IsChain fun t t' => t' ≤ t + s₀.idleTimeout

namespace Punctual

variable {s₀ s s' : State} {heard : List Nat} (hp : Punctual s₀ heard s) (ht : Timed s₀ heard s)

include hp

/-- Time has passed, but not more than to the end of patience. -/
theorem of_elapse {millis : Nat} (hinbox : s.inbox = []) (hwithin : s.clock + millis ≤ s.idleAt) :
    Punctual s₀ heard { s with clock := s.clock + millis } := by
  have hdue := hp.idleAt
  refine ⟨hdue, hwithin, by simp [hinbox], ?_⟩
  rw [isChain_append_singleton]
  refine ⟨hp.silences.left_of_append, ?_⟩
  dsimp only
  omega

include ht

theorem handled {e : Event} (hnext : s.next? = some e) {now : Instant}
    (hreading : (s.handled now e).isReading = true) : Punctual s₀ heard (s.handled now e) := by
  rw [isReading_handled] at hreading
  have hframe := isFrame_of_read hreading
  obtain ⟨-, ⟨rest, hinbox⟩ | ⟨-, rfl, -⟩⟩ := next?_eq_some hnext
  · have hpresent := hp.inbox e (by simp [hinbox]) hframe
    have hsame := ht.idleTimeout
    rw [handled_eq]
    simp only [hreading, if_true]
    refine ⟨?_, Nat.le_add_right _ _, fun e' he' => hp.inbox e' (List.mem_of_mem_tail he'),
      hp.silences⟩
    dsimp only
    omega
  · cases hframe

theorem act {a : Action} (ha : s.act a = some s') (hpunctual : isPunctual ⟨s, a, s'⟩ = true)
    (hreading : s'.isReading = true) :
    Punctual s₀ (heard ++ (sign? ⟨s, a, s'⟩).toList) s' := by
  have hbefore := isReading_of_act ha hreading
  cases a with
  | elapse millis =>
    obtain rfl := act_elapse ha
    rw [sign?_elapse, Option.toList_none, List.append_nil]
    simp only [isPunctual, hbefore, Bool.not_true, Bool.false_or, Bool.and_eq_true,
      List.isEmpty_iff, decide_eq_true_eq] at hpunctual
    exact hp.of_elapse hpunctual.1 hpunctual.2
  | arrive e =>
    obtain ⟨-, rfl⟩ := act_arrive ha
    have hdue := hp.idleAt
    have hheard := ht.lastHeard
    rw [sign?_arrive]
    cases hframe : e.isFrame with
    | true =>
      rw [if_pos rfl]
      refine ⟨?_, hp.clock, fun e' _ _ => by simp, ?_⟩
      · rw [List.getLastD_concat]
        dsimp only
        omega
      · rw [isChain_append_singleton]
        exact ⟨hp.silences, by simp⟩
    | false =>
      rw [if_neg Bool.false_ne_true, List.append_nil]
      refine ⟨hdue, hp.clock, fun e' he' hframe' => ?_, hp.silences⟩
      rcases List.mem_append.mp he' with he' | he'
      · exact hp.inbox e' he' hframe'
      · rw [List.mem_singleton.mp he', hframe] at hframe'
        cases hframe'
  | turn now =>
    rw [sign?_turn, Option.toList_none, List.append_nil]
    obtain ⟨-, rfl⟩ | ⟨e, hnext, rfl⟩ := act_turn ha
    · exact hp
    · exact hp.handled ht hnext hreading
  | aside a =>
    obtain ⟨-, session, -, rfl⟩ := act_aside ha
    rw [sign?_aside, Option.toList_none, List.append_nil]
    exact ⟨hp.idleAt, hp.clock, hp.inbox, hp.silences⟩

end Punctual

theorem Punctual.run {s₀ s : State} (hp₀ : Punctual s₀ [] s₀) (h₀ : Timed s₀ [] s₀)
    {acts : List Action} (hrun : s₀.run acts = some s) :
    IsPunctual s₀ acts → s.isReading = true → Punctual s₀ (signs s₀ acts) s := by
  refine Schedule.run_induction (P := fun acts s =>
    IsPunctual s₀ acts → s.isReading = true → Punctual s₀ (signs s₀ acts) s)
    (fun _ _ => hp₀) ?_ hrun
  intro acts s₁ a s₂ hrun ih ha hpunctual hreading
  rw [isPunctual_append_singleton hrun ha] at hpunctual
  rw [signs_append_singleton hrun ha]
  have hp := ih hpunctual.1 (isReading_of_act ha hreading)
  exact hp.act (h₀.run hrun) ha hpunctual.2 hreading

section Steps

variable {s s' s₁ s₁' : State} {a : Action}

end Steps

instance (s : State) (acts : List Action) : Decidable (IsPunctual s acts) :=
  inferInstanceAs (Decidable (∀ st ∈ Schedule.steps State.act s acts, isPunctual st = true))

/-- A session that has just joined, with place for one message. -/
def joined : Session.State :=
  { Session.State.opened .empty ⟨1⟩ ⟨"u1", "Ada"⟩ "lab" 1 with
    hub := (Hub.empty.openConnection ⟨1⟩ ⟨"u1", "Ada"⟩ "lab" 1).joined "lab" ⟨1⟩
    phase := .reading
    writing := .running }

end ChatRooms.ReadLoop

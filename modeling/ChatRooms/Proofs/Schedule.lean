import Mathlib.Data.List.Induction
import Mathlib.Tactic.Basic

/-!
Schedules: actions in the order in which they are taken, each of which may be due or not, and the
steps that they make.
-/

namespace ChatRooms.Schedule

variable {σ α : Type} {act : σ → α → Option σ}

/-- Carries out actions in order, if each is due. -/
def run (act : σ → α → Option σ) (s : σ) : List α → Option σ
  | [] => some s
  | a :: acts =>
    match act s a with
    | some s => run act s acts
    | none => none

/-- The first action of a schedule, and the rest. -/
theorem run_cons_eq_some {s s' : σ} {a : α} {acts : List α} :
    run act s (a :: acts) = some s' ↔ ∃ s₁, act s a = some s₁ ∧ run act s₁ acts = some s' := by
  rw [run]
  cases act s a with
  | none => simp
  | some s₁ => simp

theorem run_append_eq_some {s s' : σ} {acts more : List α} :
    run act s (acts ++ more) = some s' ↔
      ∃ s₁, run act s acts = some s₁ ∧ run act s₁ more = some s' := by
  induction acts generalizing s with
  | nil => simp [run]
  | cons a acts ih =>
    rw [List.cons_append, run_cons_eq_some]
    constructor
    · rintro ⟨s₁, ha, hrest⟩
      obtain ⟨s₂, hacts, hmore⟩ := ih.mp hrest
      exact ⟨s₂, run_cons_eq_some.mpr ⟨s₁, ha, hacts⟩, hmore⟩
    · rintro ⟨s₂, hacts, hmore⟩
      obtain ⟨s₁, ha, hrest⟩ := run_cons_eq_some.mp hacts
      exact ⟨s₁, ha, ih.mpr ⟨s₂, hrest, hmore⟩⟩

/-- What every action of some kind keeps holds after a schedule of that kind. -/
theorem run_keeps {P : σ → Prop} {Q : α → Prop}
    (hstep : ∀ {s a s'}, P s → Q a → act s a = some s' → P s') {s s' : σ} {acts : List α}
    (hrun : run act s acts = some s') (hP : P s) (hQ : ∀ a ∈ acts, Q a) : P s' := by
  induction acts generalizing s with
  | nil =>
    cases hrun
    exact hP
  | cons a acts ih =>
    obtain ⟨s₁, ha, hrest⟩ := run_cons_eq_some.mp hrun
    exact ih hrest (hstep hP (hQ a List.mem_cons_self) ha)
      fun b hb => hQ b (List.mem_cons_of_mem _ hb)

/-! ### The steps of a schedule -/

/-- An action that was taken, between the state before it and the state after it. -/
structure Step (σ α : Type) where
  before : σ
  action : α
  after : σ

/-- The steps of a schedule, up to the first action that is not due. -/
def steps (act : σ → α → Option σ) (s : σ) : List α → List (Step σ α)
  | [] => []
  | a :: acts =>
    match act s a with
    | some s' => ⟨s, a, s'⟩ :: steps act s' acts
    | none => []

theorem steps_cons {s s' : σ} {a : α} (ha : act s a = some s') (acts : List α) :
    steps act s (a :: acts) = ⟨s, a, s'⟩ :: steps act s' acts := by
  rw [steps, ha]

theorem steps_append {s s' : σ} {acts : List α} (hrun : run act s acts = some s')
    (more : List α) : steps act s (acts ++ more) = steps act s acts ++ steps act s' more := by
  induction acts generalizing s with
  | nil =>
    cases hrun
    rfl
  | cons a acts ih =>
    obtain ⟨s₁, ha, hrest⟩ := run_cons_eq_some.mp hrun
    rw [List.cons_append, steps_cons ha, steps_cons ha, ih hrest, List.cons_append]

theorem steps_append_singleton {s s₁ s₂ : σ} {acts : List α} (hrun : run act s acts = some s₁)
    {a : α} (ha : act s₁ a = some s₂) :
    steps act s (acts ++ [a]) = steps act s acts ++ [⟨s₁, a, s₂⟩] := by
  rw [steps_append hrun, steps_cons ha]
  rfl

/-- What holds at the start, and is kept by one more action, holds after a schedule. It may depend
on the actions so far. -/
theorem run_induction {P : List α → σ → Prop} {s : σ} (hstart : P [] s)
    (hstep : ∀ {acts s₁ a s₂}, run act s acts = some s₁ → P acts s₁ → act s₁ a = some s₂ →
      P (acts ++ [a]) s₂) {acts : List α} {s' : σ} (hrun : run act s acts = some s') :
    P acts s' := by
  induction acts using List.reverseRecOn generalizing s' with
  | nil =>
    cases hrun
    exact hstart
  | append_singleton acts a ih =>
    obtain ⟨s₁, hacts, hlast⟩ := run_append_eq_some.mp hrun
    obtain ⟨s₂, ha, hnil⟩ := run_cons_eq_some.mp hlast
    cases hnil
    exact hstep hacts (ih hacts) ha

/-- What every action keeps holds before and after every step. -/
theorem forall_steps {P : σ → Prop} (hstep : ∀ {s a s'}, P s → act s a = some s' → P s') {s : σ}
    (hP : P s) {acts : List α} {st : Step σ α} (hst : st ∈ steps act s acts) :
    P st.before ∧ act st.before st.action = some st.after := by
  induction acts generalizing s with
  | nil => cases hst
  | cons a acts ih =>
    cases ha : act s a with
    | none => simp [steps, ha] at hst
    | some s₁ =>
      rw [steps_cons ha, List.mem_cons] at hst
      rcases hst with rfl | hst
      · exact ⟨hP, ha⟩
      · exact ih (hstep hP ha) hst

/-- An invariant that depends on the first find among the actions so far. -/
theorem run_keeps_first {γ : Type} {P : σ → Option γ → Prop} {find : σ → α → Option γ}
    (hstep : ∀ {s a s' first}, P s first → act s a = some s' → P s' (first.or (find s a)))
    {s s' : σ} {acts : List α} {first : Option γ} (hrun : run act s acts = some s')
    (hP : P s first) :
    P s' (first.or ((steps act s acts).findSome? fun st => find st.before st.action)) := by
  refine run_induction (P := fun acts s' =>
    P s' (first.or ((steps act s acts).findSome? fun st => find st.before st.action))) ?_ ?_ hrun
  · simpa [steps] using hP
  · intro acts s₁ a s₂ hacts hfirst ha
    have hlast := hstep hfirst ha
    rw [Option.or_assoc] at hlast
    rw [steps_append_singleton hacts ha, List.findSome?_append]
    simpa using hlast

/-- An invariant that depends on all that the actions so far have yielded. -/
theorem run_keeps_all {γ : Type} {P : σ → List γ → Prop} {yields : Step σ α → List γ}
    (hstep : ∀ {s a s' all}, P s all → act s a = some s' → P s' (all ++ yields ⟨s, a, s'⟩))
    {s s' : σ} {acts : List α} {all : List γ} (hrun : run act s acts = some s') (hP : P s all) :
    P s' (all ++ (steps act s acts).flatMap yields) := by
  refine run_induction (P := fun acts s' => P s' (all ++ (steps act s acts).flatMap yields))
    ?_ ?_ hrun
  · simpa [steps] using hP
  · intro acts s₁ a s₂ hacts hall ha
    have hlast := hstep hall ha
    rw [List.append_assoc] at hlast
    rw [steps_append_singleton hacts ha, List.flatMap_append]
    simpa using hlast

/-- What ends as often as it begins: a property holds at the end exactly if it was there at the
start and has not ended more often than it has begun. -/
theorem countP_ends (p : σ → Bool) {s s' : σ} {acts : List α} (hrun : run act s acts = some s') :
    (steps act s acts).countP (fun st => p st.before && !p st.after) + (p s').toNat =
      (steps act s acts).countP (fun st => !p st.before && p st.after) + (p s).toNat := by
  induction acts generalizing s with
  | nil =>
    cases hrun
    rfl
  | cons a acts ih =>
    obtain ⟨s₁, ha, hrest⟩ := run_cons_eq_some.mp hrun
    have hlater := ih hrest
    rw [steps_cons ha, List.countP_cons, List.countP_cons]
    dsimp only
    cases hp : p s <;> cases hp₁ : p s₁ <;> simp [hp₁] at hlater ⊢ <;> omega

/-- What happens only as a state is left for good happens once at most. -/
theorem countP_le_one {P : σ → Prop} {q : Step σ α → Bool}
    (hstep : ∀ {s a s'}, ¬P s → act s a = some s' → ¬P s')
    (hq : ∀ {st : Step σ α}, act st.before st.action = some st.after → q st = true →
      P st.before ∧ ¬P st.after) (s : σ) (acts : List α) :
    (steps act s acts).countP q ≤ 1 := by
  have hnever : ∀ {s}, ¬P s → ∀ acts, (steps act s acts).countP q = 0 := by
    intro s hs acts
    refine List.countP_eq_zero.mpr fun st hst hqst => ?_
    obtain ⟨hbefore, ha⟩ := forall_steps hstep hs hst
    exact hbefore (hq ha hqst).1
  induction acts generalizing s with
  | nil => exact Nat.zero_le _
  | cons a acts ih =>
    cases ha : act s a with
    | none => simp [steps, ha]
    | some s₁ =>
      rw [steps_cons ha, List.countP_cons]
      by_cases hqst : q ⟨s, a, s₁⟩ = true
      · have hlater := hnever (@hq ⟨s, a, s₁⟩ ha hqst).2 acts
        simp [hqst, hlater]
      · simpa [hqst] using ih s₁

end ChatRooms.Schedule

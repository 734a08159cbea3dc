import Mathlib.Data.List.Induction

/-!
What has happened in a run and has not been undone since. A state that one kind of operation brings
about and another kind ends holds after a run exactly if this is so.
-/

namespace ChatRooms

/-- An occurrence in a longer run is the last operation, or an occurrence in the run before it. -/
theorem append_singleton_eq_append_cons {α : Type} {xs before after : List α} {x y : α} :
    xs ++ [x] = before ++ y :: after ↔
      after = [] ∧ xs = before ∧ x = y ∨
        ∃ after', after = after' ++ [x] ∧ xs = before ++ y :: after' := by
  constructor
  · intro h
    rcases List.eq_nil_or_concat after with rfl | ⟨after', z, rfl⟩
    · obtain ⟨hxs, hx⟩ := List.append_inj' h rfl
      exact .inl ⟨rfl, hxs, by simpa using hx⟩
    · rw [List.concat_eq_append, ← List.cons_append, ← List.append_assoc] at h
      obtain ⟨hxs, hx⟩ := List.append_inj' h rfl
      obtain rfl : x = z := by simpa using hx
      exact .inr ⟨after', by simp, hxs⟩
  · rintro (⟨rfl, rfl, rfl⟩ | ⟨after', rfl, rfl⟩)
    · rfl
    · simp

section Since

variable {σ α : Type} {step : σ → α → σ} {does undoes : σ → α → Prop} {s : σ} {ops : List α}

/-- Some operation of the run did it, and none has undone it since. -/
def Since (step : σ → α → σ) (does undoes : σ → α → Prop) (s : σ) (ops : List α) : Prop :=
  ∃ before op after, ops = before ++ op :: after ∧ does (before.foldl step s) op ∧
    ∀ mid op' rest, after = mid ++ op' :: rest →
      ¬undoes ((before ++ op :: mid).foldl step s) op'

theorem not_since_nil : ¬Since step does undoes s [] := by
  rintro ⟨before, op, after, h, -⟩
  simp at h

theorem since_append_singleton {x : α} : Since step does undoes s (ops ++ [x]) ↔
    does (ops.foldl step s) x ∨ Since step does undoes s ops ∧ ¬undoes (ops.foldl step s) x := by
  constructor
  · rintro ⟨before, op, after, h, hdoes, hkept⟩
    rcases append_singleton_eq_append_cons.mp h with ⟨-, rfl, rfl⟩ | ⟨after', rfl, rfl⟩
    · exact .inl hdoes
    · refine .inr ⟨⟨before, op, after', rfl, hdoes, fun mid op' rest e => ?_⟩, ?_⟩
      · exact hkept mid op' (rest ++ [x]) (by simp [e])
      · exact hkept after' x [] rfl
  · rintro (hdoes | ⟨⟨before, op, after, rfl, hdoes, hkept⟩, hlast⟩)
    · exact ⟨ops, x, [], rfl, hdoes, by simp⟩
    · refine ⟨before, op, after ++ [x], by simp, hdoes, fun mid op' rest e => ?_⟩
      rcases append_singleton_eq_append_cons.mp e with ⟨-, rfl, rfl⟩ | ⟨rest', -, rfl⟩
      · exact hlast
      · exact hkept mid op' rest' rfl

/-- What holds after an operation exactly if the operation does it, or it held before and the
operation does not undo it, holds after a run if it has been done and not been undone since. -/
theorem iff_since {P : σ → Prop} (hstart : ¬P s)
    (hstep : ∀ s op, P (step s op) ↔ does s op ∨ P s ∧ ¬undoes s op) (ops : List α) :
    P (ops.foldl step s) ↔ Since step does undoes s ops := by
  induction ops using List.reverseRecOn with
  | nil => exact iff_of_false hstart not_since_nil
  | append_singleton ops x ih =>
    rw [List.foldl_append, List.foldl_cons, List.foldl_nil, hstep, ih, since_append_singleton]

end Since

end ChatRooms

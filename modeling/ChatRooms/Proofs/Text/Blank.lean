import Mathlib.Data.List.TakeWhile
import ChatRooms.Text.Blank

/-!
Texts without blanks at their ends. What `trimList` leaves of a text is told without it: the text
that neither begins nor ends with a blank, and that becomes the given one when blanks are put around
it.
-/

namespace ChatRooms.Text

/-- The text neither begins nor ends with a blank. -/
def IsTrimmed (s : List Char) : Prop :=
  (∀ c ∈ s.head?, isBlank c = false) ∧ ∀ c ∈ s.getLast?, isBlank c = false

theorem toNat_of_isDigit {c : Char} (h : c.isDigit = true) : 48 ≤ c.toNat ∧ c.toNat ≤ 57 := by
  simpa [Char.isDigit, UInt32.le_iff_toNat_le] using h

theorem isBlank_of_isDigit {c : Char} (h : c.isDigit = true) : isBlank c = false := by
  have hc := toNat_of_isDigit h
  unfold isBlank
  simp
  omega

theorem trimStart_cons {c : Char} (h : isBlank c = false) (s : List Char) :
    trimStart (c :: s) = c :: s := List.dropWhile_cons_of_neg (by simp [h])

theorem trimStart_of_head {s : List Char} (h : ∀ c ∈ s.head?, isBlank c = false) :
    trimStart s = s := by
  cases s with
  | nil => rfl
  | cons c s => exact trimStart_cons (h c rfl) s

theorem trimStart_append_of_blank {before : List Char} (h : ∀ c ∈ before, isBlank c = true)
    (s : List Char) : trimStart (before ++ s) = trimStart s :=
  List.dropWhile_append_of_pos h

/-- What blanks at the beginning are taken off begins with none. -/
theorem head_trimStart (s : List Char) : ∀ c ∈ (trimStart s).head?, isBlank c = false := by
  intro c hc
  have h := List.head?_dropWhile_not isBlank s
  rw [trimStart] at hc
  rw [Option.mem_def.mp hc] at h
  simpa using h

theorem exists_blank_append_trimStart (s : List Char) :
    ∃ before, (∀ c ∈ before, isBlank c = true) ∧ s = before ++ trimStart s :=
  ⟨s.takeWhile isBlank, fun _ hc => List.mem_takeWhile_imp hc,
    (List.takeWhile_append_dropWhile).symm⟩

theorem trimList_eq_iff {s t : List Char} :
    trimList s = t ↔ IsTrimmed t ∧ ∃ before after, (∀ c ∈ before, isBlank c = true) ∧
      (∀ c ∈ after, isBlank c = true) ∧ s = before ++ t ++ after := by
  constructor
  · rintro rfl
    obtain ⟨before, hbefore, hs⟩ := exists_blank_append_trimStart s
    obtain ⟨after, hafter, hrev⟩ := exists_blank_append_trimStart (trimStart s).reverse
    have hmid : trimStart s = trimList s ++ after.reverse := by
      rw [← List.reverse_reverse (trimStart s), hrev, List.reverse_append, trimList]
    have hafter' : ∀ c ∈ after.reverse, isBlank c = true := by simpa using hafter
    refine ⟨⟨fun c hc => ?_, fun c hc => ?_⟩, before, after.reverse, hbefore, hafter', ?_⟩
    · refine head_trimStart s c ?_
      rw [hmid, List.head?_append, Option.mem_def.mp hc]
      rfl
    · rw [trimList, List.getLast?_reverse] at hc
      exact head_trimStart _ c hc
    · rw [List.append_assoc, ← hmid]
      exact hs
  · rintro ⟨⟨hhead, hlast⟩, before, after, hbefore, hafter, rfl⟩
    have hafter' : ∀ c ∈ after.reverse, isBlank c = true := by simpa using hafter
    rw [trimList, List.append_assoc, trimStart_append_of_blank hbefore]
    cases t with
    | nil =>
      have hnil : trimStart after = [] := List.dropWhile_eq_nil_iff.mpr hafter
      rw [List.nil_append, hnil]
      rfl
    | cons c t =>
      have hrest : trimStart (c :: t ++ after) = c :: t ++ after :=
        trimStart_of_head (by simpa using hhead)
      have hend : trimStart (c :: t).reverse = (c :: t).reverse :=
        trimStart_of_head (by rw [List.head?_reverse]; exact hlast)
      rw [hrest, List.reverse_append, trimStart_append_of_blank hafter', hend,
        List.reverse_reverse]

end ChatRooms.Text

/-!
Finite tables as lists of entries in the order in which their keys first came. What a table means is
its look-up function; `get?_insert`, `get?_erase` and `get?_modify` say what each operation does to
it.
-/

namespace ChatRooms

/-- Entries in the order in which their keys first came. -/
abbrev Table (κ ν : Type) := List (κ × ν)

namespace Table

variable {κ ν : Type} [DecidableEq κ]

/-- The value of a key. -/
def get? (t : Table κ ν) (k : κ) : Option ν :=
  match t with
  | [] => none
  | (k', v) :: rest => if k' = k then some v else get? rest k

/-- Sets the value of a key, in its place if it has one. -/
def insert (t : Table κ ν) (k : κ) (v : ν) : Table κ ν :=
  match t with
  | [] => [(k, v)]
  | (k', v') :: rest => if k' = k then (k, v) :: rest else (k', v') :: insert rest k v

/-- Drops a key. -/
def erase (t : Table κ ν) (k : κ) : Table κ ν := t.filter fun entry => entry.1 ≠ k

/-- Changes the value of a key, if it has one. -/
def modify (t : Table κ ν) (k : κ) (f : ν → ν) : Table κ ν :=
  t.map fun entry => if entry.1 = k then (entry.1, f entry.2) else entry

/-- The key has a value. -/
def has (t : Table κ ν) (k : κ) : Bool := (get? t k).isSome

/-! ### What the operations do to the look-up -/

@[simp] theorem get?_nil (k : κ) : get? ([] : Table κ ν) k = none := rfl

theorem mem_of_get? {t : Table κ ν} {k : κ} {v : ν} (h : get? t k = some v) : (k, v) ∈ t := by
  induction t with
  | nil => cases h
  | cons entry rest ih =>
    obtain ⟨k₀, v₀⟩ := entry
    by_cases h₀ : k₀ = k
    · simp [get?, h₀] at h
      simp [h₀, h]
    · simp only [get?, h₀, if_false] at h
      exact List.mem_cons_of_mem _ (ih h)

theorem get?_eq_find? (t : Table κ ν) (k : κ) : get? t k = (t.find? (·.1 = k)).map (·.2) := by
  induction t with
  | nil => rfl
  | cons entry rest ih =>
    obtain ⟨k₀, v₀⟩ := entry
    by_cases h₀ : k₀ = k <;> simp [get?, h₀, ih]

/-- A new key goes to the end. -/
theorem insert_of_get?_eq_none {t : Table κ ν} {k : κ} (h : get? t k = none) (v : ν) :
    insert t k v = t ++ [(k, v)] := by
  induction t with
  | nil => rfl
  | cons entry rest ih =>
    obtain ⟨k₀, v₀⟩ := entry
    by_cases h₀ : k₀ = k
    · simp [get?, h₀] at h
    · simp only [get?, h₀, if_false] at h
      simp [insert, h₀, ih h]

theorem get?_insert (t : Table κ ν) (k k' : κ) (v : ν) :
    get? (insert t k v) k' = if k = k' then some v else get? t k' := by
  induction t with
  | nil => simp [insert, get?]
  | cons entry rest ih =>
    obtain ⟨k₀, v₀⟩ := entry
    by_cases h₀ : k₀ = k
    · subst h₀
      by_cases h : k₀ = k' <;> simp [insert, get?, h]
    · by_cases h : k₀ = k'
      · subst h
        simp [insert, get?, h₀, Ne.symm h₀]
      · simp [insert, get?, h₀, h, ih]

@[simp] theorem get?_insert_self (t : Table κ ν) (k : κ) (v : ν) :
    get? (insert t k v) k = some v := by simp [get?_insert]

theorem get?_erase (t : Table κ ν) (k k' : κ) :
    get? (erase t k) k' = if k = k' then none else get? t k' := by
  induction t with
  | nil => simp [erase]
  | cons entry rest ih =>
    obtain ⟨k₀, v₀⟩ := entry
    simp only [erase, ne_eq, decide_not] at ih
    by_cases h₀ : k₀ = k
    · subst h₀
      by_cases h : k₀ = k' <;> simp_all [erase, get?]
    · by_cases h : k₀ = k'
      · subst h
        simp [erase, get?, h₀, Ne.symm h₀]
      · simp [erase, get?, h₀, h, ih]

theorem get?_modify (t : Table κ ν) (k k' : κ) (f : ν → ν) :
    get? (modify t k f) k' = if k = k' then (get? t k').map f else get? t k' := by
  induction t with
  | nil => simp [modify]
  | cons entry rest ih =>
    obtain ⟨k₀, v₀⟩ := entry
    simp only [modify] at ih
    by_cases h₀ : k₀ = k
    · subst h₀
      by_cases h : k₀ = k'
      · subst h
        simp [modify, get?]
      · simp_all [modify, get?]
    · by_cases h : k₀ = k'
      · subst h
        simp [modify, get?, h₀, Ne.symm h₀]
      · simp [modify, get?, h₀, h, ih]

/-! ### Keys -/

theorem get?_isSome_iff {t : Table κ ν} {k : κ} : (get? t k).isSome ↔ k ∈ t.map (·.1) := by
  induction t with
  | nil => simp
  | cons entry rest ih =>
    obtain ⟨k₀, v₀⟩ := entry
    by_cases h₀ : k₀ = k
    · simp [get?, h₀]
    · simp [get?, h₀, ih, Ne.symm h₀]

@[simp] theorem map_fst_modify (t : Table κ ν) (k : κ) (f : ν → ν) :
    (modify t k f).map (·.1) = t.map (·.1) := by
  unfold modify
  rw [List.map_map]
  refine List.map_congr_left fun entry _ => ?_
  dsimp only [Function.comp_apply]
  split <;> rfl

theorem nodup_keys_erase {t : Table κ ν} (hn : (t.map (·.1)).Nodup) (k : κ) :
    ((erase t k).map (·.1)).Nodup := hn.sublist (List.filter_sublist.map _)

end Table

end ChatRooms

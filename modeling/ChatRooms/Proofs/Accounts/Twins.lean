import ChatRooms.Proofs.Accounts.Ledger

/-!
Accounts that differ in the hashes of passwords alone. Two rows of users are twins if they are equal
but for the hash, and their hashes accept the same passwords. Every call has the same answer on
accounts with twin rows, and leaves twin rows behind: hashes are only ever compared with passwords,
and those that are added are the same on both sides.
-/

namespace ChatRooms

open ChatRooms.Time

/-- Two results agree: the answers are equal, and the states are related. -/
def Agree {α σ : Type} (R : σ → σ → Prop) (r₁ r₂ : α × σ) : Prop := r₁.1 = r₂.1 ∧ R r₁.2 r₂.2

namespace Agree

variable {α σ : Type} {R : σ → σ → Prop}

/-- Results that agree are made of one answer and two related states. -/
theorem elim {r₁ r₂ : α × σ} (h : Agree R r₁ r₂) :
    ∃ answer s₁ s₂, r₁ = (answer, s₁) ∧ r₂ = (answer, s₂) ∧ R s₁ s₂ := by
  obtain ⟨answer, s₁⟩ := r₁
  obtain ⟨answer₂, s₂⟩ := r₂
  obtain ⟨rfl, hstates⟩ := h
  exact ⟨answer, s₁, s₂, rfl, rfl, hstates⟩

/-- What is done on the same condition agrees, if it does in both cases. -/
theorem ite {c : Prop} [Decidable c] {x₁ x₂ y₁ y₂ : α × σ} (hx : c → Agree R x₁ x₂)
    (hy : ¬c → Agree R y₁ y₂) : Agree R (if c then x₁ else y₁) (if c then x₂ else y₂) := by
  split
  · exact hx ‹_›
  · exact hy ‹_›

end Agree

namespace Accounts

/-- The rows are equal but for the hash, and the hashes accept the same passwords. -/
structure Twin (row₁ row₂ : UserRow) : Prop where
  rest : row₂ = { row₁ with passwordHash := row₂.passwordHash }
  verify : ∀ password, row₂.passwordHash.verify? password = row₁.passwordHash.verify? password

namespace Twin

variable {row₁ row₂ : UserRow}

theorem refl (row : UserRow) : Twin row row := ⟨rfl, fun _ => rfl⟩

/-- Twins are shown alike. -/
theorem info_eq (h : Twin row₁ row₂) (now : Instant) :
    UserRow.info now row₂ = UserRow.info now row₁ := by
  rw [h.rest]
  rfl

/-- The note of a login is made for both of twins or for neither. -/
theorem touch (h : Twin row₁ row₂) (now : Instant) (userId : String) :
    Twin (if row₁.id = userId then { row₁ with lastLogin := some now.storedText } else row₁)
      (if row₂.id = userId then { row₂ with lastLogin := some now.storedText } else row₂) := by
  have hid : row₂.id = row₁.id := by rw [h.rest]
  rw [hid]
  split
  · refine ⟨?_, h.verify⟩
    rw [h.rest]
  · exact h

end Twin

/-- The accounts are equal but for the hashes of users, which accept the same passwords. The hashes
are old ones and then some that were added since, which are the same. -/
structure Twins (old₁ old₂ : List Password.Hash) (a₁ a₂ : Accounts) : Prop where
  users : List.Forall₂ Twin a₁.users a₂.users
  rest : a₂ = { a₁ with users := a₂.users }
  hashes : ∃ added, a₁.users.map (·.passwordHash) = old₁ ++ added ∧
    a₂.users.map (·.passwordHash) = old₂ ++ added

/-! ### Calls that have nothing to do with users -/

/-- The call neither reads nor changes the users. -/
def IsBlind {α : Type} (f : Accounts → α × Accounts) : Prop :=
  ∀ a users, f { a with users } = ((f a).1, { (f a).2 with users })

theorem isBlind_storeSession (now : Instant) (token userId : String) :
    IsBlind fun a => a.storeSession now token userId := by
  intro a users
  unfold storeSession
  dsimp only
  split
  · rfl
  · split <;> rfl

theorem isBlind_createSession (now : Instant) (token userId : String) :
    IsBlind fun a => a.createSession now token userId := by
  intro a users
  have hstore := isBlind_storeSession now token userId a users
  dsimp only at hstore
  unfold createSession
  dsimp only
  rw [hstore]
  rcases a.storeSession now token userId with ⟨e | session, a'⟩ <;> rfl

theorem isBlind_findSession (now : Instant) (token : String) :
    IsBlind fun a => a.findSession now token := by
  intro a users
  have hstored : storedSession { a with users } now token = a.storedSession now token := rfl
  unfold findSession
  dsimp only
  rw [hstored]
  split
  · rfl
  · split <;> rfl

theorem isBlind_logout (token : String) : IsBlind fun a => a.logout token := by
  intro a users
  unfold logout deleteSession forget
  dsimp only
  split <;> rfl

namespace Twins

variable {old₁ old₂ : List Password.Hash} {a₁ a₂ : Accounts} (h : Twins old₁ old₂ a₁ a₂)

include h

/-- A call that has nothing to do with users agrees on both sides. -/
theorem of_isBlind {α : Type} {f : Accounts → α × Accounts} (hf : IsBlind f) :
    Agree (Twins old₁ old₂) (f a₁) (f a₂) := by
  have h₁ : f a₁ = ((f a₁).1, { (f a₁).2 with users := a₁.users }) := hf a₁ a₁.users
  have h₂ : f a₂ = ((f a₁).1, { (f a₁).2 with users := a₂.users }) := by
    have hsame := hf a₁ a₂.users
    rwa [← h.rest] at hsame
  rw [h₁, h₂]
  exact ⟨rfl, h.users, rfl, h.hashes⟩

/-- Forgetting a session has nothing to do with users. -/
theorem forget (token : String) : Twins old₁ old₂ (a₁.forget token) (a₂.forget token) := by
  refine ⟨h.users, ?_, h.hashes⟩
  rw [h.rest]
  rfl

/-! ### Calls that read users -/

theorem isOpen_eq : a₂.isOpen = a₁.isOpen := by rw [h.rest]

/-- The first users of a kind are twins, if it is not told by the hash. -/
theorem find? {p : UserRow → Bool} (hp : ∀ row hash, p { row with passwordHash := hash } = p row) :
    Option.Rel Twin (a₁.users.find? p) (a₂.users.find? p) := by
  refine find?_rel h.users fun {row₁ row₂} htwin => ?_
  rw [htwin.rest]
  exact (hp row₁ row₂.passwordHash).symm

theorem any_eq {p : UserRow → Bool} (hp : ∀ row hash, p { row with passwordHash := hash } = p row) :
    a₂.users.any p = a₁.users.any p := by
  rw [any_eq_of_find?_rel (h.find? hp), List.isSome_find?]

/-- What is shown of a user does not tell the hash. -/
theorem findUser_eq (now : Instant) (userId : String) :
    a₂.findUser now userId = a₁.findUser now userId := by
  have hfound := h.find? (p := (·.id = userId)) fun _ _ => rfl
  unfold findUser
  rw [h.isOpen_eq]
  generalize a₁.users.find? (·.id = userId) = found₁ at hfound ⊢
  generalize a₂.users.find? (·.id = userId) = found₂ at hfound ⊢
  cases hfound with
  | none => rfl
  | some htwin => rw [Option.map_some, Option.map_some, htwin.info_eq]

theorem getUser_eq (now : Instant) (userId : String) :
    a₂.getUser now userId = a₁.getUser now userId := by
  unfold getUser
  rw [h.findUser_eq]

theorem grant (now : Instant) (token : String) (session : Session) :
    Agree (Twins old₁ old₂) (a₁.grant now token session) (a₂.grant now token session) := by
  unfold Accounts.grant
  refine .ite (fun _ => ⟨rfl, h.forget token⟩) fun _ => ?_
  exact ⟨(h.getUser_eq now session.userId).symm, h⟩

theorem validateSession (now : Instant) (token : String) :
    Agree (Twins old₁ old₂) (a₁.validateSession now token) (a₂.validateSession now token) := by
  obtain ⟨found, a₁', a₂', h₁, h₂, h'⟩ := (h.of_isBlind (isBlind_findSession now token)).elim
  unfold Accounts.validateSession
  rw [h₁, h₂]
  cases found with
  | error e => exact ⟨rfl, h'⟩
  | ok session => exact h'.grant now token session

theorem validate (now : Instant) (token : String) :
    Agree (Twins old₁ old₂) (a₁.validate now token) (a₂.validate now token) := by
  obtain ⟨result, a₁', a₂', h₁, h₂, h'⟩ := (h.validateSession now token).elim
  unfold Accounts.validate
  rw [h₁, h₂]
  cases result with
  | error e => exact ⟨rfl, h'⟩
  | ok user => exact ⟨rfl, h'⟩

/-! ### Calls that change users -/

/-- A new user has the same hash on both sides. -/
theorem signup (now : Instant) (id email username password : String) :
    Agree (Twins old₁ old₂) (a₁.signup now id email username password)
      (a₂.signup now id email username password) := by
  have hcost : a₂.hashCost = a₁.hashCost := by rw [h.rest]
  have hemail := h.any_eq (p := (·.email = email)) fun _ _ => rfl
  have hid := h.any_eq (p := (·.id = id)) fun _ _ => rfl
  unfold Accounts.signup
  rw [h.isOpen_eq, hcost, hemail, hid]
  refine .ite (fun _ => ⟨rfl, h⟩) fun _ => .ite (fun _ => ⟨rfl, h⟩) fun _ => ?_
  cases Password.Hash.make? password a₁.hashCost with
  | none => exact ⟨rfl, h⟩
  | some hash =>
    refine .ite (fun _ => ⟨rfl, h⟩) fun _ => ⟨rfl, ?_⟩
    obtain ⟨added, h₁, h₂⟩ := h.hashes
    exact
      { users := List.rel_append h.users (.cons (.refl _) .nil)
        rest := by rw [h.rest]
        hashes := ⟨added ++ [hash], by simp [h₁], by simp [h₂]⟩ }

/-- The note of a login leaves the hashes as they are. -/
theorem touch (now : Instant) (userId : String) :
    Twins old₁ old₂ (a₁.touch now userId) (a₂.touch now userId) where
  users := by
    refine List.forall₂_map_left_iff.mpr (List.forall₂_map_right_iff.mpr ?_)
    exact h.users.imp fun row₁ row₂ htwin => htwin.touch now userId
  rest := by
    rw [h.rest]
    rfl
  hashes := by
    have hsame : ∀ a : Accounts, (a.touch now userId).users.map (·.passwordHash) =
        a.users.map (·.passwordHash) := by
      intro a
      unfold Accounts.touch
      rw [List.map_map]
      refine List.map_congr_left fun row _ => ?_
      dsimp only [Function.comp]
      split <;> rfl
    rw [hsame, hsame]
    exact h.hashes

/-- A hash is only asked whether it accepts a password, and twins accept the same ones. -/
theorem login (now sessionNow : Instant) (token email password : String) :
    Agree (Twins old₁ old₂) (a₁.login now sessionNow token email password)
      (a₂.login now sessionNow token email password) := by
  have hfound := h.find? (p := (·.email = email)) fun _ _ => rfl
  unfold Accounts.login
  rw [h.isOpen_eq]
  refine .ite (fun _ => ⟨rfl, h⟩) fun _ => ?_
  generalize a₁.users.find? (·.email = email) = found₁ at hfound ⊢
  generalize a₂.users.find? (·.email = email) = found₂ at hfound ⊢
  cases hfound with
  | none => exact ⟨rfl, h⟩
  | @some row₁ row₂ htwin =>
    dsimp only
    rw [htwin.verify]
    cases row₁.passwordHash.verify? password with
    | none => exact ⟨rfl, h⟩
    | some accepted =>
      cases accepted with
      | false => exact ⟨rfl, h⟩
      | true =>
        have hid : row₂.id = row₁.id := by rw [htwin.rest]
        have hcreated := (h.touch now row₁.id).of_isBlind
          (isBlind_createSession sessionNow token row₁.id)
        obtain ⟨created, a₁', a₂', h₁, h₂, h'⟩ := hcreated.elim
        dsimp only at h₁ h₂ ⊢
        rw [hid, h₁, h₂]
        cases created with
        | error e => exact ⟨rfl, h'⟩
        | ok session =>
          refine ⟨?_, h'⟩
          rw [htwin.rest]

end Twins

end Accounts

end ChatRooms

import ChatRooms.Proofs.Accounts.Passwords

/-!
What a call that fails leaves behind. A signup that fails changes nothing, and neither does a login
of somebody who is not admitted. Who is admitted is noted as logged in before the session is made:
if no session can be made, the login fails, and the note of it stays.
-/

namespace ChatRooms.Accounts

open ChatRooms.Time

/-- The user of an e-mail address, if the password is accepted. Closed tables admit nobody. -/
def admitted? (a : Accounts) (email password : String) : Option UserRow :=
  if a.isOpen then
    (a.users.find? (·.email = email)).filter fun row =>
      row.passwordHash.verify? password = some true
  else none

variable (a : Accounts)

/-- Noting a login changes nothing if the same time is noted already. -/
theorem touch_eq_self_iff (now : Instant) (userId : String) :
    a.touch now userId = a ↔
      ∀ row ∈ a.users, row.id = userId → row.lastLogin = some now.storedText := by
  have husers : a.touch now userId = a ↔ (a.touch now userId).users = a.users := by
    constructor
    · intro h
      rw [h]
    · intro h
      have hwith : a.touch now userId = { a with users := (a.touch now userId).users } := rfl
      rw [hwith, h]
  have hmap : (a.touch now userId).users = a.users ↔ ∀ row ∈ a.users,
      (if row.id = userId then { row with lastLogin := some now.storedText } else row) = row := by
    have hid := List.map_inj_left (l := a.users) (g := id)
      (f := fun row => if row.id = userId then { row with lastLogin := some now.storedText } else row)
    rw [List.map_id] at hid
    exact hid
  rw [husers, hmap]
  refine forall₂_congr fun row _ => ?_
  constructor
  · intro h hid
    rw [if_pos hid] at h
    rw [← h]
  · intro h
    by_cases hid : row.id = userId
    · rw [if_pos hid, ← h hid]
    · rw [if_neg hid]

/-! ### Logins -/

section Login

variable {a} {email password : String}

theorem admitted?_eq_some_iff {row : UserRow} : a.admitted? email password = some row ↔
    a.isOpen = true ∧ a.users.find? (·.email = email) = some row ∧
      row.passwordHash.verify? password = some true := by
  unfold admitted?
  by_cases hopen : a.isOpen = true
  · simp [hopen, Option.filter_eq_some_iff]
  · simp [hopen]

/-- A login of somebody who is not admitted fails and changes nothing. -/
theorem login_of_not_admitted (h : a.admitted? email password = none) (now sessionNow : Instant)
    (token : String) :
    ∃ e ∈ [AccountError.closed, .invalidLogin, .unreadableHash],
      a.login now sessionNow token email password = (.error e, a) := by
  unfold login
  by_cases hopen : a.isOpen = true
  · rw [if_neg (by simp [hopen])]
    cases hrow : a.users.find? (·.email = email) with
    | none => exact ⟨.invalidLogin, by simp, rfl⟩
    | some row =>
      dsimp only
      cases hverify : row.passwordHash.verify? password with
      | none => exact ⟨.unreadableHash, by simp, rfl⟩
      | some accepted =>
        cases accepted with
        | false => exact ⟨.invalidLogin, by simp, rfl⟩
        | true =>
          have hsome := admitted?_eq_some_iff.mpr ⟨hopen, hrow, hverify⟩
          rw [h] at hsome
          cases hsome
  · rw [if_pos (by simp [hopen])]
    exact ⟨.closed, by simp, rfl⟩

/-- Who is admitted is noted first. There is no session if its end cannot be represented, or if its
token is taken. -/
theorem login_of_admitted {row : UserRow} (h : a.admitted? email password = some row)
    (now sessionNow : Instant) (token : String) :
    (sessionNow.addNanos? a.sessionNanos = none ∧
      a.login now sessionNow token email password =
        (.error .lifetimeOutOfRange, a.touch now row.id)) ∨
    (∃ expiresAt, sessionNow.addNanos? a.sessionNanos = some expiresAt ∧
      a.sessions.any (·.token = token) = true ∧
      a.login now sessionNow token email password =
        (.error (.keyTaken "sessions.token"), a.touch now row.id)) ∨
    ∃ expiresAt user, sessionNow.addNanos? a.sessionNanos = some expiresAt ∧
      (a.login now sessionNow token email password).1 =
        .ok (user, ⟨token, row.id, sessionNow, expiresAt⟩) := by
  obtain ⟨hopen, hrow, hverify⟩ := admitted?_eq_some_iff.mp h
  have hnanos : (a.touch now row.id).sessionNanos = a.sessionNanos := rfl
  have hsessions : (a.touch now row.id).sessions = a.sessions := rfl
  unfold login
  rw [if_neg (by simp [hopen]), hrow]
  dsimp only
  rw [hverify]
  dsimp only
  rw [createSession_eq, hnanos, hsessions]
  cases hend : sessionNow.addNanos? a.sessionNanos with
  | none => exact .inl ⟨rfl, rfl⟩
  | some expiresAt =>
    dsimp only
    by_cases htaken : a.sessions.any (·.token = token) = true
    · rw [if_pos htaken]
      exact .inr (.inl ⟨expiresAt, rfl, htaken, rfl⟩)
    · rw [if_neg htaken]
      exact .inr (.inr ⟨expiresAt, _, rfl, rfl⟩)

/-- If a login of somebody who is admitted fails, the note of it is all that is left. -/
theorem login_error_of_admitted {row : UserRow} (h : a.admitted? email password = some row)
    {now sessionNow : Instant} {token : String} {e : AccountError}
    (he : (a.login now sessionNow token email password).1 = .error e) :
    (a.login now sessionNow token email password).2 = a.touch now row.id ∧
      ((e = .lifetimeOutOfRange ∧ sessionNow.addNanos? a.sessionNanos = none) ∨
        (e = .keyTaken "sessions.token" ∧ a.sessions.any (·.token = token) = true)) := by
  rcases login_of_admitted h now sessionNow token with
    ⟨hend, hlogin⟩ | ⟨expiresAt, -, htaken, hlogin⟩ | ⟨expiresAt, user, -, hlogin⟩
  · rw [hlogin] at he ⊢
    cases he
    exact ⟨rfl, .inl ⟨rfl, hend⟩⟩
  · rw [hlogin] at he ⊢
    cases he
    exact ⟨rfl, .inr ⟨rfl, htaken⟩⟩
  · rw [hlogin] at he
    cases he

/-- Only a login of somebody who is admitted gets as far as the end of the session. -/
theorem login_eq_lifetimeOutOfRange_iff (now sessionNow : Instant) (token : String) :
    (a.login now sessionNow token email password).1 = .error .lifetimeOutOfRange ↔
      (a.admitted? email password).isSome = true ∧ sessionNow.addNanos? a.sessionNanos = none := by
  cases hadmitted : a.admitted? email password with
  | none =>
    obtain ⟨e, hmem, h⟩ := login_of_not_admitted hadmitted now sessionNow token
    rw [h]
    refine iff_of_false (fun he => ?_) (by simp)
    cases he
    simp at hmem
  | some row =>
    rcases login_of_admitted hadmitted now sessionNow token with
      ⟨hend, h⟩ | ⟨expiresAt, hend, -, h⟩ | ⟨expiresAt, user, hend, h⟩
    · rw [h]
      exact iff_of_true rfl ⟨rfl, hend⟩
    · rw [h, hend]
      exact iff_of_false (fun he => by cases he) (by simp)
    · rw [h, hend]
      exact iff_of_false (fun he => by cases he) (by simp)

/-- The session of a login ends after the life of sessions. -/
theorem expiresAt_of_login {now sessionNow : Instant} {token : String} {user : User}
    {session : Session}
    (h : (a.login now sessionNow token email password).1 = .ok (user, session)) :
    sessionNow.addNanos? a.sessionNanos = some session.expiresAt := by
  cases hadmitted : a.admitted? email password with
  | none =>
    obtain ⟨e, -, hlogin⟩ := login_of_not_admitted hadmitted now sessionNow token
    rw [hlogin] at h
    cases h
  | some row =>
    rcases login_of_admitted hadmitted now sessionNow token with
      ⟨-, hlogin⟩ | ⟨expiresAt, -, -, hlogin⟩ | ⟨expiresAt, user', hend, hlogin⟩
    · rw [hlogin] at h
      cases h
    · rw [hlogin] at h
      cases h
    · rw [hlogin] at h
      cases h
      exact hend

end Login

/-! ### What failed calls leave behind -/

/-- **A failed call changes nothing, unless it is the login of somebody who is admitted.** Then the
end of the session cannot be represented, or the token that was drawn is taken; sessions and cache
are as they were, and the users are as they were but for the note of this login. -/
theorem failed_calls_leave_accounts (now sessionNow : Instant)
    (id token email username password : String) :
    (∀ {e}, (a.signup now id email username password).1 = .error e →
      (a.signup now id email username password).2 = a) ∧
    (∀ {e}, (a.login now sessionNow token email password).1 = .error e →
      let after := (a.login now sessionNow token email password).2
      after.sessions = a.sessions ∧ after.cache = a.cache ∧
      (a.admitted? email password = none →
        e ∈ [AccountError.closed, .invalidLogin, .unreadableHash] ∧ after = a) ∧
      ∀ row, a.admitted? email password = some row →
        ((e = .lifetimeOutOfRange ∧ sessionNow.addNanos? a.sessionNanos = none) ∨
          (e = .keyTaken "sessions.token" ∧ a.sessions.any (·.token = token) = true)) ∧
        after = a.touch now row.id ∧
        (after = a ↔ ∀ row' ∈ a.users, row'.id = row.id → row'.lastLogin = some now.storedText)) ∧
    -- the first of these failures does happen
    (∀ row, a.admitted? email password = some row → sessionNow.addNanos? a.sessionNanos = none →
      (a.login now sessionNow token email password).1 = .error .lifetimeOutOfRange) := by
  refine ⟨?_, ?_, ?_⟩
  · intro e he
    rcases a.signup_cases now id email username password with ⟨e', h⟩ | ⟨user, -, -, -, h⟩
    · rw [h]
    · rw [h] at he
      cases he
  · intro e he after
    cases hadmitted : a.admitted? email password with
    | none =>
      obtain ⟨e', hmem, h⟩ := login_of_not_admitted hadmitted now sessionNow token
      have hafter : after = a := congrArg Prod.snd h
      rw [h] at he
      cases he
      rw [hafter]
      refine ⟨rfl, rfl, fun _ => ⟨hmem, rfl⟩, ?_⟩
      intro row hrow
      cases hrow
    | some row =>
      have hleft := login_error_of_admitted hadmitted he
      have hafter : after = a.touch now row.id := hleft.1
      rw [hafter]
      refine ⟨rfl, rfl, fun hnone => ?_, ?_⟩
      · cases hnone
      · intro row' hrow'
        cases hrow'
        exact ⟨hleft.2, rfl, a.touch_eq_self_iff now row.id⟩
  · intro row hadmitted hend
    refine (login_eq_lifetimeOutOfRange_iff now sessionNow token).mpr ⟨?_, hend⟩
    rw [hadmitted, Option.isSome_some]

/-- Ada has signed up where sessions last for a hundred million days. -/
def endless : Accounts :=
  (empty (8640000000000000 * nanosPerMilli) 4).run [.signup .zero "u1" "ada@lab" "Ada" "pw"]

theorem failed_calls_leave_accounts_endless :
    (endless.login .zero .zero "t" "ada@lab" "pw").1 = .error .lifetimeOutOfRange ∧
    (endless.login .zero .zero "t" "ada@lab" "pw").2.sessions = endless.sessions ∧
    (endless.login .zero .zero "t" "ada@lab" "ap").2 = endless ∧
    (endless.signup .zero "u2" "ada@lab" "Eve" "pw").2 = endless := by
  obtain ⟨hsignup, -, -⟩ :=
    endless.failed_calls_leave_accounts .zero .zero "u2" "t" "ada@lab" "Eve" "pw"
  obtain ⟨-, hlogin, hfails⟩ :=
    endless.failed_calls_leave_accounts .zero .zero "u2" "t" "ada@lab" "Ada" "pw"
  obtain ⟨-, hrefused, -⟩ :=
    endless.failed_calls_leave_accounts .zero .zero "u2" "t" "ada@lab" "Ada" "ap"
  have hadmitted : ∃ row, endless.admitted? "ada@lab" "pw" = some row := ⟨_, rfl⟩
  obtain ⟨row, hrow⟩ := hadmitted
  have hend : (Instant.zero).addNanos? endless.sessionNanos = none := rfl
  have herror := hfails row hrow hend
  refine ⟨herror, (hlogin herror).1, ?_, ?_⟩
  · have hwrong : (endless.login .zero .zero "t" "ada@lab" "ap").1 = .error .invalidLogin := rfl
    exact ((hrefused hwrong).2.2.1 rfl).2
  · have htaken : (endless.signup .zero "u2" "ada@lab" "Eve" "pw").1 = .error .emailTaken := rfl
    exact hsignup htaken

/-- A login that gets no session is noted all the same. -/
theorem failed_login_is_noted :
    (endless.login .zero .zero "t" "ada@lab" "pw").1 = .error .lifetimeOutOfRange ∧
    endless.users.map (·.lastLogin) = [none] ∧
    (endless.login .zero .zero "t" "ada@lab" "pw").2.users.map (·.lastLogin) =
      [some "1970-01-01T00:00:00+00:00"] := by
  refine ⟨rfl, rfl, ?_⟩
  decide

end ChatRooms.Accounts

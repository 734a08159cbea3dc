import Mathlib.Data.List.TakeWhile
import ChatRooms.Proofs.Accounts.History
import ChatRooms.Proofs.Accounts.Logout
import ChatRooms.Proofs.Text.Utf8

/-!
Which passwords log in. A key is the bytes of a password and a NUL, over and over, up to 72 bytes;
a login looks at the key alone. Texts without a NUL have one key exactly if they begin with the same
72 bytes, so that a longer password has others beside it. A NUL can write the repetition out, which
gives every password another one with its key.
-/

namespace ChatRooms

open ChatRooms.Text ChatRooms.Time

/-! ### Keys -/

namespace Password

/-- The first bytes of a word that is repeated without end. -/
def cycle (n : Nat) (word : List UInt8) : List UInt8 :=
  (List.range n).map fun i => word.getD (i % word.length) 0

/-- The bytes of a password and the NUL behind them. -/
def terminated (password : String) : List UInt8 := Utf8.encode password.toList ++ [0]

theorem getElem?_cycle {n i : Nat} {word : List UInt8} (hi : i < n) (hword : word ≠ []) :
    (cycle n word)[i]? = word[i % word.length]? := by
  have hmod : i % word.length < word.length := Nat.mod_lt _ (List.length_pos_iff.mpr hword)
  simp [cycle, hi, hmod]

@[simp] theorem length_cycle (n : Nat) (word : List UInt8) : (cycle n word).length = n := by
  simp [cycle]

/-- Two words have one cycle if they agree at every place of their repetition. -/
theorem cycle_congr {n : Nat} {v w : List UInt8} (hv : v ≠ []) (hw : w ≠ [])
    (h : ∀ i < n, v[i % v.length]? = w[i % w.length]?) : cycle n v = cycle n w := by
  refine List.ext_getElem? fun i => ?_
  rcases Nat.lt_or_ge i n with hi | hi
  · rw [getElem?_cycle hi hv, getElem?_cycle hi hw, h i hi]
  · rw [List.getElem?_eq_none (by simpa using hi), List.getElem?_eq_none (by simpa using hi)]

/-- What is cut off behind the last byte of a cycle is not in it. -/
theorem cycle_take {n : Nat} {word : List UInt8} (hn : n ≠ 0) (hword : word ≠ []) :
    cycle n (word.take n) = cycle n word := by
  rcases Nat.lt_or_ge n word.length with hlen | hlen
  · have htake : word.take n ≠ [] := by simp [hn, hword]
    refine cycle_congr htake hword fun i hi => ?_
    rw [List.length_take_of_le (Nat.le_of_lt hlen), Nat.mod_eq_of_lt hi,
      Nat.mod_eq_of_lt (Nat.lt_trans hi hlen), List.getElem?_take_of_lt hi]
  · rw [List.take_of_length_le hlen]

theorem cycle_append_self {n : Nat} {word : List UInt8} (hword : word ≠ []) :
    cycle n (word ++ word) = cycle n word := by
  refine cycle_congr (by simp [hword]) hword fun i _ => ?_
  have hpos : 0 < word.length := List.length_pos_iff.mpr hword
  rw [List.length_append]
  have hlt : i % (word.length + word.length) < word.length + word.length := Nat.mod_lt _ (by omega)
  have hmod : i % (word.length + word.length) % word.length = i % word.length :=
    Nat.mod_mod_of_dvd i ⟨2, by omega⟩
  rw [← hmod]
  generalize i % (word.length + word.length) = j at hlt
  rcases Nat.lt_or_ge j word.length with hj | hj
  · rw [List.getElem?_append_left hj, Nat.mod_eq_of_lt hj]
  · rw [List.getElem?_append_right hj, Nat.mod_eq_sub_mod hj, Nat.mod_eq_of_lt (by omega)]

/-- A cycle begins with the word. -/
theorem take_cycle (n : Nat) (word : List UInt8) :
    (cycle n word).take word.length = word.take n := by
  refine List.ext_getElem? fun i => ?_
  rw [List.getElem?_take, List.getElem?_take]
  rcases Nat.lt_or_ge i word.length with hlen | hlen
  · rw [if_pos hlen]
    have hword : word ≠ [] := List.length_pos_iff.mp (by omega)
    rcases Nat.lt_or_ge i n with hi | hi
    · rw [if_pos hi, getElem?_cycle hi hword, Nat.mod_eq_of_lt hlen]
    · rw [if_neg (by omega), List.getElem?_eq_none (by simpa using hi)]
  · rw [if_neg (by omega), List.getElem?_eq_none hlen, ite_self]

theorem terminated_ne_nil (password : String) : terminated password ≠ [] := by simp [terminated]

theorem key_eq_cycle (password : String) : key password = cycle keyLength (terminated password) :=
  cycle_take (by decide) (terminated_ne_nil password)

/-- A password that is written out once more behind a NUL has the same key. -/
theorem key_twice (password : String) : key (password ++ "\x00" ++ password) = key password := by
  have hbytes : terminated (password ++ "\x00" ++ password) =
      terminated password ++ terminated password := by
    have hnul : String.utf8EncodeChar '\x00' = [0] := by decide
    simp [terminated, Utf8.encode_cons, hnul]
  rw [key_eq_cycle, key_eq_cycle, hbytes, cycle_append_self (terminated_ne_nil password)]

/-- The key depends on the first bytes alone. -/
theorem key_congr {p q : String}
    (h : (Utf8.encode p.toList).take keyLength = (Utf8.encode q.toList).take keyLength) :
    key p = key q := by
  have hunit : ∀ e : List UInt8, (e ++ [0]).take keyLength =
      (e.take keyLength ++ [0]).take keyLength := by
    intro e
    rw [List.take_append, List.take_append, List.take_take, Nat.min_self, List.length_take]
    congr 2
    omega
  rw [key_eq_cycle, key_eq_cycle, ← cycle_take (by decide) (terminated_ne_nil p),
    ← cycle_take (by decide) (terminated_ne_nil q)]
  unfold terminated
  rw [hunit, h, ← hunit]

/-- The first bytes of a password without a NUL stand in the key before the first NUL. -/
theorem takeWhile_key {p : String} (hp : '\x00' ∉ p.toList) :
    (key p).takeWhile (· ≠ 0) = (Utf8.encode p.toList).take keyLength := by
  have hne : ∀ b ∈ Utf8.encode p.toList, decide (b ≠ 0) = true := by
    refine fun b hb => decide_eq_true fun hzero => hp ?_
    rw [hzero] at hb
    exact (Utf8.mem_encode_iff (by decide)).mp hb
  have hbegins := take_cycle keyLength (terminated p)
  rw [← key_eq_cycle] at hbegins
  unfold terminated at hbegins
  rcases Nat.lt_or_ge (Utf8.encode p.toList).length keyLength with hlen | hlen
  · have hlast : (Utf8.encode p.toList ++ [0]).length ≤ keyLength := by
      rw [List.length_append]
      exact hlen
    rw [List.take_of_length_le hlast] at hbegins
    rw [← List.take_append_drop (Utf8.encode p.toList ++ [0]).length (key p), hbegins,
      List.append_assoc, List.takeWhile_append_of_pos hne,
      List.take_of_length_le (Nat.le_of_lt hlen)]
    simp
  · have hwhole : key p = (Utf8.encode p.toList).take keyLength := by
      rw [List.take_append_of_le_length hlen] at hbegins
      rw [← hbegins, List.take_of_length_le]
      rw [key_eq_cycle, length_cycle]
      simp
      omega
    rw [hwhole, List.takeWhile_eq_self_iff]
    exact fun b hb => hne b (List.mem_of_mem_take hb)

/-- Without a NUL the key says what the first bytes are, and nothing else. -/
theorem key_eq_iff {p q : String} (hp : '\x00' ∉ p.toList) (hq : '\x00' ∉ q.toList) :
    key p = key q ↔
      (Utf8.encode p.toList).take keyLength = (Utf8.encode q.toList).take keyLength := by
  refine ⟨fun h => ?_, key_congr⟩
  rw [← takeWhile_key hp, h, takeWhile_key hq]

/-- Without a NUL a short password is the only one with its key. -/
theorem key_eq_iff_eq {p q : String} (hp : '\x00' ∉ p.toList) (hq : '\x00' ∉ q.toList)
    (hshort : (Utf8.encode q.toList).length < keyLength) : key p = key q ↔ p = q := by
  refine ⟨fun h => ?_, fun h => h ▸ rfl⟩
  have htake := (key_eq_iff hp hq).mp h
  rw [List.take_of_length_le (Nat.le_of_lt hshort)] at htake
  have hlen : (Utf8.encode p.toList).length ≤ keyLength := by
    have hcut := congrArg List.length htake
    rw [List.length_take] at hcut
    omega
  rw [List.take_of_length_le hlen] at htake
  exact String.toList_inj.mp (Utf8.encode_injective htake)

end Password

/-! ### Users in a run -/

namespace Accounts

/-- In the run the user signed up with the e-mail address and the password. -/
def SignedUpWith (start : Accounts) (ops : List Operation) (email password : String)
    (user : User) : Prop :=
  ∃ before, ∃ now : ClockTime, ∃ id username after,
    ops = before ++ .signup now id email username password :: after ∧
      ((start.run before).signup now id email username password).1 = .ok user

theorem signedUp_iff_signedUpWith {start : Accounts} {ops : List Operation} {email : String}
    {user : User} :
    SignedUp start ops email user ↔ ∃ password, SignedUpWith start ops email password user := by
  constructor
  · rintro ⟨before, now, id, username, password, after, h⟩
    exact ⟨password, before, now, id, username, after, h⟩
  · rintro ⟨password, before, now, id, username, after, h⟩
    exact ⟨before, now, id, username, password, after, h⟩

/-- The row of an e-mail address, without the note of the last login. -/
def registered? (a : Accounts) (email : String) : Option UserRow :=
  (a.users.find? (·.email = email)).map ({ · with lastLogin := none })

/-- The row of a user who has signed up with a password. -/
def rowOf (user : User) (hashCost : Nat) (password : String) : UserRow :=
  ⟨user.id, user.email, user.username, .made hashCost (Password.key password),
    user.createdAt.storedText, none⟩

/-- What a call does to the tables: a row of a user comes with a signup and stays as it is, and the
row of a session comes with a login that has drawn its token. -/
structure Advances (a : Accounts) (op : Operation) (b : Accounts) : Prop where
  isOpen : a.isOpen = true → b.isOpen = true
  sessionNanos : b.sessionNanos = a.sessionNanos
  registered : ∀ email, b.registered? email = a.registered? email ∨
    ∃ now : ClockTime, ∃ id username password user, op = .signup now id email username password ∧
      (a.signup now id email username password).1 = .ok user ∧ a.registered? email = none ∧
      b.registered? email = some (rowOf user a.hashCost password)
  sessions : ∀ row ∈ b.sessions, row ∈ a.sessions ∨
    ∃ now sessionNow email password, op = .login now sessionNow row.token email password

namespace Advances

variable {a b : Accounts} {op : Operation}

theorem of_users_eq (hopen : a.isOpen = true → b.isOpen = true)
    (hnanos : b.sessionNanos = a.sessionNanos) (husers : b.users = a.users)
    (hsessions : ∀ row ∈ b.sessions, row ∈ a.sessions) : Advances a op b where
  isOpen := hopen
  sessionNanos := hnanos
  registered email := .inl (by rw [registered?, husers, registered?])
  sessions row hrow := .inl (hsessions row hrow)

theorem refl (a : Accounts) (op : Operation) : Advances a op a :=
  of_users_eq (fun h => h) rfl rfl fun _ h => h

end Advances

variable (a : Accounts)

/-- What a signup can do. -/
theorem signup_cases (now : Instant) (id email username password : String) :
    (∃ e, a.signup now id email username password = (.error e, a)) ∨
    ∃ user, user.email = email ∧ user.createdAt = now ∧
      a.users.find? (·.email = email) = none ∧
      a.signup now id email username password =
        (.ok user, { a with users := a.users ++ [rowOf user a.hashCost password] }) := by
  unfold signup
  split
  · exact .inl ⟨_, rfl⟩
  split
  · exact .inl ⟨_, rfl⟩
  rename_i hany
  unfold Password.Hash.make?
  split
  · exact .inl ⟨_, rfl⟩
  rename_i hash hhash
  split
  · exact .inl ⟨_, rfl⟩
  · split at hhash
    · cases hhash
      refine .inr ⟨_, rfl, rfl, ?_, rfl⟩
      simpa using hany
    · cases hhash

/-- A signup that succeeds makes the row of a new e-mail address. -/
theorem registered?_signup {a : Accounts} {now : Instant} {id email username password : String}
    {user : User} (h : (a.signup now id email username password).1 = .ok user) :
    user.email = email ∧ user.createdAt = now ∧ a.registered? email = none ∧
      (a.signup now id email username password).2.registered? email =
        some (rowOf user a.hashCost password) := by
  rcases a.signup_cases now id email username password with
    ⟨e, he⟩ | ⟨user', huser, hnow, hnone, he⟩
  · rw [he] at h
    cases h
  · rw [he] at h ⊢
    cases h
    refine ⟨huser, hnow, by rw [registered?, hnone, Option.map_none], ?_⟩
    rw [registered?, List.find?_append, hnone]
    simp [rowOf, huser]

theorem advances_signup (now : ClockTime) (id email username password : String) :
    Advances a (.signup now id email username password)
      (a.signup now id email username password).2 := by
  rcases a.signup_cases now id email username password with ⟨e, h⟩ | ⟨user, huser, -, -, h⟩
  · rw [h]
    exact .refl a _
  · have hok := congrArg Prod.fst h
    have hself := registered?_signup hok
    rw [h] at hself ⊢
    refine ⟨fun h => h, rfl, fun email' => ?_, fun row hrow => .inl hrow⟩
    by_cases he : email = email'
    · subst he
      exact .inr ⟨now, id, username, password, user, rfl, hok, hself.2.2⟩
    · left
      rw [registered?, List.find?_append]
      simp [rowOf, huser, he, registered?]

theorem registered?_touch (now : Instant) (userId email : String) :
    (a.touch now userId).registered? email = a.registered? email := by
  have hsame : ∀ row : UserRow, ∃ lastLogin,
      (if row.id = userId then { row with lastLogin := some now.storedText } else row) =
        { row with lastLogin } := by
    intro row
    split
    · exact ⟨_, rfl⟩
    · exact ⟨row.lastLogin, rfl⟩
  unfold registered? touch
  rw [List.find?_map, Option.map_map]
  congr 1
  · funext row
    obtain ⟨lastLogin, h⟩ := hsame row
    rw [Function.comp, h]
  · congr 1
    funext row
    obtain ⟨lastLogin, h⟩ := hsame row
    rw [Function.comp, h]

/-- A new session is a row with its token, unless the call fails. -/
theorem createSession_eq (now : Instant) (token userId : String) :
    a.createSession now token userId = match now.addNanos? a.sessionNanos with
      | none => (.error .lifetimeOutOfRange, a)
      | some expiresAt =>
        if a.sessions.any (·.token = token) then (.error (.keyTaken "sessions.token"), a)
        else
          (.ok ⟨token, userId, now, expiresAt⟩,
            { a with
              sessions := a.sessions ++ [⟨token, userId, now.storedText, expiresAt.storedText⟩]
              cache := a.cache.insert token ⟨token, userId, now, expiresAt⟩ }) := by
  unfold createSession storeSession
  cases now.addNanos? a.sessionNanos with
  | none => rfl
  | some expiresAt =>
    dsimp only
    split
    · rename_i h
      split at h
      · rename_i hany
        cases h
        rw [if_pos hany]
      · cases h
    · rename_i h
      split at h
      · cases h
      · rename_i hany
        cases h
        rw [if_neg hany]
        rfl

theorem advances_login (now sessionNow : ClockTime) (token email password : String) :
    Advances a (.login now sessionNow token email password)
      (a.login now sessionNow token email password).2 := by
  unfold login
  split
  · exact .refl a _
  split
  · exact .refl a _
  rename_i row _
  split
  · exact .refl a _
  · exact .refl a _
  · have htouched : Advances a (.login now sessionNow token email password)
        (a.touch now row.id) :=
      ⟨fun h => h, rfl, fun _ => .inl (registered?_touch ..), fun _ h => .inl h⟩
    rw [createSession_eq]
    cases sessionNow.addNanos? (a.touch now row.id).sessionNanos with
    | none => exact htouched
    | some expiresAt =>
      dsimp only
      by_cases hany : (a.touch now row.id).sessions.any (·.token = token) = true
      · rw [if_pos hany]
        exact htouched
      · rw [if_neg hany]
        refine ⟨fun h => h, rfl, htouched.registered, fun row' hrow => ?_⟩
        rcases List.mem_append.mp hrow with hrow | hrow
        · exact .inl hrow
        · obtain rfl := List.mem_singleton.mp hrow
          exact .inr ⟨now, sessionNow, email, password, rfl⟩

/-- A validation can only change what is remembered. -/
theorem exists_cache_validateSession (now : Instant) (token : String) :
    ∃ cache, (a.validateSession now token).2 = { a with cache } := by
  have hgrant : ∀ (b : Accounts) session, ∃ cache,
      (b.grant now token session).2 = { b with cache } := by
    intro b session
    rcases b.grant_cache now token session with h | h
    · exact ⟨b.cache, h⟩
    · exact ⟨_, h⟩
  unfold validateSession findSession
  cases a.cache.get? token with
  | some session => exact hgrant a session
  | none =>
    cases a.storedSession now token with
    | error e => exact ⟨a.cache, rfl⟩
    | ok session => exact hgrant (a.remember session) session

/-- **What a call does** to the users and the sessions. -/
theorem step_advances (op : Operation) : Advances a op (a.step op).2 := by
  cases op with
  | signup now id email username password => exact a.advances_signup now id email username password
  | login now sessionNow token email password =>
    exact a.advances_login now sessionNow token email password
  | validate now token =>
    obtain ⟨cache, h⟩ := a.exists_cache_validateSession now token
    exact .of_users_eq (by rw [step, h]; exact fun h => h) (by rw [step, h]) (by rw [step, h])
      (by rw [step, h]; exact fun _ h => h)
  | logout token =>
    show Advances a _ (a.logout token).2
    unfold logout deleteSession
    split
    · exact .of_users_eq (fun h => h) rfl rfl fun _ h => h
    · exact .of_users_eq (fun h => h) rfl rfl fun _ h => List.mem_of_mem_filter h
  | findUser now userId => exact .refl a _
  | restart => exact .of_users_eq (fun _ => rfl) rfl rfl fun _ h => h

/-! ### Runs -/

variable {start : Accounts} {ops : List Operation}

theorem run_append_singleton (op : Operation) :
    start.run (ops ++ [op]) = ((start.run ops).step op).2 := List.foldl_append

theorem isOpen_run (hopen : start.isOpen = true) (ops : List Operation) :
    (start.run ops).isOpen = true := by
  induction ops generalizing start with
  | nil => exact hopen
  | cons op ops ih => exact ih ((start.step_advances op).isOpen hopen)

theorem sessionNanos_run (start : Accounts) (ops : List Operation) :
    (start.run ops).sessionNanos = start.sessionNanos := by
  induction ops generalizing start with
  | nil => rfl
  | cons op ops ih => exact (ih _).trans (start.step_advances op).sessionNanos

/-- A row of a user stays through a run. -/
theorem registered?_run {email : String} {row : UserRow}
    (h : start.registered? email = some row) (ops : List Operation) :
    (start.run ops).registered? email = some row := by
  induction ops generalizing start with
  | nil => exact h
  | cons op ops ih =>
    rcases (start.step_advances op).registered email with hsame | ⟨_, _, _, _, _, -, -, hnone, -⟩
    · exact ih (hsame.trans h)
    · rw [h] at hnone
      cases hnone

/-- Whoever has signed up has a row with the key of the password. -/
theorem registered?_of_signedUpWith {email password : String} {user : User}
    (h : SignedUpWith start ops email password user) :
    user.email = email ∧ user.createdAt.IsRegular ∧
      ∃ hashCost, (start.run ops).registered? email = some (rowOf user hashCost password) := by
  obtain ⟨before, now, id, username, after, rfl, hok⟩ := h
  obtain ⟨huser, hnow, -, hrow⟩ := registered?_signup hok
  refine ⟨huser, hnow ▸ now.isRegular, (start.run before).hashCost, ?_⟩
  rw [run_append]
  exact registered?_run hrow after

/-- Whoever has a row has signed up, if the run begins without users. -/
theorem exists_signedUpWith {email : String} {row : UserRow} (hstart : start.users = [])
    (h : (start.run ops).registered? email = some row) :
    ∃ password user, SignedUpWith start ops email password user := by
  suffices hsign : ∃ user, SignedUp start ops email user by
    obtain ⟨user, hsign⟩ := hsign
    obtain ⟨password, hsign⟩ := signedUp_iff_signedUpWith.mp hsign
    exact ⟨password, user, hsign⟩
  induction ops using List.reverseRecOn generalizing row with
  | nil =>
    have hnone : start.registered? email = none := by rw [Accounts.registered?, hstart]; rfl
    rw [run, List.foldl_nil, hnone] at h
    cases h
  | append_singleton ops op ih =>
    rw [run_append_singleton] at h
    rcases ((start.run ops).step_advances op).registered email with
      hsame | ⟨now, id, username, password, user, hop, hok, -⟩
    · obtain ⟨user, hsign⟩ := ih (hsame.symm.trans h)
      exact ⟨user, signedUp_append_singleton.mpr (.inl hsign)⟩
    · exact ⟨user, signedUp_append_singleton.mpr (.inr ⟨now, id, username, password, hop, hok⟩)⟩

/-- The tokens of the sessions are those that logins have drawn. -/
theorem exists_login_of_mem_sessions {row : SessionRow} (hstart : start.sessions = [])
    (h : row ∈ (start.run ops).sessions) :
    ∃ now sessionNow email password, .login now sessionNow row.token email password ∈ ops := by
  induction ops using List.reverseRecOn with
  | nil =>
    rw [run, List.foldl_nil, hstart] at h
    cases h
  | append_singleton ops op ih =>
    rw [run_append_singleton] at h
    rcases ((start.run ops).step_advances op).sessions row h with
      hmem | ⟨now, sessionNow, email, password, rfl⟩
    · obtain ⟨now, sessionNow, email, password, hlogin⟩ := ih hmem
      exact ⟨now, sessionNow, email, password, List.mem_append_left _ hlogin⟩
    · exact ⟨now, sessionNow, email, password, List.mem_append_right _ (List.mem_singleton_self _)⟩

/-! ### Logins -/

theorem login_of_none {a : Accounts} (hopen : a.isOpen = true) {email : String}
    (h : a.registered? email = none) (now sessionNow : Instant) (token password : String) :
    (a.login now sessionNow token email password).1 = .error .invalidLogin := by
  rw [registered?, Option.map_eq_none_iff] at h
  rw [login, if_neg (by simp [hopen]), h]

/-- A login compares keys, and then makes a session. -/
theorem login_of_rowOf {a : Accounts} (hopen : a.isOpen = true) {email password : String}
    {user : User} {hashCost : Nat} (h : a.registered? email = some (rowOf user hashCost password))
    (hregular : user.createdAt.IsRegular) (now sessionNow : Instant) (token tried : String) :
    (a.login now sessionNow token email tried).1 =
      if Password.key tried = Password.key password then
        match sessionNow.addNanos? a.sessionNanos with
        | none => .error .lifetimeOutOfRange
        | some expiresAt =>
          if a.sessions.any (·.token = token) then .error (.keyTaken "sessions.token")
          else
            .ok (⟨user.id, user.email, user.username, .untold, user.createdAt, some now⟩,
              ⟨token, user.id, sessionNow, expiresAt⟩)
      else .error .invalidLogin := by
  obtain ⟨row, hfind, hrow⟩ := Option.map_eq_some_iff.mp h
  obtain ⟨hid, hemail, hname, hhash, htext, -⟩ := UserRow.mk.inj hrow
  have hcreated : instantOr now row.createdAt = user.createdAt := by
    rw [htext, instantOr, Instant.read?_storedText hregular]
    rfl
  rw [login, if_neg (by simp [hopen]), hfind]
  dsimp only
  rw [hhash, Password.Hash.verify?]
  by_cases hkey : Password.key tried = Password.key password
  · rw [if_pos hkey, decide_eq_true hkey.symm]
    dsimp only
    have hnanos : (a.touch now row.id).sessionNanos = a.sessionNanos := rfl
    have hsessions : (a.touch now row.id).sessions = a.sessions := rfl
    rw [createSession_eq, hnanos, hsessions, hcreated]
    cases sessionNow.addNanos? a.sessionNanos with
    | none => rfl
    | some expiresAt =>
      dsimp only
      by_cases hany : a.sessions.any (·.token = token) = true
      · rw [if_pos hany, if_pos hany]
      · rw [if_neg hany, if_neg hany, hid, hemail, hname]
  · rw [if_neg hkey, decide_eq_false (Ne.symm hkey)]

/-- **A login looks at the key of a password.** After any calls, whoever has signed up logs in with
the texts that have the key of the password, and with no others. -/
theorem run_login_keys (sessionNanos : Int) (hashCost : Nat) (ops : List Operation) :
    let start := empty sessionNanos hashCost
    let a := start.run ops
    (∀ {email password user}, start.SignedUpWith ops email password user →
      ∀ now sessionNow token tried,
        (Password.key tried ≠ Password.key password →
          (a.login now sessionNow token email tried).1 = .error .invalidLogin) ∧
        -- the token is new, and the end of the session can be written
        (Password.key tried = Password.key password →
          (∀ now sessionNow email password,
            .login now sessionNow token email password ∉ ops) →
          ∀ {expiresAt}, sessionNow.addNanos? sessionNanos = some expiresAt →
            (a.login now sessionNow token email tried).1 =
              .ok (⟨user.id, email, user.username, .untold, user.createdAt, some now⟩,
                ⟨token, user.id, sessionNow, expiresAt⟩))) ∧
    (∀ email, (∀ password user, ¬start.SignedUpWith ops email password user) →
      ∀ now sessionNow token tried,
        (a.login now sessionNow token email tried).1 = .error .invalidLogin) ∧
    -- without a NUL the first bytes decide, and a short password stands alone
    (∀ p q : String, '\x00' ∉ p.toList → '\x00' ∉ q.toList →
      (Password.key p = Password.key q ↔
        (Utf8.encode p.toList).take Password.keyLength =
          (Utf8.encode q.toList).take Password.keyLength) ∧
      ((Utf8.encode q.toList).length < Password.keyLength →
        (Password.key p = Password.key q ↔ p = q))) ∧
    -- with a NUL every password has another one beside it
    (∀ p : String, Password.key (p ++ "\x00" ++ p) = Password.key p) := by
  intro start a
  have hopen : a.isOpen = true := isOpen_run rfl ops
  refine ⟨?_, ?_, ?_, Password.key_twice⟩
  · intro email password user hsign now sessionNow token tried
    obtain ⟨huser, hregular, hashCost', hrow⟩ := registered?_of_signedUpWith hsign
    rw [login_of_rowOf hopen hrow hregular]
    refine ⟨fun hkey => if_neg hkey, fun hkey hnew expiresAt hend => ?_⟩
    have hnanos : a.sessionNanos = sessionNanos := sessionNanos_run start ops
    have hany : ¬a.sessions.any (·.token = token) = true := by
      intro hany
      obtain ⟨row, hmem, htoken⟩ := List.any_eq_true.mp hany
      obtain ⟨now', sessionNow', email', password', hlogin⟩ :=
        exists_login_of_mem_sessions rfl hmem
      exact hnew now' sessionNow' email' password' (of_decide_eq_true htoken ▸ hlogin)
    rw [if_pos hkey, hnanos, hend]
    dsimp only
    rw [if_neg hany, huser]
  · intro email hnobody now sessionNow token tried
    refine login_of_none hopen ?_ now sessionNow token tried
    cases hrow : a.registered? email with
    | none => rfl
    | some row =>
      obtain ⟨password, user, hsign⟩ := exists_signedUpWith rfl hrow
      exact absurd hsign (hnobody password user)
  · exact fun p q hp hq => ⟨Password.key_eq_iff hp hq, Password.key_eq_iff_eq hp hq⟩

/-- Somebody signs up with a password, and logs in with what writes it out twice. -/
theorem run_login_keys_twice :
    ∃ session, (((empty 1 4).run [.signup .zero "u1" "ada@lab" "Ada" "pw"]).login .zero .zero "t"
      "ada@lab" "pw\x00pw").1 =
        .ok (⟨"u1", "ada@lab", "Ada", .untold, .zero, some .zero⟩, session) := by
  obtain ⟨hlogin, -, -, htwice⟩ :=
    run_login_keys 1 4 [.signup .zero "u1" "ada@lab" "Ada" "pw"]
  have hsign : SignedUpWith (empty 1 4) [.signup .zero "u1" "ada@lab" "Ada" "pw"] "ada@lab" "pw"
      ⟨"u1", "ada@lab", "Ada", .made 4 (Password.key "pw"), .zero, none⟩ :=
    ⟨[], .zero, "u1", "Ada", [], rfl, rfl⟩
  exact ⟨_, (hlogin hsign .zero .zero "t" "pw\x00pw").2 (htwice "pw") (by simp) rfl⟩

/-- What stands behind the first 72 bytes of a password is not looked at. -/
theorem longer_password_logs_in :
    let long := List.replicate Password.keyLength 'a'
    let password := String.ofList (long ++ ['b'])
    let tried := String.ofList (long ++ ['c'])
    let ops := [.signup .zero "u1" "ada@lab" "Ada" password]
    (∃ user, SignedUpWith (empty 1 4) ops "ada@lab" password user) ∧ tried ≠ password ∧
      ∃ result, (((empty 1 4).run ops).login .zero .zero "t" "ada@lab" tried).1 = .ok result := by
  intro long password tried ops
  have hsign : SignedUpWith (empty 1 4) ops "ada@lab" password
      ⟨"u1", "ada@lab", "Ada", .made 4 (Password.key password), .zero, none⟩ :=
    ⟨[], .zero, "u1", "Ada", [], rfl, rfl⟩
  have hkey : Password.key tried = Password.key password := by
    have hlong : Password.keyLength ≤ (Utf8.encode long).length := by decide
    refine Password.key_congr ?_
    simp only [tried, password, String.toList_ofList, Utf8.encode_append]
    rw [List.take_append_of_le_length hlong, List.take_append_of_le_length hlong]
  obtain ⟨-, hregular, hashCost, hrow⟩ := registered?_of_signedUpWith hsign
  have hlogin := login_of_rowOf rfl hrow hregular .zero .zero "t" tried
  rw [if_pos hkey] at hlogin
  exact ⟨⟨_, hsign⟩, by simp [tried, password], _, hlogin⟩

end Accounts

end ChatRooms

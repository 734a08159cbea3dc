import ChatRooms.Proofs.Since
import ChatRooms.Proofs.Accounts.Ledger

/-!
What a run of calls has left behind. The ledger at the end of a run is read off the calls: a user
stands in it since the signup that succeeded, and a session from the login that issued its token to
the logout that ended it. Since accounts answer as the ledger does, this says which signups and
which validations succeed.
-/

namespace ChatRooms.Accounts

open ChatRooms.Time

/-! ### Events of a run -/

variable (start : Accounts) (ops : List Operation)

/-- In the run the user signed up with the e-mail address. -/
def SignedUp (email : String) (user : User) : Prop :=
  ∃ before, ∃ now : ClockTime, ∃ id username password after,
    ops = before ++ .signup now id email username password :: after ∧
      ((start.run before).signup now id email username password).1 = .ok user

/-- In the run the user of the e-mail address logged in, when the clock read `sessionNow`, and got
the session with the token. The token was not logged out since. -/
def LoggedIn (email token : String) (sessionNow : ClockTime) (session : Session) : Prop :=
  ∃ before, ∃ now : ClockTime, ∃ password after user,
    ops = before ++ .login now sessionNow token email password :: after ∧
      ((start.run before).login now sessionNow token email password).1 = .ok (user, session) ∧
      .logout token ∉ after

variable {start ops}

theorem signedUp_append_singleton {op : Operation} {email : String} {user : User} :
    SignedUp start (ops ++ [op]) email user ↔ SignedUp start ops email user ∨
      ∃ now : ClockTime, ∃ id username password, op = .signup now id email username password ∧
        ((start.run ops).signup now id email username password).1 = .ok user := by
  constructor
  · rintro ⟨before, now, id, username, password, after, hops, hok⟩
    rcases append_singleton_eq_append_cons.mp hops with ⟨-, rfl, hop⟩ | ⟨after', -, hops⟩
    · exact .inr ⟨now, id, username, password, hop, hok⟩
    · exact .inl ⟨before, now, id, username, password, after', hops, hok⟩
  · rintro (⟨before, now, id, username, password, after, rfl, hok⟩ |
      ⟨now, id, username, password, rfl, hok⟩)
    · exact ⟨before, now, id, username, password, after ++ [op], by simp, hok⟩
    · exact ⟨ops, now, id, username, password, [], rfl, hok⟩

theorem signedUp_append_of_ne {op : Operation} {email : String} {user : User}
    (hop : ∀ now id email username password, op ≠ .signup now id email username password) :
    SignedUp start (ops ++ [op]) email user ↔ SignedUp start ops email user := by
  rw [signedUp_append_singleton, or_iff_left]
  rintro ⟨_, _, _, _, e, -⟩
  exact hop _ _ _ _ _ e

theorem loggedIn_append_singleton {op : Operation} {email token : String}
    {sessionNow : ClockTime} {session : Session} :
    LoggedIn start (ops ++ [op]) email token sessionNow session ↔
      LoggedIn start ops email token sessionNow session ∧ op ≠ .logout token ∨
      ∃ now : ClockTime, ∃ password user, op = .login now sessionNow token email password ∧
        ((start.run ops).login now sessionNow token email password).1 = .ok (user, session) := by
  constructor
  · rintro ⟨before, now, password, after, user, hops, hok, hlast⟩
    rcases append_singleton_eq_append_cons.mp hops with ⟨-, rfl, hop⟩ | ⟨after', rfl, hops'⟩
    · exact .inr ⟨now, password, user, hop, hok⟩
    · refine .inl ⟨⟨before, now, password, after', user, hops', hok, fun hmem => hlast ?_⟩,
        fun hop => hlast ?_⟩
      · exact List.mem_append_left _ hmem
      · simp [hop]
  · rintro (⟨⟨before, now, password, after, user, rfl, hok, hlast⟩, hop⟩ |
      ⟨now, password, user, rfl, hok⟩)
    · refine ⟨before, now, password, after ++ [op], user, by simp, hok, fun hmem => ?_⟩
      rcases List.mem_append.mp hmem with hmem | hmem
      · exact hlast hmem
      · exact hop (List.mem_singleton.mp hmem).symm
    · exact ⟨ops, now, password, [], user, rfl, hok, by simp⟩

/-! ### Calls on the ledger -/

namespace Ledger

variable (l : Ledger)

/-- What a signup can do. -/
theorem signup_cases (now : Instant) (id email username password : String) :
    (∃ e, l.signup now id email username password = (.error e, l)) ∨
    ∃ hash user, l.users.get? email = none ∧ user.info = ⟨id, email, username, now⟩ ∧
      l.signup now id email username password =
        (.ok user, { l with users := l.users.insert email ⟨user.info, hash⟩ }) := by
  unfold signup
  cases hget : l.users.get? email with
  | some p => exact .inl ⟨_, rfl⟩
  | none =>
    cases hhash : Password.Hash.make? password l.hashCost with
    | none => exact .inl ⟨_, rfl⟩
    | some hash => exact .inr ⟨hash, _, rfl, rfl, rfl⟩

/-- What a login can do. -/
theorem login_cases (now sessionNow : Instant) (token email password : String) :
    (∃ e, l.login now sessionNow token email password = (.error e, l)) ∨
    ∃ p user session, l.users.get? email = some p ∧
      sessionNow.addNanos? l.sessionNanos = some session.expiresAt ∧
      l.login now sessionNow token email password = (.ok (user, session),
        { l with grants := l.grants.insert token ⟨p.info, session.expiresAt⟩ }) := by
  unfold login
  cases hget : l.users.get? email with
  | none => exact .inl ⟨_, rfl⟩
  | some p =>
    dsimp only
    cases p.hash.verify? password with
    | none => exact .inl ⟨_, rfl⟩
    | some accepted =>
      cases accepted with
      | false => exact .inl ⟨_, rfl⟩
      | true =>
        cases hend : sessionNow.addNanos? l.sessionNanos with
        | none => exact .inl ⟨_, rfl⟩
        | some expiresAt => exact .inr ⟨p, _, ⟨_, _, _, expiresAt⟩, rfl, rfl, rfl⟩

end Ledger

/-! ### The ledger remembers the run -/

/-- The ledger says what the calls of a run have left behind. -/
structure Recalls (start : Accounts) (ops : List Operation) (l : Ledger) : Prop where
  sessionNanos : l.sessionNanos = start.sessionNanos
  hashCost : l.hashCost = start.hashCost
  users : ∀ {email p}, l.users.get? email = some p →
    ∃ user, SignedUp start ops email user ∧ user.info = p.info
  signedUp : ∀ {email user}, SignedUp start ops email user →
    ∃ p, l.users.get? email = some p ∧ p.info = user.info
  grants : ∀ {token g}, l.grants.get? token = some g →
    ∃ email sessionNow session user, LoggedIn start ops email token sessionNow session ∧
      SignedUp start ops email user ∧ g = ⟨user.info, session.expiresAt⟩
  loggedIn : ∀ {email token sessionNow session},
    LoggedIn start ops email token sessionNow session →
      sessionNow.addNanos? l.sessionNanos = some session.expiresAt ∧
      ∃ p, l.users.get? email = some p ∧ l.grants.get? token = some ⟨p.info, session.expiresAt⟩

theorem Recalls.empty (start : Accounts) :
    Recalls start [] (.empty start.sessionNanos start.hashCost) where
  sessionNanos := rfl
  hashCost := rfl
  users h := by cases h
  signedUp := by
    rintro _ _ ⟨before, _, _, _, _, after, hops, -⟩
    simp at hops
  grants h := by cases h
  loggedIn := by
    rintro _ _ _ _ ⟨before, _, _, after, _, hops, -⟩
    simp at hops

namespace Recalls

variable {l : Ledger}

/-- A call that signs nobody up and issues or ends no session leaves nothing behind. -/
theorem idle (h : Recalls start ops l) {op : Operation}
    (hsignup : ∀ {now : ClockTime} {id email username password user},
      op = .signup now id email username password →
        ((start.run ops).signup now id email username password).1 ≠ .ok user)
    (hlogin : ∀ {now sessionNow : ClockTime} {token email password result},
      op = .login now sessionNow token email password →
        ((start.run ops).login now sessionNow token email password).1 ≠ .ok result)
    (hlogout : ∀ token, op ≠ .logout token) : Recalls start (ops ++ [op]) l := by
  have hsigned : ∀ {email user},
      SignedUp start (ops ++ [op]) email user ↔ SignedUp start ops email user := by
    intro email user
    rw [signedUp_append_singleton, or_iff_left]
    rintro ⟨now, id, username, password, hop, hok⟩
    exact hsignup hop hok
  have hlogged : ∀ {email token sessionNow session},
      LoggedIn start (ops ++ [op]) email token sessionNow session ↔
        LoggedIn start ops email token sessionNow session := by
    intro email token sessionNow session
    rw [loggedIn_append_singleton, or_iff_left, and_iff_left (hlogout token)]
    rintro ⟨now, password, user, hop, hok⟩
    exact hlogin hop hok
  exact
    { sessionNanos := h.sessionNanos
      hashCost := h.hashCost
      users := fun hget => by
        obtain ⟨user, hsign, hinfo⟩ := h.users hget
        exact ⟨user, hsigned.mpr hsign, hinfo⟩
      signedUp := fun hsign => h.signedUp (hsigned.mp hsign)
      grants := fun hget => by
        obtain ⟨email, sessionNow, session, user, hlog, hsign, hg⟩ := h.grants hget
        exact ⟨email, sessionNow, session, user, hlogged.mpr hlog, hsigned.mpr hsign, hg⟩
      loggedIn := fun hlog => h.loggedIn (hlogged.mp hlog) }

theorem signup (h : Recalls start ops l) (hm : Matches (start.run ops) l) (now : ClockTime)
    {id : String} (email username password : String)
    (hfresh : (start.run ops).users.any (·.id = id) = false) :
    Recalls start (ops ++ [.signup now id email username password])
      (l.signup now id email username password).2 := by
  obtain ⟨hanswer, -⟩ := hm.signup now email username password hfresh
  rcases l.signup_cases now id email username password with ⟨e, he⟩ | ⟨hash, user, hget, -, hok⟩
  · rw [he] at hanswer ⊢
    refine h.idle (fun hop => ?_) (fun hop => by cases hop) (fun _ hop => by cases hop)
    cases hop
    rw [hanswer]
    simp
  · rw [hok] at hanswer ⊢
    exact
      { sessionNanos := h.sessionNanos
        hashCost := h.hashCost
        users := fun {email' p} hget' => by
          rw [Table.get?_insert] at hget'
          split at hget'
          · rename_i hemail
            cases hget'
            exact ⟨user, signedUp_append_singleton.mpr
              (.inr ⟨now, id, username, password, by rw [hemail], hemail ▸ hanswer⟩), rfl⟩
          · obtain ⟨user', hsign, hinfo⟩ := h.users hget'
            exact ⟨user', signedUp_append_singleton.mpr (.inl hsign), hinfo⟩
        signedUp := fun {email' user'} hsign => by
          rcases signedUp_append_singleton.mp hsign with
            hsign | ⟨now', id', username', password', hop, hok'⟩
          · obtain ⟨p, hp, hinfo⟩ := h.signedUp hsign
            have hne : email ≠ email' := by
              rintro rfl
              rw [hget] at hp
              cases hp
            exact ⟨p, by rw [Table.get?_insert, if_neg hne, hp], hinfo⟩
          · cases hop
            rw [hanswer] at hok'
            cases hok'
            exact ⟨_, Table.get?_insert_self .., rfl⟩
        grants := fun hg => by
          obtain ⟨email', sessionNow, session, user', hlog, hsign, hg⟩ := h.grants hg
          exact ⟨email', sessionNow, session, user',
            loggedIn_append_singleton.mpr (.inl ⟨hlog, by simp⟩),
            signedUp_append_singleton.mpr (.inl hsign), hg⟩
        loggedIn := fun {email' token sessionNow session} hlog => by
          rcases loggedIn_append_singleton.mp hlog with ⟨hlog, -⟩ | ⟨_, _, _, hop, -⟩
          · obtain ⟨hend, p, hp, hg⟩ := h.loggedIn hlog
            have hne : email ≠ email' := by
              rintro rfl
              rw [hget] at hp
              cases hp
            exact ⟨hend, p, by rw [Table.get?_insert, if_neg hne, hp], hg⟩
          · cases hop }

theorem login (h : Recalls start ops l) (hm : Matches (start.run ops) l)
    (now sessionNow : ClockTime) {token : String} (email password : String)
    (hfresh : (start.run ops).sessions.any (·.token = token) = false) :
    Recalls start (ops ++ [.login now sessionNow token email password])
      (l.login now sessionNow token email password).2 := by
  obtain ⟨hanswer, -⟩ := hm.login now sessionNow email password hfresh
  rw [hm.any_token, Option.isSome_eq_false_iff, Option.isNone_iff_eq_none] at hfresh
  rcases l.login_cases now sessionNow token email password with
    ⟨e, he⟩ | ⟨p, user, session, hp, hend, hok⟩
  · rw [he] at hanswer ⊢
    refine h.idle (fun hop => by cases hop) (fun hop => ?_) (fun _ hop => by cases hop)
    cases hop
    rw [hanswer]
    simp
  · rw [hok] at hanswer ⊢
    have hsigned : ∀ {email' user'},
        SignedUp start (ops ++ [.login now sessionNow token email password]) email' user' ↔
          SignedUp start ops email' user' :=
      signedUp_append_of_ne fun _ _ _ _ _ hop => by cases hop
    exact
      { sessionNanos := h.sessionNanos
        hashCost := h.hashCost
        users := fun hget => by
          obtain ⟨user', hsign, hinfo⟩ := h.users hget
          exact ⟨user', hsigned.mpr hsign, hinfo⟩
        signedUp := fun hsign => h.signedUp (hsigned.mp hsign)
        grants := fun {token' g} hg => by
          rw [Table.get?_insert] at hg
          split at hg
          · rename_i htoken
            cases hg
            obtain ⟨user', hsign, hinfo⟩ := h.users hp
            subst htoken
            exact ⟨email, sessionNow, session, user', loggedIn_append_singleton.mpr
              (.inr ⟨now, password, user, rfl, hanswer⟩), hsigned.mpr hsign, by rw [hinfo]⟩
          · obtain ⟨email', sessionNow', session', user', hlog, hsign, hg⟩ := h.grants hg
            exact ⟨email', sessionNow', session', user',
              loggedIn_append_singleton.mpr (.inl ⟨hlog, by simp⟩), hsigned.mpr hsign, hg⟩
        loggedIn := fun {email' token' sessionNow' session'} hlog => by
          rcases loggedIn_append_singleton.mp hlog with
            ⟨hlog, -⟩ | ⟨now', password', user', hop, hok'⟩
          · obtain ⟨hend', p', hp', hg⟩ := h.loggedIn hlog
            -- the token is new, so that it is not the one of an earlier session
            have hne : token ≠ token' := by
              rintro rfl
              rw [hfresh] at hg
              cases hg
            exact ⟨hend', p', hp', by rw [Table.get?_insert, if_neg hne, hg]⟩
          · cases hop
            rw [hanswer] at hok'
            cases hok'
            exact ⟨hend, p, hp, Table.get?_insert_self ..⟩ }

theorem logout (h : Recalls start ops l) (token : String) :
    Recalls start (ops ++ [.logout token]) (l.logout token) := by
  have hsigned : ∀ {email user},
      SignedUp start (ops ++ [.logout token]) email user ↔ SignedUp start ops email user :=
    signedUp_append_of_ne fun _ _ _ _ _ hop => by cases hop
  exact
    { sessionNanos := h.sessionNanos
      hashCost := h.hashCost
      users := fun hget => by
        obtain ⟨user, hsign, hinfo⟩ := h.users hget
        exact ⟨user, hsigned.mpr hsign, hinfo⟩
      signedUp := fun hsign => h.signedUp (hsigned.mp hsign)
      grants := fun {token' g} hg => by
        unfold Ledger.logout at hg
        rw [Table.get?_erase] at hg
        split at hg
        · cases hg
        · rename_i htoken
          obtain ⟨email, sessionNow, session, user, hlog, hsign, hg⟩ := h.grants hg
          exact ⟨email, sessionNow, session, user,
            loggedIn_append_singleton.mpr (.inl ⟨hlog, by simpa using htoken⟩),
            hsigned.mpr hsign, hg⟩
      loggedIn := fun {email token' sessionNow session} hlog => by
        rcases loggedIn_append_singleton.mp hlog with ⟨hlog, hop⟩ | ⟨_, _, _, hop, -⟩
        · obtain ⟨hend, p, hp, hg⟩ := h.loggedIn hlog
          have hne : token ≠ token' := fun htoken => hop (by rw [htoken])
          exact ⟨hend, p, hp, by rw [Ledger.logout, Table.get?_erase, if_neg hne, hg]⟩
        · cases hop }

theorem step (h : Recalls start ops l) (hm : Matches (start.run ops) l) {op : Operation}
    (hfresh : op.isFresh (start.run ops) = true) :
    Recalls start (ops ++ [op]) (l.step op).2 := by
  cases op with
  | signup now id email username password =>
    exact h.signup hm now email username password (by simpa [Operation.isFresh] using hfresh)
  | login now sessionNow token email password =>
    exact h.login hm now sessionNow email password (by simpa [Operation.isFresh] using hfresh)
  | logout token => exact h.logout token
  | validate | findUser | restart =>
    exact h.idle (fun hop => by cases hop) (fun hop => by cases hop) (fun _ hop => by cases hop)

end Recalls

/-- After a run accounts and ledger say the same, and the ledger what the calls left behind. -/
theorem recalls_run {l : Ledger} (hm : Matches start l) (hr : Recalls start [] l)
    (hfresh : start.drawsFresh ops = true) : Recalls start ops (l.run ops) := by
  induction ops using List.reverseRecOn with
  | nil => exact hr
  | append_singleton ops op ih =>
    rw [drawsFresh_append, Bool.and_eq_true] at hfresh
    obtain ⟨hops, hop⟩ := hfresh
    rw [drawsFresh, Bool.and_eq_true] at hop
    have hnext := (ih hops).step (hm.run hops).2 hop.1
    rwa [Ledger.run, List.foldl_append]

/-! ### What accounts answer after a run -/

section Answers

variable {a : Accounts} {l : Ledger}

/-- A signup with a new identifier succeeds if the password has a hash and the address is new. -/
theorem signup_ok_iff (hm : Matches a l) (now : Instant) {id : String}
    (email username : String) {password : String} (hfresh : a.users.any (·.id = id) = false)
    (hhash : (Password.Hash.make? password l.hashCost).isSome) :
    (∃ user, (a.signup now id email username password).1 = .ok user) ↔
      l.users.get? email = none := by
  rw [(hm.signup now email username password hfresh).1]
  unfold Ledger.signup
  cases l.users.get? email with
  | some p => simp
  | none =>
    obtain ⟨hash, hhash⟩ := Option.isSome_iff_exists.mp hhash
    simp [hhash]

theorem validateSession_ok_iff (hm : Matches a l) (now : Instant) (token : String)
    (info : UserInfo) :
    (a.validateSession now token).1 = .ok info ↔
      ∃ g, l.grants.get? token = some g ∧ now.before g.expiresAt = true ∧ info = g.info := by
  rw [(hm.validateSession now token).1]
  unfold Ledger.validate Instant.notAfter
  cases l.grants.get? token with
  | none => simp
  | some g =>
    cases hbefore : now.before g.expiresAt with
    | false => simp [hbefore]
    | true => simp [hbefore, @eq_comm _ info]

end Answers

/-- **Accounts are a ledger.** Whatever calls are made one after the other, with whatever readings
of the clock, each has the answer of the ledger, which keeps a user for each e-mail address and a
user with an instant for each token. -/
theorem run_answers_ledger {sessionNanos : Int} {hashCost : Nat} {ops : List Operation}
    (hfresh : (empty sessionNanos hashCost).drawsFresh ops = true) :
    let start := empty sessionNanos hashCost
    let a := start.run ops
    start.answers ops = (Ledger.empty sessionNanos hashCost).answers ops ∧
    -- a signup succeeds if nobody has signed up with its e-mail address
    (a.users.map (·.email)).Nodup ∧
    (∀ now id email username password, a.users.any (·.id = id) = false →
      (Password.Hash.make? password hashCost).isSome →
      ((∃ user, (a.signup now id email username password).1 = .ok user) ↔
        ∀ user, ¬start.SignedUp ops email user)) ∧
    -- a token is good from its login to its logout, before the session ends
    (∀ now token info, (a.validateSession now token).1 = .ok info ↔
      ∃ email user sessionNow session, start.SignedUp ops email user ∧
        start.LoggedIn ops email token sessionNow session ∧
        now.before session.expiresAt = true ∧ info = user.info) ∧
    (∀ email token sessionNow session, start.LoggedIn ops email token sessionNow session →
      sessionNow.addNanos? sessionNanos = some session.expiresAt ∧
      (sessionNow.nanos < nanosPerSecond →
        session.expiresAt.sinceEpoch = sessionNow.sinceEpoch + sessionNanos)) ∧
    -- what is remembered, and the end of another session, changes no answer
    (∀ now token more, a.drawsFresh more = true →
      (a.validateSession now token).2.answers more = a.answers more) ∧
    (∀ more, a.drawsFresh more = true → a.restart.answers more = a.answers more) ∧
    (∀ now token other, other ≠ token →
      ((a.logout token).2.validateSession now other).1 = (a.validateSession now other).1) := by
  intro start a
  have hempty := Matches.empty sessionNanos hashCost
  obtain ⟨hanswers, hm⟩ := hempty.run hfresh
  have hr := recalls_run hempty (.empty start) hfresh
  set l := (Ledger.empty sessionNanos hashCost).run ops
  have hnanos : l.sessionNanos = sessionNanos := hr.sessionNanos
  have hcost : l.hashCost = hashCost := hr.hashCost
  refine ⟨hanswers, hm.nodup_emails, ?_, ?_, ?_, ?_, ?_, ?_⟩
  · intro now id email username password hid hhash
    rw [signup_ok_iff hm now email username hid (hcost ▸ hhash)]
    constructor
    · intro hget user hsign
      obtain ⟨p, hp, -⟩ := hr.signedUp hsign
      rw [hget] at hp
      cases hp
    · intro hnobody
      cases hget : l.users.get? email with
      | none => rfl
      | some p =>
        obtain ⟨user, hsign, -⟩ := hr.users hget
        exact absurd hsign (hnobody user)
  · intro now token info
    rw [validateSession_ok_iff hm]
    constructor
    · rintro ⟨g, hg, hbefore, rfl⟩
      obtain ⟨email, sessionNow, session, user, hlog, hsign, rfl⟩ := hr.grants hg
      exact ⟨email, user, sessionNow, session, hsign, hlog, hbefore, rfl⟩
    · rintro ⟨email, user, sessionNow, session, hsign, hlog, hbefore, rfl⟩
      obtain ⟨-, p, hp, hg⟩ := hr.loggedIn hlog
      obtain ⟨p', hp', hinfo⟩ := hr.signedUp hsign
      rw [hp] at hp'
      cases hp'
      exact ⟨_, hg, hbefore, hinfo.symm⟩
  · intro email token sessionNow session hlog
    obtain ⟨hend, -⟩ := hr.loggedIn hlog
    rw [hnanos] at hend
    exact ⟨hend, fun hleap => Instant.sinceEpoch_addNanos? hleap hend⟩
  · intro now token more hmore
    exact (hm.answers_eq (hm.validateSession now token).2 hmore).symm
  · intro more hmore
    exact (hm.answers_eq hm.restart hmore).symm
  · intro now token other hne
    rw [((hm.logout token).2.validateSession now other).1, (hm.validateSession now other).1]
    unfold Ledger.validate Ledger.logout
    rw [Table.get?_erase, if_neg (Ne.symm hne)]

/-- Somebody signs up and logs in, and a new process begins. -/
def returning : List Operation :=
  [.signup .zero "u1" "ada@lab" "Ada" "pw", .login .zero .zero "t" "ada@lab" "pw", .restart]

theorem run_answers_ledger_returning :
    (empty 1 4).drawsFresh returning = true ∧
    (((empty 1 4).run returning).validateSession .zero "t").1 =
      .ok ⟨"u1", "ada@lab", "Ada", .zero⟩ := by
  have hfresh : (empty 1 4).drawsFresh returning = true := rfl
  obtain ⟨-, -, -, hvalid, -⟩ := run_answers_ledger hfresh
  refine ⟨hfresh, (hvalid .zero "t" _).mpr ⟨"ada@lab", _, .zero, _,
    ⟨[], .zero, "u1", "Ada", "pw", returning.tail, rfl, rfl⟩,
    ⟨returning.take 1, .zero, "pw", [.restart], _, rfl, rfl, by simp⟩, rfl, rfl⟩⟩

end ChatRooms.Accounts

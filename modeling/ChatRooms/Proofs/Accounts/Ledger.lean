import Mathlib.Data.List.Forall2
import Mathlib.Data.List.Induction
import Mathlib.Data.List.Nodup
import ChatRooms.Accounts.Operation
import ChatRooms.Proofs.Time.RoundTrip

/-!
Accounts as a ledger. What accounts answer is what a ledger answers that has no cache, no rows and
no texts: it knows the user of each e-mail address, and of each token the user and the instant at
which the session ends. `Matches` says how accounts and ledger stand to each other; every call keeps
it and has the same answer on both sides.
-/

namespace ChatRooms

open ChatRooms.Time

namespace Accounts

/-! ### The ledger -/

/-- A user in the ledger. -/
structure Profile where
  info : UserInfo
  hash : Password.Hash
deriving DecidableEq

/-- A session in the ledger: whose it is, and when it ends. -/
structure Grant where
  info : UserInfo
  expiresAt : Instant
deriving DecidableEq

/-- The users by their e-mail addresses, and the sessions by their tokens. -/
structure Ledger where
  users : Table String Profile
  grants : Table String Grant
  sessionNanos : Int
  hashCost : Nat

namespace Ledger

def empty (sessionNanos : Int) (hashCost : Nat) : Ledger := ⟨[], [], sessionNanos, hashCost⟩

variable (l : Ledger)

def signup (now : Instant) (id email username password : String) :
    Except AccountError User × Ledger :=
  match l.users.get? email with
  | some _ => (.error .emailTaken, l)
  | none =>
    match Password.Hash.make? password l.hashCost with
    | none => (.error .hashFailed, l)
    | some hash =>
      (.ok ⟨id, email, username, hash, now, none⟩,
        { l with users := l.users.insert email ⟨⟨id, email, username, now⟩, hash⟩ })

def login (now sessionNow : Instant) (token email password : String) :
    Except AccountError (User × Session) × Ledger :=
  match l.users.get? email with
  | none => (.error .invalidLogin, l)
  | some p =>
    match p.hash.verify? password with
    | none => (.error .unreadableHash, l)
    | some false => (.error .invalidLogin, l)
    | some true =>
      match sessionNow.addNanos? l.sessionNanos with
      | none => (.error .lifetimeOutOfRange, l)
      | some expiresAt =>
        (.ok (⟨p.info.id, p.info.email, p.info.username, .untold, p.info.createdAt, some now⟩,
            ⟨token, p.info.id, sessionNow, expiresAt⟩),
          { l with grants := l.grants.insert token ⟨p.info, expiresAt⟩ })

def validate (now : Instant) (token : String) : Except AccountError UserInfo :=
  match l.grants.get? token with
  | none => .error .invalidSession
  | some g => if g.expiresAt.notAfter now then .error .invalidSession else .ok g.info

def logout (token : String) : Ledger := { l with grants := l.grants.erase token }

def findUser (userId : String) : Option UserInfo :=
  (l.users.find? (·.2.info.id = userId)).map (·.2.info)

/-- Carries out a call. -/
def step : Operation → Answer × Ledger
  | .signup now id email username password =>
    let (r, l) := l.signup now id email username password
    (.signedUp r, l)
  | .login now sessionNow token email password =>
    let (r, l) := l.login now sessionNow token email password
    (.loggedIn r, l)
  | .validate now token => (.validated (l.validate now token), l)
  | .logout token => (.loggedOut (.ok ()), l.logout token)
  | .findUser _ userId => (.found (.ok (l.findUser userId)), l)
  | .restart => (.done, l)

/-- The ledger after calls in order. -/
def run (ops : List Operation) : Ledger := ops.foldl (fun l op => (l.step op).2) l

/-- The answers to calls in order. -/
def answers (l : Ledger) : List Operation → List Answer
  | [] => []
  | op :: ops => (l.step op).1 :: answers (l.step op).2 ops

end Ledger

/-! ### Calls with fresh identifiers and tokens -/

/-- What a call draws is new: no user has the identifier, and no session has the token. -/
def Operation.isFresh (a : Accounts) : Operation → Bool
  | .signup _ id .. => !a.users.any (·.id = id)
  | .login _ _ token .. => !a.sessions.any (·.token = token)
  | _ => true

/-- Every call of a run draws something new. -/
def drawsFresh (a : Accounts) : List Operation → Bool
  | [] => true
  | op :: ops => op.isFresh a && drawsFresh (a.step op).2 ops

theorem drawsFresh_append (a : Accounts) (ops more : List Operation) :
    a.drawsFresh (ops ++ more) = (a.drawsFresh ops && (a.run ops).drawsFresh more) := by
  induction ops generalizing a with
  | nil => rfl
  | cons op ops ih =>
    rw [List.cons_append, drawsFresh, drawsFresh, ih, Bool.and_assoc]
    rfl

theorem run_append (a : Accounts) (ops more : List Operation) :
    a.run (ops ++ more) = (a.run ops).run more := List.foldl_append

/-! ### Accounts and ledger -/

/-- A row and an entry of the ledger are about the same user. -/
structure SameUser (row : UserRow) (entry : String × Profile) : Prop where
  key : row.email = entry.1
  id : row.id = entry.2.info.id
  email : row.email = entry.2.info.email
  username : row.username = entry.2.info.username
  hash : row.passwordHash = entry.2.hash
  createdAt : row.createdAt = entry.2.info.createdAt.storedText
  isRegular : entry.2.info.createdAt.IsRegular

/-- A row and an entry of the ledger are about the same session. -/
structure SameSession (row : SessionRow) (g : Grant) : Prop where
  userId : row.userId = g.info.id
  expiresAt : row.expiresAt = g.expiresAt.storedText
  isRegular : g.expiresAt.IsRegular

/-- The accounts and the ledger say the same: each row of a user and of a session stands in the
ledger, and what the cache remembers does too. -/
structure Matches (a : Accounts) (l : Ledger) : Prop where
  isOpen : a.isOpen = true
  sessionNanos : a.sessionNanos = l.sessionNanos
  hashCost : a.hashCost = l.hashCost
  users : List.Forall₂ SameUser a.users l.users
  emails : (l.users.map (·.1)).Nodup
  ids : (l.users.map (·.2.info.id)).Nodup
  sessions : ∀ token,
    Option.Rel SameSession (a.sessions.find? (·.token = token)) (l.grants.get? token)
  remembered : ∀ {token session}, a.cache.get? token = some session → ∃ g,
    l.grants.get? token = some g ∧ session.userId = g.info.id ∧ session.expiresAt = g.expiresAt
  granted : ∀ {token g}, l.grants.get? token = some g → ∃ entry ∈ l.users, entry.2.info = g.info

theorem Matches.empty (sessionNanos : Int) (hashCost : Nat) :
    Matches (.empty sessionNanos hashCost) (.empty sessionNanos hashCost) where
  isOpen := rfl
  sessionNanos := rfl
  hashCost := rfl
  users := .nil
  emails := List.nodup_nil
  ids := List.nodup_nil
  sessions _ := .none
  remembered h := by cases h
  granted h := by cases h

/-- Lists whose elements are related have related first elements of a kind. -/
theorem find?_rel {α β : Type} {R : α → β → Prop} {p : α → Bool} {q : β → Bool} {xs : List α}
    {ys : List β} (h : List.Forall₂ R xs ys) (hpq : ∀ {x y}, R x y → p x = q y) :
    Option.Rel R (xs.find? p) (ys.find? q) := by
  induction h with
  | nil => exact .none
  | @cons x y xs ys hxy _ ih =>
    rw [List.find?_cons, List.find?_cons, hpq hxy]
    cases q y with
    | true => exact .some hxy
    | false => exact ih

theorem any_eq_of_find?_rel {α β : Type} {R : α → β → Prop} {p : α → Bool} {xs : List α}
    {o : Option β} (h : Option.Rel R (xs.find? p) o) : xs.any p = o.isSome := by
  rw [← List.isSome_find?]
  generalize xs.find? p = found at h
  cases h <;> rfl

namespace SameUser

variable {row : UserRow} {entry : String × Profile}

/-- The row is shown as the ledger has it, whatever the clock says. -/
theorem info (h : SameUser row entry) (now : Instant) : UserRow.info now row = entry.2.info := by
  unfold UserRow.info instantOr
  rw [h.createdAt, Instant.read?_storedText h.isRegular, h.id, h.email, h.username]
  rfl

end SameUser

namespace Matches

variable {a : Accounts} {l : Ledger}

/-! ### Look-ups -/

/-- The row of an e-mail address and the entry of the address are about the same user. -/
theorem findEmail (h : Matches a l) (email : String) :
    Option.Rel SameUser (a.users.find? (·.email = email)) (l.users.find? (·.1 = email)) :=
  find?_rel h.users fun hsame => by rw [hsame.key]

/-- No two users have the same e-mail address. -/
theorem nodup_emails (h : Matches a l) : (a.users.map (·.email)).Nodup := by
  have hkeys : a.users.map (·.email) = l.users.map (·.1) := by
    rw [← List.forall₂_eq_eq_eq, List.forall₂_map_left_iff, List.forall₂_map_right_iff]
    exact h.users.imp fun _ _ hsame => hsame.key
  exact hkeys ▸ h.emails

theorem findId (h : Matches a l) (userId : String) :
    Option.Rel SameUser (a.users.find? (·.id = userId))
      (l.users.find? (·.2.info.id = userId)) :=
  find?_rel h.users fun hsame => by rw [hsame.id]

theorem findUser_eq (h : Matches a l) (now : Instant) (userId : String) :
    a.findUser now userId = .ok (l.findUser userId) := by
  unfold findUser Ledger.findUser
  rw [h.isOpen]
  cases hrow : a.users.find? (·.id = userId) <;> cases hentry : l.users.find? (·.2.info.id = userId)
  all_goals
    have hsame := h.findId userId
    rw [hrow, hentry] at hsame
    cases hsame
  · rfl
  · rename_i hsame
    simp [hsame.info now]

/-- The user of a session in the ledger is found by its identifier. -/
theorem findUser_granted (h : Matches a l) {token : String} {g : Grant}
    (hg : l.grants.get? token = some g) : l.findUser g.info.id = some g.info := by
  obtain ⟨entry, hmem, hinfo⟩ := h.granted hg
  unfold Ledger.findUser
  cases hfind : l.users.find? (·.2.info.id = g.info.id) with
  | none =>
    have hno := List.find?_eq_none.mp hfind entry hmem
    simp [hinfo] at hno
  | some found =>
    have hid : found.2.info.id = entry.2.info.id := by
      rw [hinfo]
      simpa using List.find?_some hfind
    have he : found = entry :=
      List.inj_on_of_nodup_map h.ids (List.mem_of_find?_eq_some hfind) hmem hid
    rw [he, Option.map_some, hinfo]

/-- The freshness of a call can be read off the ledger. -/
theorem any_id (h : Matches a l) (id : String) :
    a.users.any (·.id = id) = (l.users.find? (·.2.info.id = id)).isSome :=
  any_eq_of_find?_rel (h.findId id)

theorem any_token (h : Matches a l) (token : String) :
    a.sessions.any (·.token = token) = (l.grants.get? token).isSome :=
  any_eq_of_find?_rel (h.sessions token)

/-! ### Each call -/

theorem forget (h : Matches a l) (token : String) : Matches (a.forget token) l :=
  { h with
    remembered := fun {token' session} hs => by
      refine @remembered _ _ h token' session ?_
      unfold Accounts.forget at hs
      rw [Table.get?_erase] at hs
      split at hs
      · cases hs
      · exact hs }

theorem remember (h : Matches a l) {session : Session} {g : Grant}
    (hg : l.grants.get? session.token = some g) (hid : session.userId = g.info.id)
    (hend : session.expiresAt = g.expiresAt) : Matches (a.remember session) l :=
  { h with
    remembered := fun {token' session'} hs => by
      unfold Accounts.remember at hs
      rw [Table.get?_insert] at hs
      split at hs
      · rename_i htoken
        cases hs
        exact ⟨g, htoken ▸ hg, hid, hend⟩
      · exact h.remembered hs }

/-- A new user with a new address and a new identifier. -/
theorem addUser (h : Matches a l) {row : UserRow} {p : Profile} {email : String}
    (hsame : SameUser row (email, p)) (hget : l.users.get? email = none)
    (hfresh : a.users.any (·.id = p.info.id) = false) :
    Matches { a with users := a.users ++ [row] } { l with users := l.users.insert email p } := by
  have hnewId : p.info.id ∉ l.users.map (·.2.info.id) := by
    intro hmem
    obtain ⟨entry, hentry, hid⟩ := List.mem_map.mp hmem
    rw [h.any_id, Option.isSome_eq_false_iff, Option.isNone_iff_eq_none] at hfresh
    simpa [hid] using List.find?_eq_none.mp hfresh entry hentry
  have hnewEmail : email ∉ l.users.map (·.1) := by
    intro hmem
    obtain ⟨entry, hentry, hkey⟩ := List.mem_map.mp hmem
    have hnone := hget
    rw [Table.get?_eq_find?, Option.map_eq_none_iff] at hnone
    simpa [hkey] using List.find?_eq_none.mp hnone entry hentry
  rw [Table.insert_of_get?_eq_none hget]
  exact
    { h with
      users := List.rel_append h.users (.cons hsame .nil)
      emails := by
        rw [List.map_append, List.map_singleton, ← List.concat_eq_append]
        exact h.emails.concat hnewEmail
      ids := by
        rw [List.map_append, List.map_singleton, ← List.concat_eq_append]
        exact h.ids.concat hnewId
      granted := fun hg => by
        obtain ⟨entry, hmem, hinfo⟩ := h.granted hg
        exact ⟨entry, List.mem_append_left _ hmem, hinfo⟩ }

theorem signup (h : Matches a l) (now : Instant) {id : String} (email username password : String)
    (hfresh : a.users.any (·.id = id) = false) :
    (a.signup now id email username password).1 = (l.signup now id email username password).1 ∧
      (now.IsRegular → Matches (a.signup now id email username password).2
        (l.signup now id email username password).2) := by
  have hany : a.users.any (·.email = email) = (l.users.get? email).isSome := by
    rw [any_eq_of_find?_rel (h.findEmail email), Table.get?_eq_find?, Option.isSome_map]
  unfold Accounts.signup Ledger.signup
  rw [if_neg (by simp [h.isOpen]), hany, hfresh, h.hashCost]
  cases hget : l.users.get? email with
  | some p => exact ⟨rfl, fun _ => h⟩
  | none =>
    cases Password.Hash.make? password l.hashCost with
    | none => exact ⟨rfl, fun _ => h⟩
    | some hash =>
      refine ⟨rfl, fun hnow => ?_⟩
      have hsame : SameUser ⟨id, email, username, hash, now.storedText, none⟩
          (email, ⟨⟨id, email, username, now⟩, hash⟩) := ⟨rfl, rfl, rfl, rfl, rfl, rfl, hnow⟩
      have hadded := h.addUser hsame hget hfresh
      rw [h.hashCost] at hadded
      exact hadded

/-- The note of a login is not in the ledger. -/
theorem touch (h : Matches a l) (now : Instant) (userId : String) :
    Matches (a.touch now userId) l :=
  { h with
    users := by
      refine List.forall₂_map_left_iff.mpr (h.users.imp fun row entry hsame => ?_)
      split
      · exact ⟨hsame.key, hsame.id, hsame.email, hsame.username, hsame.hash, hsame.createdAt,
          hsame.isRegular⟩
      · exact hsame }

/-- A new session is stored and remembered. -/
theorem createSession (h : Matches a l) {now expiresAt : Instant} {token : String}
    {entry : String × Profile} (hentry : entry ∈ l.users)
    (hend : now.addNanos? l.sessionNanos = some expiresAt)
    (hfresh : a.sessions.any (·.token = token) = false) :
    ∃ a', a.createSession now token entry.2.info.id =
        (.ok ⟨token, entry.2.info.id, now, expiresAt⟩, a') ∧
      (now.IsRegular →
        Matches a' { l with grants := l.grants.insert token ⟨entry.2.info, expiresAt⟩ }) := by
  let row : SessionRow := ⟨token, entry.2.info.id, now.storedText, expiresAt.storedText⟩
  have hstored : now.IsRegular → Matches { a with sessions := a.sessions ++ [row] }
      { l with grants := l.grants.insert token ⟨entry.2.info, expiresAt⟩ } := fun hnow =>
    { h with
      sessions := fun token' => by
        have hsame := h.sessions token'
        rw [List.find?_append, Table.get?_insert]
        by_cases htoken : token = token'
        · subst htoken
          rw [List.isSome_find?.symm, Option.isSome_eq_false_iff, Option.isNone_iff_eq_none]
            at hfresh
          rw [hfresh, if_pos rfl]
          simp only [Option.none_or, List.find?_cons, row, decide_true]
          exact .some ⟨rfl, rfl, hnow.addNanos? hend⟩
        · rw [if_neg htoken]
          simpa [row, htoken] using hsame
      remembered := fun {token' session} hs => by
        obtain ⟨g, hg, hid, hexp⟩ := h.remembered hs
        have hne : token ≠ token' := by
          rintro rfl
          rw [h.any_token, hg] at hfresh
          cases hfresh
        exact ⟨g, by rw [Table.get?_insert, if_neg hne, hg], hid, hexp⟩
      granted := fun {token' g} hg => by
        rw [Table.get?_insert] at hg
        split at hg
        · cases hg
          exact ⟨entry, hentry, rfl⟩
        · exact h.granted hg }
  have hgranted := Table.get?_insert_self l.grants token ⟨entry.2.info, expiresAt⟩
  refine ⟨_, ?_, fun hnow =>
    @remember _ _ (hstored hnow) ⟨token, entry.2.info.id, now, expiresAt⟩ _ hgranted rfl rfl⟩
  unfold Accounts.createSession storeSession
  rw [h.sessionNanos, hend]
  dsimp only
  rw [hfresh]
  rfl

theorem login (h : Matches a l) (now sessionNow : Instant) {token : String}
    (email password : String) (hfresh : a.sessions.any (·.token = token) = false) :
    (a.login now sessionNow token email password).1 =
        (l.login now sessionNow token email password).1 ∧
      (sessionNow.IsRegular → Matches (a.login now sessionNow token email password).2
        (l.login now sessionNow token email password).2) := by
  have hfind := h.findEmail email
  unfold Accounts.login Ledger.login
  rw [if_neg (by simp [h.isOpen]), Table.get?_eq_find?]
  cases hrow : a.users.find? (·.email = email) <;> cases hentry : l.users.find? (·.1 = email)
  all_goals
    rw [hrow, hentry] at hfind
    cases hfind
  · exact ⟨rfl, fun _ => h⟩
  · rename_i row entry hsame
    rw [Option.map_some]
    dsimp only
    rw [hsame.hash]
    cases entry.2.hash.verify? password with
    | none => exact ⟨rfl, fun _ => h⟩
    | some accepted =>
      cases accepted with
      | false => exact ⟨rfl, fun _ => h⟩
      | true =>
        dsimp only
        have htouched := h.touch now row.id
        rw [hsame.id] at htouched ⊢
        cases hend : sessionNow.addNanos? l.sessionNanos with
        | none =>
          unfold Accounts.createSession storeSession
          rw [htouched.sessionNanos, hend]
          exact ⟨rfl, fun _ => htouched⟩
        | some expiresAt =>
          obtain ⟨a', hcreate, hmatches⟩ :=
            htouched.createSession (List.mem_of_find?_eq_some hentry) hend hfresh
          rw [hcreate]
          exact ⟨by simp [← hsame.info now, UserRow.info], hmatches⟩

theorem grant (h : Matches a l) (now : Instant) {token : String} {session : Session} {g : Grant}
    (hg : l.grants.get? token = some g) (hid : session.userId = g.info.id)
    (hend : session.expiresAt = g.expiresAt) :
    (a.grant now token session).1 = l.validate now token ∧
      Matches (a.grant now token session).2 l := by
  unfold Accounts.grant Ledger.validate getUser
  rw [hg, hend, hid, h.findUser_eq, h.findUser_granted hg]
  dsimp only
  split
  · exact ⟨rfl, h.forget token⟩
  · exact ⟨rfl, h⟩

/-- A session that is not remembered is read from its row as the ledger has it. -/
theorem storedSession (h : Matches a l) (now : Instant) (token : String) :
    a.storedSession now token = .error .invalidSession ∧ l.grants.get? token = none ∨
    ∃ session g, a.storedSession now token = .ok session ∧ l.grants.get? token = some g ∧
      session.token = token ∧ session.userId = g.info.id ∧ session.expiresAt = g.expiresAt := by
  have hsame := h.sessions token
  unfold Accounts.storedSession
  rw [if_neg (by simp [h.isOpen])]
  cases hrow : a.sessions.find? (·.token = token) <;> cases hg : l.grants.get? token
  all_goals
    rw [hrow, hg] at hsame
    cases hsame
  · exact .inl ⟨rfl, rfl⟩
  · rename_i row g hsame
    have htoken : row.token = token := by simpa using List.find?_some hrow
    refine .inr ⟨⟨row.token, row.userId, instantOr now row.createdAt, g.expiresAt⟩, g, ?_, rfl,
      htoken, hsame.userId, rfl⟩
    simp only [sessionOfRow, hsame.expiresAt, Instant.read?_storedText hsame.isRegular]

theorem validateSession (h : Matches a l) (now : Instant) (token : String) :
    (a.validateSession now token).1 = l.validate now token ∧
      Matches (a.validateSession now token).2 l := by
  unfold Accounts.validateSession findSession
  cases hc : a.cache.get? token with
  | some session =>
    obtain ⟨g, hg, hid, hend⟩ := h.remembered hc
    exact h.grant now hg hid hend
  | none =>
    rcases h.storedSession now token with ⟨hs, hg⟩ | ⟨session, g, hs, hg, htoken, hid, hend⟩
    · rw [hs]
      dsimp only
      unfold Ledger.validate
      rw [hg]
      exact ⟨rfl, h⟩
    · rw [hs]
      exact (h.remember (htoken ▸ hg) hid hend).grant now hg hid hend

/-- The row of a session and its entry go together, and it is not remembered by then. -/
theorem logout (h : Matches a l) (token : String) :
    (a.logout token).1 = .ok () ∧ Matches (a.logout token).2 (l.logout token) := by
  unfold Accounts.logout deleteSession Accounts.forget Ledger.logout
  rw [if_neg (by simp [h.isOpen])]
  refine ⟨rfl, ?_⟩
  exact
    { h with
      sessions := fun token' => by
        have hsame := h.sessions token'
        rw [List.find?_filter, Table.get?_erase]
        by_cases htoken : token = token'
        · subst htoken
          rw [if_pos rfl, List.find?_eq_none.mpr fun row _ => by simp]
          exact .none
        · have hsays : (fun row : SessionRow => decide (decide (row.token ≠ token) = true ∧
              decide (row.token = token') = true)) = fun row => decide (row.token = token') := by
            funext row
            by_cases hrow : row.token = token'
            · simp [hrow, Ne.symm htoken]
            · simp [hrow]
          rw [if_neg htoken, hsays]
          exact hsame
      remembered := fun {token' session} hs => by
        rw [Table.get?_erase] at hs ⊢
        split at hs
        · cases hs
        · rename_i htoken
          rw [if_neg htoken]
          exact h.remembered hs
      granted := fun {token' g} hg => by
        rw [Table.get?_erase] at hg
        split at hg
        · cases hg
        · exact h.granted hg }

theorem restart (h : Matches a l) : Matches a.restart l :=
  { h with
    isOpen := rfl
    remembered := fun hs => by cases hs }

/-- **A call has the answer of the ledger**, and accounts and ledger go on to say the same. -/
theorem step (h : Matches a l) {op : Operation} (hfresh : op.isFresh a = true) :
    (a.step op).1 = (l.step op).1 ∧ Matches (a.step op).2 (l.step op).2 := by
  cases op with
  | signup now id email username password =>
    obtain ⟨hanswer, hnext⟩ :=
      h.signup now email username password (by simpa [Operation.isFresh] using hfresh)
    exact ⟨congrArg Answer.signedUp hanswer, hnext now.isRegular⟩
  | login now sessionNow token email password =>
    obtain ⟨hanswer, hnext⟩ :=
      h.login now sessionNow email password (by simpa [Operation.isFresh] using hfresh)
    exact ⟨congrArg Answer.loggedIn hanswer, hnext sessionNow.isRegular⟩
  | validate now token =>
    obtain ⟨hanswer, hnext⟩ := h.validateSession now token
    exact ⟨congrArg Answer.validated hanswer, hnext⟩
  | logout token =>
    obtain ⟨hanswer, hnext⟩ := h.logout token
    exact ⟨congrArg Answer.loggedOut hanswer, hnext⟩
  | findUser now userId => exact ⟨congrArg Answer.found (h.findUser_eq now userId), h⟩
  | restart => exact ⟨rfl, h.restart⟩

/-! ### Runs -/

theorem run (h : Matches a l) {ops : List Operation} (hfresh : a.drawsFresh ops = true) :
    a.answers ops = l.answers ops ∧ Matches (a.run ops) (l.run ops) := by
  induction ops generalizing a l with
  | nil => exact ⟨rfl, h⟩
  | cons op ops ih =>
    rw [drawsFresh, Bool.and_eq_true] at hfresh
    obtain ⟨hanswer, hnext⟩ := h.step hfresh.1
    obtain ⟨hanswers, hlast⟩ := ih hnext hfresh.2
    refine ⟨?_, hlast⟩
    rw [answers, Ledger.answers, hanswer, hanswers]

variable {b : Accounts}

theorem isFresh_eq (ha : Matches a l) (hb : Matches b l) (op : Operation) :
    op.isFresh a = op.isFresh b := by
  cases op with
  | signup now id => exact congrArg (!·) ((ha.any_id id).trans (hb.any_id id).symm)
  | login now sessionNow token =>
    exact congrArg (!·) ((ha.any_token token).trans (hb.any_token token).symm)
  | validate | logout | findUser | restart => rfl

theorem drawsFresh_eq (ha : Matches a l) (hb : Matches b l) (ops : List Operation) :
    a.drawsFresh ops = b.drawsFresh ops := by
  induction ops generalizing a b l with
  | nil => rfl
  | cons op ops ih =>
    rw [drawsFresh, drawsFresh, ha.isFresh_eq hb]
    cases hop : op.isFresh b with
    | false => rfl
    | true => exact ih (ha.step (ha.isFresh_eq hb op ▸ hop)).2 (hb.step hop).2

/-- Accounts that say the same as one ledger go on with the same answers, whatever either of them
remembers. -/
theorem answers_eq (ha : Matches a l) (hb : Matches b l) {ops : List Operation}
    (hfresh : a.drawsFresh ops = true) : a.answers ops = b.answers ops :=
  (ha.run hfresh).1.trans (hb.run (ha.drawsFresh_eq hb ops ▸ hfresh)).1.symm

end Matches

end Accounts

end ChatRooms

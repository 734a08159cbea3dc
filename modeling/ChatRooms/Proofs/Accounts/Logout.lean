import Mathlib.Data.Fintype.EquivFin
import ChatRooms.Accounts.Basic
import ChatRooms.Proofs.Schedule

/-!
Validations and logouts in flight. A session is stored in a table and remembered in a cache. A
validation asks the cache, then the table, and remembers what it has read; a logout forgets the
session and then deletes its row. Between the steps of a call anything else may happen, so that a
validation may remember a session that was deleted after it was read. The theorem of this module
says when a token is accepted after its logout.
-/

namespace ChatRooms

open ChatRooms.Time

/-! ### The tables and the cache -/

namespace Accounts

/-- The session is accepted at an instant: it has not expired, and its user is there. -/
def Accepts (a : Accounts) (now : Instant) (session : Session) : Prop :=
  session.expiresAt.notAfter now = false ∧ ∃ user, a.getUser now session.userId = .ok user

theorem grant_ok_iff (a : Accounts) (now : Instant) (token : String) (session : Session) :
    (∃ user, (a.grant now token session).1 = .ok user) ↔ a.Accepts now session := by
  unfold grant Accepts
  by_cases h : session.expiresAt.notAfter now = true
  · simp [h]
  · simp [h]

/-- Whether a session is accepted depends on the users alone. -/
theorem accepts_congr {a b : Accounts} (hu : a.users = b.users) (ho : a.isOpen = b.isOpen)
    (now : Instant) (session : Session) : a.Accepts now session ↔ b.Accepts now session := by
  unfold Accepts getUser findUser
  rw [hu, ho]

/-- A session that is read from the table has the token that was asked for, and a row. -/
theorem storedSession_ok {a : Accounts} {now : Instant} {token : String} {session : Session}
    (h : a.storedSession now token = .ok session) :
    session.token = token ∧ ∃ row ∈ a.sessions, row.token = token := by
  unfold storedSession at h
  split at h
  · cases h
  · cases hr : a.sessions.find? (·.token = token) with
    | none =>
      rw [hr] at h
      cases h
    | some row =>
      rw [hr] at h
      have ht : row.token = token := by simpa using List.find?_some hr
      unfold sessionOfRow at h
      dsimp only at h
      split at h
      · cases h
      · cases h
        exact ⟨ht, row, List.mem_of_find?_eq_some hr, ht⟩

/-- A session that is stored has the token that was made for it. -/
theorem storeSession_cases (a : Accounts) (now : Instant) (token userId : String) :
    (∃ e, a.storeSession now token userId = (.error e, a)) ∨
    ∃ session row, session.token = token ∧ row.token = token ∧
      a.storeSession now token userId =
        (.ok session, { a with sessions := a.sessions ++ [row] }) := by
  unfold storeSession
  split
  · exact .inl ⟨_, rfl⟩
  · split
    · exact .inl ⟨_, rfl⟩
    · exact .inr ⟨_, _, rfl, rfl, rfl⟩

theorem grant_cache (a : Accounts) (now : Instant) (token : String) (session : Session) :
    (a.grant now token session).2 = a ∨ (a.grant now token session).2 = a.forget token := by
  unfold grant
  split
  · exact .inr rfl
  · exact .inl rfl

end Accounts

/-! ### Calls in flight -/

/-- Where a call stands. -/
inductive Call where
  /-- a validation that found nothing in the cache -/
  | asking (token : String)
  /-- a validation that has read a row -/
  | holding (token : String) (session : Session)
  /-- a validation that knows the session -/
  | checking (token : String) (session : Session)
  /-- a login that has stored a session -/
  | creating (session : Session)
  /-- a logout that has forgotten the session -/
  | leaving (token : String)

/-- The session that a call is about to remember. -/
def Call.carries : Call → Option Session
  | .holding _ session | .creating session => some session
  | _ => none

/-- The accounts between two steps, and the calls that are in flight. -/
structure Dealings where
  accounts : Accounts
  calls : Table Nat Call

namespace Dealings

/-- A step of a call. Calls in flight have different numbers. -/
inductive Action where
  /-- a validation begins and asks the cache -/
  | validate (n : Nat) (token : String)
  /-- a validation asks the table -/
  | readRow (n : Nat) (now : Instant)
  /-- a call remembers its session -/
  | remember (n : Nat)
  /-- a validation checks the session and ends -/
  | grant (n : Nat) (now : Instant)
  /-- a login stores a session -/
  | storeSession (n : Nat) (now : Instant) (token userId : String)
  /-- a logout begins and forgets the session -/
  | forget (n : Nat) (token : String)
  /-- a logout deletes the row and ends -/
  | deleteRow (n : Nat)

/-- The call that an action is a step of. -/
def Action.call : Action → Nat
  | .validate n _ | .readRow n _ | .remember n | .grant n _ | .storeSession n _ _ _ | .forget n _
  | .deleteRow n => n

/-- The call that an action begins. -/
def Action.begins : Action → Option Nat
  | .validate n _ | .storeSession n _ _ _ | .forget n _ => some n
  | _ => none

/-- The token that an action makes a session for. -/
def Action.creates : Action → Option String
  | .storeSession _ _ token _ => some token
  | _ => none

/-- Carries out an action, if it is due. -/
def act (d : Dealings) : Action → Option Dealings
  | .validate n token =>
    if d.calls.has n then none
    else
      some { d with calls := d.calls.insert n (match d.accounts.cache.get? token with
        | some session => .checking token session
        | none => .asking token) }
  | .readRow n now =>
    match d.calls.get? n with
    | some (.asking token) =>
      match d.accounts.storedSession now token with
      | .ok session => some { d with calls := d.calls.insert n (.holding token session) }
      | .error _ => some { d with calls := d.calls.erase n }
    | _ => none
  | .remember n =>
    match d.calls.get? n with
    | some (.holding token session) =>
      some ⟨d.accounts.remember session, d.calls.insert n (.checking token session)⟩
    | some (.creating session) => some ⟨d.accounts.remember session, d.calls.erase n⟩
    | _ => none
  | .grant n now =>
    match d.calls.get? n with
    | some (.checking token session) =>
      some ⟨(d.accounts.grant now token session).2, d.calls.erase n⟩
    | _ => none
  | .storeSession n now token userId =>
    if d.calls.has n || !d.accounts.isOpen then none
    else
      match d.accounts.storeSession now token userId with
      | (.ok session, a) => some ⟨a, d.calls.insert n (.creating session)⟩
      | (.error _, a) => some { d with accounts := a }
  | .forget n token =>
    if d.calls.has n then none
    else some ⟨d.accounts.forget token, d.calls.insert n (.leaving token)⟩
  | .deleteRow n =>
    match d.calls.get? n with
    | some (.leaving token) => some ⟨(d.accounts.deleteSession token).2, d.calls.erase n⟩
    | _ => none

/-- What a validation answers by an action, if it ends by it. -/
def answer (d : Dealings) : Action → Option (Except AccountError UserInfo)
  | .readRow n now =>
    match d.calls.get? n with
    | some (.asking token) =>
      match d.accounts.storedSession now token with
      | .ok _ => none
      | .error e => some (.error e)
    | _ => none
  | .grant n now =>
    match d.calls.get? n with
    | some (.checking token session) => some (d.accounts.grant now token session).1
    | _ => none
  | _ => none

/-- Carries out actions in order, if each is due. -/
abbrev run (d : Dealings) (acts : List Action) : Option Dealings := Schedule.run act d acts

/-- The session is remembered under the token, or a call is about to remember it. -/
def Lingers (d : Dealings) (token : String) (session : Session) : Prop :=
  d.accounts.cache.get? token = some session ∨
    session.token = token ∧ ∃ n c, d.calls.get? n = some c ∧ c.carries = some session

/-- The token has a row. -/
def IsStored (d : Dealings) (token : String) : Prop :=
  ∃ row ∈ d.accounts.sessions, row.token = token

/-! ### What an action can do -/

/-- What an action can do: users stay, a row is new only if it was created, a session is new in the
cache only if the call of the action carried it, and carried anew only if it was stored or created.
Other calls stay where they are. -/
structure Follows (d : Dealings) (a : Action) (d' : Dealings) : Prop where
  users : d'.accounts.users = d.accounts.users
  isOpen : d'.accounts.isOpen = d.accounts.isOpen
  rows : ∀ {token}, d'.IsStored token → d.IsStored token ∨ a.creates = some token
  cache : ∀ {token session}, d'.accounts.cache.get? token = some session →
    d.accounts.cache.get? token = some session ∨
      session.token = token ∧ ∃ c, d.calls.get? a.call = some c ∧ c.carries = some session
  others : ∀ {n}, n ≠ a.call → d'.calls.get? n = d.calls.get? n
  own : ∀ {c session}, d'.calls.get? a.call = some c → c.carries = some session →
    d.IsStored session.token ∨ a.creates = some session.token

/-- An action that changes no table but moves its own call on, which then carries nothing new. -/
theorem Follows.of_call {d : Dealings} {a : Action} {calls : Table Nat Call}
    (hothers : ∀ {n}, n ≠ a.call → calls.get? n = d.calls.get? n)
    (hown : ∀ {c session}, calls.get? a.call = some c → c.carries = some session →
      d.IsStored session.token ∨ a.creates = some session.token) :
    Follows d a { d with calls := calls } :=
  ⟨rfl, rfl, .inl, .inl, hothers, hown⟩

theorem insert_others (t : Table Nat Call) {n m : Nat} (c : Call) (hne : m ≠ n) :
    (t.insert n c).get? m = t.get? m := by
  rw [Table.get?_insert, if_neg (Ne.symm hne)]

theorem erase_others (t : Table Nat Call) {n m : Nat} (hne : m ≠ n) :
    (t.erase n).get? m = t.get? m := by
  rw [Table.get?_erase, if_neg (Ne.symm hne)]

/-- A call that has ended carries nothing. -/
theorem erase_own {t : Table Nat Call} {n : Nat} {c : Call} {P : Prop}
    (h : (t.erase n).get? n = some c) : P := by
  rw [Table.get?_erase, if_pos rfl] at h
  cases h

theorem cache_forget {a : Accounts} {token token' : String} {session : Session}
    (h : (a.forget token).cache.get? token' = some session) :
    a.cache.get? token' = some session := by
  unfold Accounts.forget at h
  rw [Table.get?_erase] at h
  split at h
  · cases h
  · exact h

theorem cache_remember {a : Accounts} {token : String} {session session' : Session}
    (h : (a.remember session').cache.get? token = some session) :
    a.cache.get? token = some session ∨ session.token = token ∧ session' = session := by
  unfold Accounts.remember at h
  rw [Table.get?_insert] at h
  split at h
  · rename_i e
    cases h
    exact .inr ⟨e, rfl⟩
  · exact .inl h

theorem follows_validate {d d' : Dealings} {n : Nat} {token : String}
    (ha : d.act (.validate n token) = some d') : Follows d (.validate n token) d' := by
  unfold act at ha
  dsimp only at ha
  split at ha
  · cases ha
  · cases ha
    refine Follows.of_call (fun hne => insert_others _ _ hne) fun {c session} hc hs => ?_
    rw [Action.call, Table.get?_insert_self] at hc
    cases hc
    split at hs <;> cases hs

theorem follows_readRow {d d' : Dealings} {n : Nat} {now : Instant}
    (ha : d.act (.readRow n now) = some d') : Follows d (.readRow n now) d' := by
  unfold act at ha
  dsimp only at ha
  split at ha
  · split at ha
    · rename_i session hread
      cases ha
      refine Follows.of_call (fun hne => insert_others _ _ hne) fun {c session'} hc hs => ?_
      rw [Action.call, Table.get?_insert_self] at hc
      cases hc
      cases hs
      obtain ⟨ht, hrow⟩ := Accounts.storedSession_ok hread
      exact .inl (ht ▸ hrow)
    · cases ha
      exact Follows.of_call (fun hne => erase_others _ hne) fun hc _ => erase_own hc
  · cases ha

theorem follows_remember {d d' : Dealings} {n : Nat} (ha : d.act (.remember n) = some d') :
    Follows d (.remember n) d' := by
  have hcache : ∀ {c : Call} {session : Session}, d.calls.get? n = some c →
      c.carries = some session → ∀ {token session'},
      (d.accounts.remember session).cache.get? token = some session' →
      d.accounts.cache.get? token = some session' ∨
        session'.token = token ∧ ∃ c, d.calls.get? n = some c ∧ c.carries = some session' := by
    intro c session hc hs token session' h
    rcases cache_remember h with h | ⟨ht, rfl⟩
    · exact .inl h
    · exact .inr ⟨ht, c, hc, hs⟩
  unfold act at ha
  dsimp only at ha
  split at ha
  · rename_i token session hc
    cases ha
    refine ⟨rfl, rfl, .inl, hcache hc rfl, fun hne => insert_others _ _ hne,
      fun {c session'} hc' hs => ?_⟩
    rw [Action.call, Table.get?_insert_self] at hc'
    cases hc'
    cases hs
  · rename_i session hc
    cases ha
    exact ⟨rfl, rfl, .inl, hcache hc rfl, fun hne => erase_others _ hne,
      fun hc' _ => erase_own hc'⟩
  · cases ha

theorem follows_grant {d d' : Dealings} {n : Nat} {now : Instant}
    (ha : d.act (.grant n now) = some d') : Follows d (.grant n now) d' := by
  unfold act at ha
  dsimp only at ha
  split at ha
  · rename_i token session hc
    cases ha
    rcases d.accounts.grant_cache now token session with e | e
    · refine ⟨?_, ?_, fun hr => .inl ?_, fun h => .inl ?_, fun hne => erase_others _ hne,
        fun hc' _ => erase_own hc'⟩
      · rw [e]
      · rw [e]
      · unfold IsStored at hr
        rwa [e] at hr
      · rwa [e] at h
    · refine ⟨?_, ?_, fun hr => .inl ?_, fun h => .inl ?_, fun hne => erase_others _ hne,
        fun hc' _ => erase_own hc'⟩
      · rw [e]
        rfl
      · rw [e]
        rfl
      · unfold IsStored at hr
        rwa [e] at hr
      · rw [e] at h
        exact cache_forget h
  · cases ha

theorem follows_storeSession {d d' : Dealings} {n : Nat} {now : Instant} {token userId : String}
    (ha : d.act (.storeSession n now token userId) = some d') :
    Follows d (.storeSession n now token userId) d' := by
  unfold act at ha
  dsimp only at ha
  split at ha
  · cases ha
  · rcases d.accounts.storeSession_cases now token userId with ⟨e, hst⟩ |
      ⟨session, row, hs, hrow, hst⟩
    · rename_i hfree
      rw [hst] at ha
      cases ha
      refine ⟨rfl, rfl, .inl, .inl, fun _ => rfl, fun {c session} hc _ => ?_⟩
      have hnone : d.calls.get? n = none := by
        simp only [Table.has, Bool.or_eq_true, not_or] at hfree
        simpa using hfree.1
      rw [Action.call] at hc
      rw [hnone] at hc
      cases hc
    · rw [hst] at ha
      cases ha
      refine ⟨rfl, rfl, ?_, .inl, fun hne => insert_others _ _ hne, fun {c session'} hc hs' => ?_⟩
      · rintro token' ⟨row', hin, rfl⟩
        rcases List.mem_append.mp hin with hin | hin
        · exact .inl ⟨row', hin, rfl⟩
        · cases List.mem_singleton.mp hin
          exact .inr (congrArg some hrow.symm)
      · rw [Action.call, Table.get?_insert_self] at hc
        cases hc
        cases hs'
        exact .inr (congrArg some hs.symm)

theorem follows_forget {d d' : Dealings} {n : Nat} {token : String}
    (ha : d.act (.forget n token) = some d') : Follows d (.forget n token) d' := by
  unfold act at ha
  dsimp only at ha
  split at ha
  · cases ha
  · cases ha
    refine ⟨rfl, rfl, .inl, fun h => .inl (cache_forget h), fun hne => insert_others _ _ hne,
      fun {c session} hc hs => ?_⟩
    rw [Action.call, Table.get?_insert_self] at hc
    cases hc
    cases hs

theorem follows_deleteRow {d d' : Dealings} {n : Nat} (ha : d.act (.deleteRow n) = some d') :
    Follows d (.deleteRow n) d' := by
  unfold act at ha
  dsimp only at ha
  split at ha
  · rename_i token hc
    cases ha
    unfold Accounts.deleteSession
    split
    · exact ⟨rfl, rfl, .inl, .inl, fun hne => erase_others _ hne, fun hc' _ => erase_own hc'⟩
    · refine ⟨rfl, rfl, ?_, .inl, fun hne => erase_others _ hne, fun hc' _ => erase_own hc'⟩
      rintro token' ⟨row, hin, ht⟩
      exact .inl ⟨row, List.mem_of_mem_filter hin, ht⟩
  · cases ha

/-- **What an action can do**, whichever it is. -/
theorem follows_of_act {d d' : Dealings} {a : Action} (ha : d.act a = some d') :
    Follows d a d' := by
  cases a with
  | validate n token => exact follows_validate ha
  | readRow n now => exact follows_readRow ha
  | remember n => exact follows_remember ha
  | grant n now => exact follows_grant ha
  | storeSession n now token userId => exact follows_storeSession ha
  | forget n token => exact follows_forget ha
  | deleteRow n => exact follows_deleteRow ha

/-- A session lingers only if it did so before, or its token was stored or created. -/
theorem Lingers.of_follows {d d' : Dealings} {a : Action} (f : Follows d a d') {token : String}
    {session : Session} (hs : d'.Lingers token session) :
    d.Lingers token session ∨ d.IsStored token ∨ a.creates = some token := by
  rcases hs with h | ⟨rfl, n, c, hc, hcarries⟩
  · rcases f.cache h with h | ⟨ht, c, hc, hcarries⟩
    · exact .inl (.inl h)
    · exact .inl (.inr ⟨ht, a.call, c, hc, hcarries⟩)
  · by_cases e : n = a.call
    · subst e
      exact .inr (f.own hc hcarries)
    · rw [f.others e] at hc
      exact .inl (.inr ⟨rfl, n, c, hc, hcarries⟩)

/-! ### After a logout -/

section Ended

variable (token : String) (among : Session → Prop)

/-- The token has no row, and no session lingers for it but some known ones. -/
structure Ended (d : Dealings) : Prop where
  row : ¬d.IsStored token
  lingers : ∀ session, d.Lingers token session → among session

/-- The call, if it is in flight, validates the token, and has found none but a known session. -/
def Knows (d : Dealings) (n : Nat) : Prop := ∀ c, d.calls.get? n = some c →
  c = .asking token ∨ ∃ session, c = .checking token session ∧ among session

variable {token among}

theorem Ended.act {d d' : Dealings} (he : d.Ended token among) {a : Action} (ha : d.act a = some d')
    (hcreates : a.creates ≠ some token) : d'.Ended token among := by
  have f := follows_of_act ha
  refine ⟨fun hr => ?_, fun session hs => ?_⟩
  · rcases f.rows hr with hr | hr
    · exact he.row hr
    · exact hcreates hr
  · rcases hs.of_follows f with hs | hr | hr
    · exact he.lingers session hs
    · exact absurd hr he.row
    · exact absurd hr hcreates

/-- The table has nothing to offer for a token that has no row. -/
theorem Ended.storedSession {d : Dealings} (he : d.Ended token among) (now : Instant) :
    ∃ e, d.accounts.storedSession now token = .error e := by
  cases hread : d.accounts.storedSession now token with
  | error e => exact ⟨e, rfl⟩
  | ok session => exact absurd (Accounts.storedSession_ok hread).2 he.row

/-- A validation that begins knows no more than lingers. -/
theorem Ended.knows_of_validate {d d' : Dealings} (he : d.Ended token among) {n : Nat}
    (ha : d.act (.validate n token) = some d') : d'.Knows token among n := by
  simp only [Dealings.act] at ha
  split at ha
  · cases ha
  · cases ha
    intro c hc
    rw [Table.get?_insert_self] at hc
    cases hc
    split
    · rename_i session hcached
      exact .inr ⟨session, rfl, he.lingers session (.inl hcached)⟩
    · exact .inl rfl

/-- A validation learns nothing more while it is in flight. -/
theorem Knows.act {d d' : Dealings} {n : Nat} (hk : d.Knows token among n)
    (he : d.Ended token among) {a : Action} (ha : d.act a = some d') (hbegins : a.begins ≠ some n) :
    d'.Knows token among n := by
  have f := follows_of_act ha
  by_cases hcall : n = a.call
  · intro c hc
    cases a with
    | readRow m now =>
      obtain rfl : n = m := hcall
      simp only [Dealings.act] at ha
      split at ha
      · rename_i token' hasking
        rcases hk _ hasking with e | ⟨session, e, -⟩
        · cases e
          obtain ⟨e, hread⟩ := he.storedSession now
          rw [hread] at ha
          cases ha
          exact erase_own hc
        · cases e
      · cases ha
    | remember m =>
      obtain rfl : n = m := hcall
      simp only [Dealings.act] at ha
      split at ha
      · rename_i hholding
        rcases hk _ hholding with e | ⟨session, e, -⟩ <;> cases e
      · rename_i hcreating
        rcases hk _ hcreating with e | ⟨session, e, -⟩ <;> cases e
      · cases ha
    | grant m now =>
      obtain rfl : n = m := hcall
      simp only [Dealings.act] at ha
      split at ha
      · cases ha
        exact erase_own hc
      · cases ha
    | deleteRow m =>
      obtain rfl : n = m := hcall
      simp only [Dealings.act] at ha
      split at ha
      · cases ha
        exact erase_own hc
      · cases ha
    | _ => exact absurd (congrArg some hcall.symm) hbegins
  · intro c hc
    rw [f.others hcall] at hc
    exact hk c hc

variable {d d' : Dealings} {acts : List Action} (he : d.Ended token among)
  (hrun : d.run acts = some d') (hcreates : ∀ a ∈ acts, a.creates ≠ some token)

include he hrun hcreates

theorem Ended.run : d'.Ended token among ∧ d'.accounts.users = d.accounts.users ∧
    d'.accounts.isOpen = d.accounts.isOpen := by
  refine Schedule.run_keeps (P := fun d' => d'.Ended token among ∧
    d'.accounts.users = d.accounts.users ∧ d'.accounts.isOpen = d.accounts.isOpen)
    (fun ⟨he, hu, ho⟩ hcreates ha => ?_) hrun ⟨he, rfl, rfl⟩ hcreates
  have f := follows_of_act ha
  exact ⟨he.act ha hcreates, f.users.trans hu, f.isOpen.trans ho⟩

theorem Ended.knows_run {n : Nat} (hk : d.Knows token among n)
    (hbegins : ∀ a ∈ acts, a.begins ≠ some n) : d'.Knows token among n := by
  have hkeeps : ∀ {e a e'}, e.Ended token among ∧ e.Knows token among n →
      a.creates ≠ some token ∧ a.begins ≠ some n → Dealings.act e a = some e' →
      e'.Ended token among ∧ e'.Knows token among n := by
    rintro e a e' ⟨he, hk⟩ ⟨hcreates, hbegins⟩ ha
    exact ⟨he.act ha hcreates, hk.act he ha hbegins⟩
  have hend := Schedule.run_keeps hkeeps hrun ⟨he, hk⟩ fun a ha => ⟨hcreates a ha, hbegins a ha⟩
  exact hend.2

end Ended

/-- A call stays where it is while other calls go on. -/
theorem run_others {d d' : Dealings} {acts : List Action} (hrun : d.run acts = some d') {n : Nat}
    (hothers : ∀ a ∈ acts, a.call ≠ n) : d'.calls.get? n = d.calls.get? n := by
  have hkeeps : ∀ {e a e'}, e.calls.get? n = d.calls.get? n → Action.call a ≠ n →
      act e a = some e' → e'.calls.get? n = d.calls.get? n := by
    intro e a e' hsame hne ha
    rw [(follows_of_act ha).others (Ne.symm hne), hsame]
  exact Schedule.run_keeps hkeeps hrun rfl hothers

/-- Deleting the row of a token ends it, but for what lingers. -/
theorem ended_of_deleteRow {d d' : Dealings} {k : Nat} {token : String}
    (hcall : d.calls.get? k = some (.leaving token)) (hopen : d.accounts.isOpen = true)
    (ha : d.act (.deleteRow k) = some d') :
    d'.Ended token (d.Lingers token) ∧ (∀ session, d.Lingers token session →
      d'.Lingers token session) ∧ d'.accounts.users = d.accounts.users ∧
      d'.accounts.isOpen = d.accounts.isOpen := by
  have hdel : d' = ⟨(d.accounts.deleteSession token).2, d.calls.erase k⟩ := by
    simp only [act, hcall] at ha
    exact (Option.some.inj ha).symm
  rw [Accounts.deleteSession, if_neg (by simp [hopen])] at hdel
  subst hdel
  refine ⟨⟨?_, fun session hs => ?_⟩, fun session hs => ?_, rfl, rfl⟩
  · rintro ⟨row, hin, ht⟩
    simp [ht] at hin
  · rcases hs with h | ⟨ht, n, c, hc, hcarries⟩
    · exact .inl h
    · dsimp only at hc
      rw [Table.get?_erase] at hc
      split at hc
      · cases hc
      · exact .inr ⟨ht, n, c, hc, hcarries⟩
  · rcases hs with h | ⟨ht, n, c, hc, hcarries⟩
    · exact .inl h
    · have hne : n ≠ k := by
        rintro rfl
        rw [hcall] at hc
        cases hc
        cases hcarries
      exact .inr ⟨ht, n, c, (erase_others _ hne).trans hc, hcarries⟩

/-! ### Calls without interruption -/

/-- A logout that nothing interrupts. -/
theorem run_logout (a : Accounts) (token : String) :
    run ⟨a, []⟩ [.forget 0 token, .deleteRow 0] = some ⟨(a.logout token).2, []⟩ := rfl

/-- A validation that nothing interrupts, of a session that is remembered. -/
theorem run_validate_remembered {a : Accounts} {token : String} {session : Session}
    (hs : a.cache.get? token = some session) (now : Instant) : ∃ d,
    run ⟨a, []⟩ [.validate 0 token] = some d ∧
      d.act (.grant 0 now) = some ⟨(a.validateSession now token).2, []⟩ ∧
      d.answer (.grant 0 now) = some (a.validateSession now token).1 := by
  have hv : a.validateSession now token = a.grant now token session := by
    simp [Accounts.validateSession, Accounts.findSession, hs]
  rw [hv]
  exact ⟨⟨a, [(0, .checking token session)]⟩,
    by simp [Schedule.run, act, Table.has, Table.insert, hs], rfl, rfl⟩

/-- A validation that nothing interrupts, of a session that is only stored. -/
theorem run_validate_stored {a : Accounts} {token : String} {session : Session} {now : Instant}
    (hs : a.cache.get? token = none) (hread : a.storedSession now token = .ok session) : ∃ d,
    run ⟨a, []⟩ [.validate 0 token, .readRow 0 now, .remember 0] = some d ∧
      d.act (.grant 0 now) = some ⟨(a.validateSession now token).2, []⟩ ∧
      d.answer (.grant 0 now) = some (a.validateSession now token).1 := by
  have hv : a.validateSession now token = (a.remember session).grant now token session := by
    simp [Accounts.validateSession, Accounts.findSession, hs, hread]
  rw [hv]
  exact ⟨⟨a.remember session, [(0, .checking token session)]⟩,
    by simp [Schedule.run, act, Table.has, Table.insert, Table.get?, hs, hread], rfl, rfl⟩

/-! ### How a session comes back -/

/-- There is always a number for another call. -/
theorem exists_free (calls : Table Nat Call) : ∃ n, calls.has n = false := by
  obtain ⟨n, hn⟩ := Infinite.exists_notMem_finset (calls.map Prod.fst).toFinset
  refine ⟨n, ?_⟩
  cases hc : calls.get? n with
  | none => simp [Table.has, hc]
  | some c =>
    rw [List.mem_toFinset] at hn
    exact absurd (List.mem_map_of_mem (Table.mem_of_get? hc)) hn

/-- What a call carries can be remembered. -/
theorem exists_remember {d : Dealings} {n : Nat} {c : Call} {session : Session}
    (hc : d.calls.get? n = some c) (hcarries : c.carries = some session) :
    ∃ d', d.act (.remember n) = some d' ∧ d'.accounts = d.accounts.remember session := by
  cases c with
  | holding token session' =>
    cases hcarries
    exact ⟨_, by rw [act, hc], rfl⟩
  | creating session' =>
    cases hcarries
    exact ⟨_, by rw [act, hc], rfl⟩
  | _ => cases hcarries

/-- A validation finds what is remembered. -/
theorem exists_validate {d : Dealings} {token : String} {session : Session}
    (hs : d.accounts.cache.get? token = some session) : ∃ n d',
    d.act (.validate n token) = some d' ∧ d'.accounts = d.accounts ∧
      d'.calls.get? n = some (.checking token session) := by
  obtain ⟨n, hn⟩ := exists_free d.calls
  refine ⟨n, { d with calls := d.calls.insert n (.checking token session) }, ?_, rfl,
    Table.get?_insert_self _ _ _⟩
  rw [act, if_neg (by simp [hn]), hs]

/-- What lingers for a token can be accepted by a validation that begins later. -/
theorem Lingers.revive {d : Dealings} {token : String} {session : Session} {now : Instant}
    (hs : d.Lingers token session) (haccepts : d.accounts.Accepts now session) :
    ∃ before n d' user, d.run (before ++ [.validate n token]) = some d' ∧
      (∀ a ∈ before, a.creates ≠ some token) ∧ d'.answer (.grant n now) = some (.ok user) := by
  -- once the session is remembered, a validation that begins finds it
  have hcached : ∀ {e : Dealings}, e.accounts.cache.get? token = some session →
      e.accounts.Accepts now session → ∃ n e' user, e.act (.validate n token) = some e' ∧
        e'.answer (.grant n now) = some (.ok user) := by
    intro e hin hacc
    obtain ⟨n, e', hact, haccounts, hcall⟩ := exists_validate hin
    obtain ⟨user, huser⟩ := (Accounts.grant_ok_iff _ now token session).mpr hacc
    refine ⟨n, e', user, hact, ?_⟩
    rw [answer, hcall, haccounts]
    exact congrArg some huser
  rcases hs with hin | ⟨ht, m, c, hc, hcarries⟩
  · obtain ⟨n, d', user, hact, hanswer⟩ := hcached hin haccepts
    have hrun : d.run [.validate n token] = some d' :=
      Schedule.run_cons_eq_some.mpr ⟨d', hact, rfl⟩
    exact ⟨[], n, d', user, hrun, by simp, hanswer⟩
  · obtain ⟨d₁, hremember, haccounts⟩ := exists_remember hc hcarries
    have hin : d₁.accounts.cache.get? token = some session := by
      rw [haccounts, Accounts.remember, Table.get?_insert, if_pos ht]
    have hacc : d₁.accounts.Accepts now session := by
      rw [haccounts]
      exact (Accounts.accepts_congr rfl rfl now session).mp haccepts
    obtain ⟨n, d', user, hact, hanswer⟩ := hcached hin hacc
    have hlast : d₁.run [.validate n token] = some d' :=
      Schedule.run_cons_eq_some.mpr ⟨d', hact, rfl⟩
    have hrun : d.run [.remember m, .validate n token] = some d' :=
      Schedule.run_cons_eq_some.mpr ⟨d₁, hremember, hlast⟩
    exact ⟨[.remember m], n, d', user, hrun, by simp [Action.creates], hanswer⟩

/-! ### Validations that begin after a logout -/

section Later

variable {d d' : Dealings} {token : String} {among : Session → Prop}
  {before mid : List Action} {n : Nat}
  (he : d.Ended token among) (hrun : d.run (before ++ .validate n token :: mid) = some d')
  (hcreates : ∀ a ∈ before ++ mid, a.creates ≠ some token)

include he hrun hcreates

/-- Where a run stands when the validation begins. -/
theorem Ended.later : ∃ e e' : Dealings,
    e.act (.validate n token) = some e' ∧ e'.run mid = some d' ∧
    e.Ended token among ∧ e'.Ended token among ∧ d'.Ended token among ∧
    d'.accounts.users = d.accounts.users ∧ d'.accounts.isOpen = d.accounts.isOpen := by
  obtain ⟨e, hbefore, hrest⟩ := Schedule.run_append_eq_some.mp hrun
  obtain ⟨e', hvalidate, hmid⟩ := Schedule.run_cons_eq_some.mp hrest
  obtain ⟨hended, hu, ho⟩ := he.run hbefore fun a ha => hcreates a (List.mem_append_left _ ha)
  have hended' := hended.act hvalidate (by simp [Action.creates])
  have f := follows_of_act hvalidate
  obtain ⟨hend, hu', ho'⟩ := hended'.run hmid fun a ha => hcreates a (List.mem_append_right _ ha)
  have husers : d'.accounts.users = d.accounts.users := by rw [hu', f.users, hu]
  have hopen : d'.accounts.isOpen = d.accounts.isOpen := by rw [ho', f.isOpen, ho]
  exact ⟨e, e', hvalidate, hmid, hended, hended', hend, husers, hopen⟩

/-- A validation that begins later is granted a session that lingered, or none. -/
theorem Ended.answer_ok (hbegins : ∀ a ∈ mid, a.begins ≠ some n) {now : Instant} {user : UserInfo}
    (hanswer : d'.answer (.grant n now) = some (.ok user)) :
    ∃ session, among session ∧ d.accounts.Accepts now session := by
  obtain ⟨e, e', hvalidate, hmid, hended, hended', -, hu, ho⟩ := he.later hrun hcreates
  have hknows := hended'.knows_run hmid (fun a ha => hcreates a (List.mem_append_right _ ha))
    (hended.knows_of_validate hvalidate) hbegins
  simp only [answer] at hanswer
  split at hanswer
  · rename_i token' session hchecking
    rcases hknows _ hchecking with e | ⟨session', e, hs⟩
    · cases e
    · cases e
      refine ⟨session, hs, (Accounts.accepts_congr hu ho now session).mp ?_⟩
      exact (Accounts.grant_ok_iff _ now token session).mp ⟨user, Option.some.inj hanswer⟩
  · cases hanswer

/-- If nothing lingers, a validation that begins later asks the table, and fails. -/
theorem Ended.answer_error (hnone : ∀ session, ¬among session) (hothers : ∀ a ∈ mid, a.call ≠ n)
    (now : Instant) : ∃ e, d'.answer (.readRow n now) = some (.error e) := by
  obtain ⟨e, e', hvalidate, hmid, hended, -, hend, -⟩ := he.later hrun hcreates
  have hasking : d'.calls.get? n = some (.asking token) := by
    rw [run_others hmid hothers]
    have hcache : e.accounts.cache.get? token = none := by
      cases hin : e.accounts.cache.get? token with
      | none => rfl
      | some session => exact absurd (hended.lingers session (.inl hin)) (hnone session)
    simp only [Dealings.act, hcache] at hvalidate
    split at hvalidate
    · cases hvalidate
    · cases hvalidate
      exact Table.get?_insert_self _ _ _
  obtain ⟨error, hread⟩ := hend.storedSession now
  refine ⟨error, ?_⟩
  rw [answer, hasking]
  dsimp only
  rw [hread]

end Later

/-- **Which logouts are final.** A logout deletes the row of its token, and so returns. A validation
of the token that begins later can be answered with a user at an instant exactly if, as the row was
deleted, some session lingered for the token that is accepted at that instant: it was in the cache,
or a call had read or stored it and was yet to remember it. If no session lingered, every validation
that begins later asks the table and fails. -/
theorem logout_final_unless_lingering {d₁ d₂ : Dealings} {k : Nat} {token : String}
    (hcall : d₁.calls.get? k = some (.leaving token))
    (hok : (d₁.accounts.deleteSession token).1 = .ok ())
    (hact : d₁.act (.deleteRow k) = some d₂) :
    (∀ now,
      (∃ before n mid d₃ user, d₂.run (before ++ .validate n token :: mid) = some d₃ ∧
        (∀ a ∈ before ++ mid, a.creates ≠ some token) ∧ (∀ a ∈ mid, a.begins ≠ some n) ∧
        d₃.answer (.grant n now) = some (.ok user)) ↔
      ∃ session, d₁.Lingers token session ∧ d₁.accounts.Accepts now session) ∧
    ((∀ session, ¬d₁.Lingers token session) → ∀ before n mid d₃,
      d₂.run (before ++ .validate n token :: mid) = some d₃ →
      (∀ a ∈ before ++ mid, a.creates ≠ some token) → (∀ a ∈ mid, a.call ≠ n) →
      ∀ now, ∃ e, d₃.answer (.readRow n now) = some (.error e)) := by
  have hopen : d₁.accounts.isOpen = true := by
    by_contra hclosed
    rw [Accounts.deleteSession, if_pos (by simpa using hclosed)] at hok
    cases hok
  obtain ⟨hended, hlingers, husers, hopen₂⟩ := ended_of_deleteRow hcall hopen hact
  refine ⟨fun now => ⟨?_, ?_⟩, ?_⟩
  · rintro ⟨before, n, mid, d₃, user, hrun, hcreates, hbegins, hanswer⟩
    obtain ⟨session, hs, haccepts⟩ := hended.answer_ok hrun hcreates hbegins hanswer
    exact ⟨session, hs, (Accounts.accepts_congr husers hopen₂ now session).mp haccepts⟩
  · rintro ⟨session, hs, haccepts⟩
    obtain ⟨before, n, d₃, user, hrun, hcreates, hanswer⟩ := (hlingers session hs).revive
      ((Accounts.accepts_congr husers hopen₂ now session).mpr haccepts)
    exact ⟨before, n, [], d₃, user, hrun, by simpa using hcreates, by simp, hanswer⟩
  · intro hnone before n mid d₃ hrun hcreates hothers now
    exact hended.answer_error hrun hcreates hnone hothers now

/-- A user with one session, which is stored but not remembered. -/
def loggedIn : Accounts :=
  { Accounts.empty 1000 4 with
    users := [⟨"u1", "ada@lab", "Ada", .foreign "", "", none⟩]
    sessions := [⟨"t", "u1", "", "1970-01-02T00:00:00+00:00"⟩] }

/-- A validation reads the row of a session between the two steps of its logout. -/
def overtaken : List Action := [.forget 1 "t", .validate 2 "t", .readRow 2 .zero]

theorem logout_final_unless_lingering_overtaken :
    (∃ d₁ d₂, run ⟨loggedIn, []⟩ overtaken = some d₁ ∧ d₁.act (.deleteRow 1) = some d₂ ∧
      ∃ before n mid d₃ user, d₂.run (before ++ .validate n "t" :: mid) = some d₃ ∧
        (∀ a ∈ before ++ mid, a.creates ≠ some "t") ∧ (∀ a ∈ mid, a.begins ≠ some n) ∧
        d₃.answer (.grant n .zero) = some (.ok user)) ∧
    ∃ d₂ d₃, act ⟨loggedIn, [(1, .leaving "t")]⟩ (.deleteRow 1) = some d₂ ∧
      d₂.run [.validate 2 "t"] = some d₃ ∧ ∃ e, d₃.answer (.readRow 2 .zero) = some (.error e) := by
  constructor
  · obtain ⟨hiff, -⟩ := @logout_final_unless_lingering ((run ⟨loggedIn, []⟩ overtaken).get rfl) _ 1
      "t" rfl rfl rfl
    exact ⟨_, _, rfl, rfl, (hiff .zero).mpr ⟨_, .inr ⟨rfl, 2, _, rfl, rfl⟩, rfl, _, rfl⟩⟩
  · obtain ⟨-, hfails⟩ :=
      @logout_final_unless_lingering ⟨loggedIn, [(1, .leaving "t")]⟩ _ 1 "t" rfl rfl rfl
    refine ⟨_, _, rfl, rfl, hfails ?_ [] 2 [] _ rfl (by simp) (by simp) .zero⟩
    rintro session (hin | ⟨-, n, c, hc, hcarries⟩)
    · cases hin
    · simp only [Table.get?] at hc
      split at hc
      · cases hc
        cases hcarries
      · cases hc

/-- The validation remembers the session after its row was deleted. The logout has returned, and a
validation that begins afterwards is answered with the user. -/
theorem overtaken_logout_is_not_final : ∃ d₁ d₂ d₃ user,
    run ⟨loggedIn, []⟩ overtaken = some d₁ ∧ (d₁.accounts.deleteSession "t").1 = .ok () ∧
    d₁.act (.deleteRow 1) = some d₂ ∧ d₂.accounts.sessions = [] ∧
    d₂.run [.remember 2, .grant 2 .zero, .validate 3 "t"] = some d₃ ∧
    d₃.answer (.grant 3 .zero) = some (.ok user) :=
  ⟨_, _, _, _, rfl, rfl, rfl, rfl, rfl, rfl⟩

end Dealings

end ChatRooms

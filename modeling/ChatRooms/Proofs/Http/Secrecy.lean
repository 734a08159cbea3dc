import ChatRooms.Http.App
import ChatRooms.Hub.Operation
import ChatRooms.Proofs.Accounts.Twins

/-!
The hashes of passwords stay secret. Two services that are equal but for the hashes, which accept
the same passwords, answer every series of requests alike: in the statuses, in the headers and in
the bodies. What each route does with the accounts is a call that agrees on accounts with twin rows,
and what it does with the book and the hub does not look at the accounts.

The series is one of everything that happens: between requests, the hub may be operated on by those
who are connected, and a request for a socket is admitted by asking the service itself, which may
take too long.
-/

namespace ChatRooms

open ChatRooms.Http ChatRooms.Time

namespace Service

/-! ### Requests in order -/

/-- How far a token is looked into before the time is over. -/
inductive Progress where
  | nothing
  /-- the session is found and remembered, but its user is not looked up -/
  | session
  | all
deriving DecidableEq

/-- Asks the accounts about a token. -/
def authenticate (progress : Progress) (now : Instant) (token : String) (s : Service) :
    Timed (Except ChatError Identity) × Service :=
  match progress with
  | .nothing => (.timedOut, s)
  | .session => (.timedOut, { s with accounts := (s.accounts.findSession now token).2 })
  | .all =>
    let (r, accounts) := s.accounts.validate now token
    (.answered r, { s with accounts })

/-- Asks the book about a room. -/
def lookUp (inTime : Bool) (room : String) (s : Service) :
    Timed (Except LookupError Bool) × Service :=
  if inTime then
    match s.book.contains room with
    | .ok b => (.answered (.ok b), s)
    | .error e => (.answered (.error ⟨e.message⟩), s)
  else (.timedOut, s)

/-- The service as the one that is asked whom to admit. -/
def desk (now : Instant) (progress : Progress) (inTime : Bool) : Desk Service :=
  ⟨authenticate progress now, lookUp inTime⟩

/-- What happens to a service. -/
inductive Event where
  /-- A request comes, over a connection that can be upgraded or cannot, with what it takes from
  outside. If it asks for a socket, it is also told how far the token is looked into, and whether
  the room is found in time. -/
  | request (r : Request) (canUpgrade : Bool) (u : Supply) (progress : Progress) (inTime : Bool)
  /-- those who are connected do something -/
  | operate (op : Hub.Operation)

/-- What can be seen of an event. -/
inductive Outcome where
  | response (r : Response)
  | upgraded (accept : String) (ticket : Admission.Ticket)
  | operated (answer : Hub.Answer)

/-- Answers a request, or upgrades it to a socket if it is admitted. -/
def serve (s : Service) (r : Request) (canUpgrade : Bool) (u : Supply) (progress : Progress)
    (inTime : Bool) : Outcome × Service :=
  match App.dispatch r canUpgrade u s with
  | (.response response, s) => (.response response, s)
  | (.socket key params authorization, s) =>
    match Admission.ticketFor (desk u.now progress inTime) params authorization s with
    | (.error e, s) => (.response (App.refuseSocket e), s)
    | (.ok ticket, s) => (.upgraded (Socket.acceptKey key) ticket, s)

def step (s : Service) : Event → Outcome × Service
  | .request r canUpgrade u progress inTime => s.serve r canUpgrade u progress inTime
  | .operate op =>
    let (answer, hub) := s.hub.step op
    (.operated answer, { s with hub })

/-- The service after events in order. -/
def after (s : Service) (events : List Event) : Service := events.foldl (fun s e => (s.step e).2) s

/-- What can be seen of events in order. -/
def outcomes (s : Service) : List Event → List Outcome
  | [] => []
  | e :: events => (s.step e).1 :: outcomes (s.step e).2 events

/-- The hashes that are stored. -/
def hashes (s : Service) : List Password.Hash := s.accounts.users.map (·.passwordHash)

/-- What may be shown of the users, as texts. -/
def shown (s : Service) (now : Instant) : List String :=
  s.accounts.users.map fun row => (Accounts.UserRow.info now row).json

/-! ### Services with twin rows -/

/-- The accounts have twin rows, and everything else is equal. -/
structure Twins (old₁ old₂ : List Password.Hash) (s₁ s₂ : Service) : Prop where
  accounts : Accounts.Twins old₁ old₂ s₁.accounts s₂.accounts
  book : s₂.book = s₁.book
  hub : s₂.hub = s₁.hub

namespace Twins

variable {old₁ old₂ : List Password.Hash} {s₁ s₂ : Service} (h : Twins old₁ old₂ s₁ s₂)

include h

theorem withAccounts {a₁ a₂ : Accounts} (ha : Accounts.Twins old₁ old₂ a₁ a₂) :
    Twins old₁ old₂ { s₁ with accounts := a₁ } { s₂ with accounts := a₂ } := ⟨ha, h.book, h.hub⟩

theorem withBook (book : RoomBook) : Twins old₁ old₂ { s₁ with book } { s₂ with book } :=
  ⟨h.accounts, rfl, h.hub⟩

theorem withHub (hub : Hub) : Twins old₁ old₂ { s₁ with hub } { s₂ with hub } :=
  ⟨h.accounts, h.book, rfl⟩

theorem shown_eq (now : Instant) : s₁.shown now = s₂.shown now := by
  have husers := h.accounts.users
  unfold shown
  generalize s₁.accounts.users = users₁ at husers ⊢
  generalize s₂.accounts.users = users₂ at husers ⊢
  induction husers with
  | nil => rfl
  | cons htwin _ ih => rw [List.map_cons, List.map_cons, htwin.info_eq, ih]

/-! ### Each route -/

theorem register (u : Supply) (q : RegisterRequest) :
    Agree (Twins old₁ old₂) (App.register s₁ u q) (App.register s₂ u q) := by
  unfold App.register
  refine .ite (fun _ => ⟨rfl, h⟩) fun _ => ?_
  obtain ⟨result, a₁, a₂, h₁, h₂, ha⟩ :=
    (h.accounts.signup u.now u.fresh q.email q.username q.password).elim
  rw [h₁, h₂]
  cases result with
  | error e => exact ⟨rfl, h.withAccounts ha⟩
  | ok user => exact ⟨rfl, h.withAccounts ha⟩

theorem login (u : Supply) (q : LoginRequest) :
    Agree (Twins old₁ old₂) (App.login s₁ u q) (App.login s₂ u q) := by
  unfold App.login
  obtain ⟨result, a₁, a₂, h₁, h₂, ha⟩ :=
    (h.accounts.login u.now u.later u.fresh q.email q.password).elim
  rw [h₁, h₂]
  cases result with
  | error e => exact ⟨rfl, h.withAccounts ha⟩
  | ok found => exact ⟨rfl, h.withAccounts ha⟩

theorem logout (authorization : Option (List UInt8)) :
    Agree (Twins old₁ old₂) (App.logout s₁ authorization) (App.logout s₂ authorization) := by
  unfold App.logout
  cases Admission.headerToken? authorization with
  | none => exact ⟨rfl, h⟩
  | some token =>
    obtain ⟨result, a₁, a₂, h₁, h₂, ha⟩ :=
      (h.accounts.of_isBlind (Accounts.isBlind_logout token)).elim
    dsimp only at h₁ h₂ ⊢
    rw [h₁, h₂]
    cases result with
    | error e => exact ⟨rfl, h.withAccounts ha⟩
    | ok u => exact ⟨rfl, h.withAccounts ha⟩

theorem showUser_eq (u : Supply) (id : String) : App.showUser s₂ u id = App.showUser s₁ u id := by
  unfold App.showUser
  rw [h.accounts.findUser_eq]

theorem createRoom (u : Supply) (q : CreateRoomRequest) :
    Agree (Twins old₁ old₂) (App.createRoom s₁ u q) (App.createRoom s₂ u q) := by
  unfold App.createRoom
  refine .ite (fun _ => ⟨rfl, h⟩) fun _ => ?_
  rw [h.book]
  rcases s₁.book.create u.now (Text.trim q.roomId) none with ⟨e | room, book⟩
  · exact ⟨rfl, h.withBook book⟩
  · exact ⟨rfl, h.withBook book⟩

theorem listRooms_eq (u : Supply) : App.listRooms s₂ u = App.listRooms s₁ u := by
  unfold App.listRooms
  rw [h.book]

theorem deleteRoom (roomId : String) :
    Agree (Twins old₁ old₂) (App.deleteRoom s₁ roomId) (App.deleteRoom s₂ roomId) := by
  have hclosed : s₂.hub.closeRoom roomId = s₁.hub.closeRoom roomId := by rw [h.hub]
  unfold App.deleteRoom
  rw [h.book, hclosed]
  rcases s₁.book.delete roomId with ⟨e | wasThere, book⟩
  · exact ⟨rfl, h.withBook book⟩
  · cases wasThere with
    | false => exact ⟨rfl, h.withBook book⟩
    | true => exact ⟨rfl, (h.withBook book).withHub _⟩

theorem presence_eq (roomId : String) : App.presence s₂ roomId = App.presence s₁ roomId := by
  unfold App.presence
  rw [h.hub]

/-! ### All routes -/

theorem withBody (c : Json.Schema) (r : Request) {k₁ k₂ : Json.Row c.fields → Response × Service}
    (hk : ∀ row, Agree (Twins old₁ old₂) (k₁ row) (k₂ row)) :
    Agree (Twins old₁ old₂) (App.withBody c r s₁ k₁) (App.withBody c r s₂ k₂) := by
  unfold App.withBody
  cases readBody c r with
  | error response => exact ⟨rfl, h⟩
  | ok row => exact hk row

theorem withParameter (name : String) (bytes : List UInt8) {k₁ k₂ : String → Response × Service}
    (hk : ∀ text, Agree (Twins old₁ old₂) (k₁ text) (k₂ text)) :
    Agree (Twins old₁ old₂) (App.withParameter name bytes s₁ k₁)
      (App.withParameter name bytes s₂ k₂) := by
  unfold App.withParameter
  cases Route.parameter name bytes with
  | error response => exact ⟨rfl, h⟩
  | ok text => exact hk text

theorem answer (route : Route) (r : Request) (canUpgrade : Bool) (u : Supply) :
    Agree (Twins old₁ old₂) (App.answer route r canUpgrade u s₁)
      (App.answer route r canUpgrade u s₂) := by
  have hplain : ∀ {p₁ p₂ : Response × Service}, Agree (Twins old₁ old₂) p₁ p₂ →
      Agree (Twins old₁ old₂) (Reply.response p₁.1, p₁.2) (Reply.response p₂.1, p₂.2) :=
    fun hp => ⟨congrArg Reply.response hp.1, hp.2⟩
  cases route with
  | register => exact hplain (h.withBody _ r fun row => h.register u _)
  | login => exact hplain (h.withBody _ r fun row => h.login u _)
  | logout => exact hplain (h.logout _)
  | user id => exact hplain (h.withParameter _ id fun id => ⟨(h.showUser_eq u id).symm, h⟩)
  | rooms =>
    unfold App.answer
    refine .ite (fun _ => ?_) fun _ => ?_
    · exact hplain (h.withBody _ r fun row => h.createRoom u _)
    · exact hplain ⟨(h.listRooms_eq u).symm, h⟩
  | room id => exact hplain (h.withParameter _ id fun id => h.deleteRoom id)
  | presence id => exact hplain (h.withParameter _ id fun id => ⟨(h.presence_eq id).symm, h⟩)
  | socket => exact ⟨rfl, h⟩
  | health => exact ⟨rfl, h⟩

theorem dispatch (r : Request) (canUpgrade : Bool) (u : Supply) :
    Agree (Twins old₁ old₂) (App.dispatch r canUpgrade u s₁) (App.dispatch r canUpgrade u s₂) := by
  unfold App.dispatch
  dsimp only
  cases Route.ofPath? r.target.path with
  | none => exact .ite (fun _ => ⟨rfl, h⟩) fun _ => ⟨rfl, h⟩
  | some route =>
    refine .ite (fun _ => ⟨rfl, h⟩) fun _ => .ite (fun _ => ?_) fun _ => ⟨rfl, h⟩
    obtain ⟨reply, s₁', s₂', h₁, h₂, h'⟩ := (h.answer route r canUpgrade u).elim
    rw [h₁, h₂]
    cases reply with
    | response response => exact ⟨rfl, h'⟩
    | socket key params authorization => exact ⟨rfl, h'⟩

/-! ### Admission to a socket -/

theorem authenticate (progress : Progress) (now : Instant) (token : String) :
    Agree (Twins old₁ old₂) (s₁.authenticate progress now token)
      (s₂.authenticate progress now token) := by
  cases progress with
  | nothing => exact ⟨rfl, h⟩
  | session =>
    have hfound := h.accounts.of_isBlind (Accounts.isBlind_findSession now token)
    exact ⟨rfl, h.withAccounts hfound.2⟩
  | all =>
    have hanswer := h.accounts.validate now token
    exact ⟨congrArg Timed.answered hanswer.1, h.withAccounts hanswer.2⟩

theorem lookUp (inTime : Bool) (room : String) :
    Agree (Twins old₁ old₂) (s₁.lookUp inTime room) (s₂.lookUp inTime room) := by
  unfold Service.lookUp
  rw [h.book]
  refine .ite (fun _ => ?_) fun _ => ⟨rfl, h⟩
  cases s₁.book.contains room with
  | error e => exact ⟨rfl, h⟩
  | ok b => exact ⟨rfl, h⟩

theorem handshake (now : Instant) (progress : Progress) (inTime : Bool) (token room : String) :
    Agree (Twins old₁ old₂) (Admission.handshake (desk now progress inTime) token room s₁)
      (Admission.handshake (desk now progress inTime) token room s₂) := by
  obtain ⟨answer, s₁', s₂', h₁, h₂, h'⟩ := (h.authenticate progress now token).elim
  unfold Admission.handshake desk
  dsimp only
  rw [h₁, h₂]
  dsimp only
  cases Admission.identityOf answer with
  | error e => exact ⟨rfl, h'⟩
  | ok identity =>
    obtain ⟨found, s₁'', s₂'', h₁', h₂', h''⟩ := (h'.lookUp inTime room).elim
    dsimp only
    rw [h₁', h₂']
    dsimp only
    cases Admission.roomOf found with
    | error e => exact ⟨rfl, h''⟩
    | ok u => exact ⟨rfl, h''⟩

theorem ticketFor (now : Instant) (progress : Progress) (inTime : Bool) (p : ConnectParams)
    (authorization : Option (List UInt8)) :
    Agree (Twins old₁ old₂) (Admission.ticketFor (desk now progress inTime) p authorization s₁)
      (Admission.ticketFor (desk now progress inTime) p authorization s₂) := by
  unfold Admission.ticketFor
  cases Admission.token? p authorization with
  | none => exact ⟨rfl, h⟩
  | some token =>
    cases Admission.room? p with
    | none => exact ⟨rfl, h⟩
    | some room =>
      obtain ⟨result, s₁', s₂', h₁, h₂, h'⟩ := (h.handshake now progress inTime token room).elim
      dsimp only
      rw [h₁, h₂]
      cases result with
      | error e => exact ⟨rfl, h'⟩
      | ok identity => exact ⟨rfl, h'⟩

/-! ### Steps and runs -/

theorem serve (r : Request) (canUpgrade : Bool) (u : Supply) (progress : Progress)
    (inTime : Bool) :
    Agree (Twins old₁ old₂) (s₁.serve r canUpgrade u progress inTime)
      (s₂.serve r canUpgrade u progress inTime) := by
  obtain ⟨reply, s₁', s₂', h₁, h₂, h'⟩ := (h.dispatch r canUpgrade u).elim
  unfold Service.serve
  rw [h₁, h₂]
  cases reply with
  | response response => exact ⟨rfl, h'⟩
  | socket key params authorization =>
    obtain ⟨result, s₁'', s₂'', h₁', h₂', h''⟩ :=
      (h'.ticketFor u.now progress inTime params authorization).elim
    dsimp only
    rw [h₁', h₂']
    cases result with
    | error e => exact ⟨rfl, h''⟩
    | ok ticket => exact ⟨rfl, h''⟩

/-- **An event looks the same on both sides**, and leaves services with twin rows. -/
theorem step (e : Event) : Agree (Twins old₁ old₂) (s₁.step e) (s₂.step e) := by
  cases e with
  | request r canUpgrade u progress inTime => exact h.serve r canUpgrade u progress inTime
  | operate op =>
    unfold Service.step
    rw [h.hub]
    exact ⟨rfl, h.withHub _⟩

theorem run (events : List Event) :
    s₁.outcomes events = s₂.outcomes events ∧
      Twins old₁ old₂ (s₁.after events) (s₂.after events) := by
  induction events generalizing s₁ s₂ with
  | nil => exact ⟨rfl, h⟩
  | cons e events ih =>
    obtain ⟨houtcome, hnext⟩ := h.step e
    obtain ⟨houtcomes, hlast⟩ := ih hnext
    refine ⟨?_, hlast⟩
    rw [outcomes, outcomes, houtcome, houtcomes]

end Twins

/-- **The hashes of passwords stay secret.** Take two services that are equal but for the hashes of
users, which accept the same passwords. Whatever happens, all that can be seen of it is the same,
and the services are again equal but for the hashes: those from the beginning, which are kept, while
those that were added are the same. The users of both are shown as the same texts, and no text that
shows a user tells a hash. -/
theorem hashes_stay_secret {s₁ s₂ : Service}
    (hrest : s₂ = { s₁ with accounts := { s₁.accounts with users := s₂.accounts.users } })
    (husers : List.Forall₂ Accounts.Twin s₁.accounts.users s₂.accounts.users)
    (events : List Event) :
    s₁.outcomes events = s₂.outcomes events ∧
      Twins s₁.hashes s₂.hashes (s₁.after events) (s₂.after events) ∧
      (∀ now, (s₁.after events).shown now = (s₂.after events).shown now) ∧
      ∀ (user : User) (hash : Password.Hash),
        { user with passwordHash := hash }.json = user.json ∧
        { user with passwordHash := hash }.info.json = user.info.json := by
  have h : Twins s₁.hashes s₂.hashes s₁ s₂ :=
    { accounts :=
        { users := husers
          rest := congrArg Service.accounts hrest
          hashes := ⟨[], (List.append_nil _).symm, (List.append_nil _).symm⟩ }
      book := by rw [hrest]
      hub := by rw [hrest] }
  obtain ⟨houtcomes, hlast⟩ := h.run events
  exact ⟨houtcomes, hlast, hlast.shown_eq, fun user hash => ⟨rfl, rfl⟩⟩

/-- A service with one user, whose hash has some cost. -/
def oneUser (cost : Nat) : Service :=
  let ann : UserRow :=
    ⟨"7", "ann@example.org", "ann", .made cost (Password.key "secret"), "2026-07-01", none⟩
  { accounts := { Accounts.empty 3600000000000 4 with users := [ann] }, book := .empty, hub := .empty }

/-- Requests to log in as the user, with the password and without, to look the user up, and to
register another one. -/
def someRequests : List Event :=
  let post (path body : String) : Request :=
    { method := "POST", target := ⟨Text.Utf8.encode path.toList, none⟩
      headers := [⟨"content-type", Text.Utf8.encode "application/json".toList⟩]
      body := Text.Utf8.encode body.toList }
  let request (r : Request) (fresh : String) : Event :=
    .request r false ⟨.zero, .zero, fresh⟩ .all true
  [request (post "/login" "\x7b\"email\": \"ann@example.org\", \"password\": \"secret\"\x7d") "t",
    request (post "/login" "\x7b\"email\": \"ann@example.org\", \"password\": \"sesame\"\x7d") "u",
    request ⟨"GET", ⟨Text.Utf8.encode "/user/7".toList, none⟩, [], []⟩ "v",
    request (post "/register"
      "\x7b\"email\": \"bob@example.org\", \"username\": \"bob\", \"password\": \"hush\"\x7d") "8"]

def Outcome.status? : Outcome → Option Nat
  | .response r => some r.status
  | _ => none

theorem hashes_stay_secret_costs :
    (oneUser 4).hashes ≠ (oneUser 12).hashes ∧
      ((oneUser 4).outcomes someRequests).map Outcome.status? =
        [some 200, some 401, some 200, some 200] ∧
      (oneUser 4).outcomes someRequests = (oneUser 12).outcomes someRequests ∧
      Twins (oneUser 4).hashes (oneUser 12).hashes ((oneUser 4).after someRequests)
        ((oneUser 12).after someRequests) := by
  have htwins : List.Forall₂ Accounts.Twin (oneUser 4).accounts.users (oneUser 12).accounts.users :=
    .cons ⟨rfl, fun _ => rfl⟩ .nil
  obtain ⟨houtcomes, hlast, -⟩ := hashes_stay_secret rfl htwins someRequests
  exact ⟨by decide, by decide +kernel, houtcomes, hlast⟩

end Service

end ChatRooms

import ChatRooms.Proofs.Http.Secrecy
import ChatRooms.Proofs.Session.Provenance
import ChatRooms.Proofs.Text.Blank
import ChatRooms.Proofs.Text.Utf8

/-!
Who is let in. A request for a socket is answered in a fixed order: without a token it is refused
before anything else is looked at, without a room before anybody is asked, and with both the gateway
is asked first, and the directory only after the gateway has named somebody. What counts as the
token of a request is told here without a reader: it is the one of the query unless that is empty,
and else the word after `Bearer` in a header of visible text.

The gateway and the directory may be any that refuse a token as unauthorized and leave the hub to
itself; the service's own are such.
-/

namespace ChatRooms

open ChatRooms.Text ChatRooms.Time

/-! ### The token of a request -/

namespace Admission

/-- The character may stand in a header that is read as text. -/
def IsVisible (c : Char) : Prop := (' ' ≤ c ∧ c ≤ '~') ∨ c = '\t'

/-- The bytes of a header write the word `Bearer`, a blank and the token, which is not empty; more
blanks around the token do not count. -/
def Bears (value : List UInt8) (token : String) : Prop :=
  token ≠ "" ∧ IsTrimmed token.toList ∧ ∃ before after, (∀ c ∈ before, isBlank c = true) ∧
    (∀ c ∈ after, isBlank c = true) ∧
    (∀ c ∈ before ++ token.toList ++ after, IsVisible c) ∧
    value = Utf8.encode ("Bearer ".toList ++ (before ++ token.toList ++ after))

/-- The token with which a request comes: that of the query, or if there is none or an empty one,
that of the header. -/
def Presents (p : ConnectParams) (authorization : Option (List UInt8)) (token : String) : Prop :=
  (p.token = some token ∧ token ≠ "") ∨
    ((p.token = none ∨ p.token = some "") ∧ ∃ value, authorization = some value ∧ Bears value token)

/-- The room to which a request goes. -/
def Names (p : ConnectParams) (room : String) : Prop := p.roomId = some room ∧ room ≠ ""

theorem isVisible_iff {c : Char} :
    IsVisible c ↔ (0x20 ≤ c.toNat ∧ c.toNat < 0x7F) ∨ c.toNat = 0x09 := by
  have hle : ∀ a b : Char, a ≤ b ↔ a.toNat ≤ b.toNat := fun _ _ => UInt32.le_iff_toNat_le
  have htab : c = '\t' ↔ c.toNat = 0x09 := ⟨fun h => by rw [h]; rfl, fun h => Char.toNat_inj.mp h⟩
  rw [IsVisible, hle, hle, htab]
  exact or_congr_left (and_congr_right fun _ => Nat.lt_succ_iff.symm)

/-- The byte may stand in a header that is read as text. -/
def isVisibleByte (b : UInt8) : Bool := (0x20 ≤ b && b < 0x7F) || b == 0x09

theorem isVisibleByte_iff {b : UInt8} :
    isVisibleByte b = true ↔ (0x20 ≤ b.toNat ∧ b.toNat < 0x7F) ∨ b.toNat = 0x09 := by
  simp [isVisibleByte, UInt8.le_iff_toNat_le, UInt8.lt_iff_toNat_lt, ← UInt8.toNat_inj]

/-- A byte of a header that is read as text is a visible character, and the whole of it. -/
theorem isVisible_ofNat {b : UInt8} (h : isVisibleByte b = true) :
    IsVisible (Char.ofNat b.toNat) ∧ String.utf8EncodeChar (Char.ofNat b.toNat) = [b] := by
  rw [isVisibleByte_iff] at h
  have hb : (Char.ofNat b.toNat).toNat = b.toNat := Utf8.toNat_ofNat (.inl (by omega))
  refine ⟨isVisible_iff.mpr (by rw [hb]; exact h), ?_⟩
  rw [Utf8.utf8EncodeChar_of_lt (by omega), hb, UInt8.ofNat_toNat]

theorem exists_byte_of_isVisible {c : Char} (h : IsVisible c) :
    ∃ b : UInt8, isVisibleByte b = true ∧ String.utf8EncodeChar c = [b] ∧
      Char.ofNat b.toNat = c := by
  rw [isVisible_iff] at h
  have hc : (UInt8.ofNat c.toNat).toNat = c.toNat := Utf8.toNat_byte (by omega)
  refine ⟨UInt8.ofNat c.toNat, isVisibleByte_iff.mpr (by rw [hc]; exact h),
    Utf8.utf8EncodeChar_of_lt (by omega), ?_⟩
  rw [hc, Char.ofNat_toNat]

theorem headerText?_encode {s : List Char} (h : ∀ c ∈ s, IsVisible c) :
    headerText? (Utf8.encode s) = some (String.ofList s) := by
  have hbytes : (Utf8.encode s).all isVisibleByte = true ∧
      (Utf8.encode s).map (fun b => Char.ofNat b.toNat) = s := by
    induction s with
    | nil => exact ⟨rfl, rfl⟩
    | cons c s ih =>
      obtain ⟨hall, hmap⟩ := ih fun d hd => h d (List.mem_cons_of_mem c hd)
      obtain ⟨b, hb, hencode, hc⟩ := exists_byte_of_isVisible (h c List.mem_cons_self)
      have hcons : Utf8.encode (c :: s) = b :: Utf8.encode s := by
        rw [Utf8.encode_cons, hencode]
        rfl
      rw [hcons]
      exact ⟨by rw [List.all_cons, hb, hall]; rfl, by rw [List.map_cons, hc, hmap]⟩
  exact (if_pos hbytes.1).trans (by rw [hbytes.2])

theorem headerText?_eq_some_iff {value : List UInt8} {text : String} :
    headerText? value = some text ↔
      (∀ c ∈ text.toList, IsVisible c) ∧ value = Utf8.encode text.toList := by
  constructor
  · intro h
    rw [headerText?] at h
    split at h
    · rename_i hall
      cases h
      have hvisible := fun b hb => isVisible_ofNat (List.all_eq_true.mp hall b hb)
      rw [String.toList_ofList]
      refine ⟨fun c hc => ?_, ?_⟩
      · obtain ⟨b, hb, rfl⟩ := List.mem_map.mp hc
        exact (hvisible b hb).1
      · rw [Utf8.encode, List.flatMap_map, List.flatMap_congr fun b hb => (hvisible b hb).2,
          List.flatMap_singleton']
    · cases h
  · rintro ⟨hvisible, rfl⟩
    rw [headerText?_encode hvisible, String.ofList_toList]

theorem bearerToken_eq_some_iff {header token : String} :
    bearerToken header = some token ↔ token ≠ "" ∧ IsTrimmed token.toList ∧
      ∃ before after, (∀ c ∈ before, isBlank c = true) ∧ (∀ c ∈ after, isBlank c = true) ∧
        header.toList = "Bearer ".toList ++ (before ++ token.toList ++ after) := by
  have hword : bearerToken header = some token ↔
      token ≠ "" ∧ ∃ rest, header.toList = "Bearer ".toList ++ rest ∧
        trimList rest = token.toList := by
    rw [bearerToken]
    constructor
    · intro h
      dsimp only at h
      split at h
      · rename_i hscheme
        obtain ⟨rest, hrest⟩ := List.isPrefixOf_iff_prefix.mp hscheme
        rw [← hrest, List.drop_left] at h
        split at h
        · cases h
        · rename_i hnonempty
          cases h
          refine ⟨fun hempty => hnonempty ?_, rest, hrest.symm, String.toList_ofList.symm⟩
          rw [List.isEmpty_iff, ← String.toList_ofList (l := trimList rest), hempty]
          rfl
      · cases h
    · rintro ⟨hnonempty, rest, hrest, htoken⟩
      have hscheme : "Bearer ".toList.isPrefixOf header.toList = true :=
        List.isPrefixOf_iff_prefix.mpr ⟨rest, hrest.symm⟩
      have htrimmed : (trimList rest).isEmpty = false := by
        rw [htoken, List.isEmpty_eq_false_iff]
        exact fun hnil => hnonempty (String.toList_eq_nil_iff.mp hnil)
      dsimp only
      rw [if_pos hscheme, hrest, List.drop_left, htrimmed, htoken]
      simp
  rw [hword]
  refine and_congr_right fun _ => ?_
  constructor
  · rintro ⟨rest, hrest, htoken⟩
    obtain ⟨htrimmed, before, after, hbefore, hafter, rfl⟩ := trimList_eq_iff.mp htoken
    exact ⟨htrimmed, before, after, hbefore, hafter, hrest⟩
  · rintro ⟨htrimmed, before, after, hbefore, hafter, hheader⟩
    exact ⟨_, hheader, trimList_eq_iff.mpr ⟨htrimmed, before, after, hbefore, hafter, rfl⟩⟩

theorem headerToken?_eq_some_iff {authorization : Option (List UInt8)} {token : String} :
    headerToken? authorization = some token ↔
      ∃ value, authorization = some value ∧ Bears value token := by
  have hscheme : ∀ c ∈ "Bearer ".toList, IsVisible c := by simp [IsVisible]
  simp only [headerToken?, Option.bind_eq_some_iff, headerText?_eq_some_iff,
    bearerToken_eq_some_iff]
  constructor
  · rintro ⟨text, ⟨value, rfl, hvisible, rfl⟩, hnonempty, htrimmed, before, after, hbefore, hafter,
      htext⟩
    rw [htext] at hvisible ⊢
    exact ⟨_, rfl, hnonempty, htrimmed, before, after, hbefore, hafter,
      fun c hc => hvisible c (List.mem_append_right _ hc), rfl⟩
  · rintro ⟨value, rfl, hnonempty, htrimmed, before, after, hbefore, hafter, hvisible, rfl⟩
    refine ⟨String.ofList ("Bearer ".toList ++ (before ++ token.toList ++ after)),
      ⟨_, rfl, fun c hc => ?_, congrArg _ String.toList_ofList.symm⟩, hnonempty, htrimmed, before,
      after, hbefore, hafter, String.toList_ofList⟩
    rw [String.toList_ofList] at hc
    exact (List.mem_append.mp hc).elim (hscheme c) (hvisible c)

theorem token?_eq_some_iff {p : ConnectParams} {authorization : Option (List UInt8)}
    {token : String} : token? p authorization = some token ↔ Presents p authorization token := by
  rw [token?, Presents, ← headerToken?_eq_some_iff]
  rcases p.token with - | t
  · simp
  · by_cases ht : t = ""
    · subst ht
      simp
    · have hfilter : (some t).filter (fun t => !t.isEmpty) = some t := by simp [ht]
      have hsame : t = token → token ≠ "" := fun h => h ▸ ht
      rw [hfilter]
      simpa [ht] using hsame

theorem token?_eq_none_iff {p : ConnectParams} {authorization : Option (List UInt8)} :
    token? p authorization = none ↔ ∀ token, ¬ Presents p authorization token := by
  simp only [Option.eq_none_iff_forall_ne_some, ne_eq, token?_eq_some_iff]

theorem room?_eq_some_iff {p : ConnectParams} {room : String} :
    room? p = some room ↔ Names p room := by
  simp [room?, Names, Option.filter_eq_some_iff]

theorem room?_eq_none_iff {p : ConnectParams} : room? p = none ↔ ∀ room, ¬ Names p room := by
  simp only [Option.eq_none_iff_forall_ne_some, ne_eq, room?_eq_some_iff]

/-! ### The order of the questions -/

theorem roomOf_error {answer : Timed (Except LookupError Bool)} {e : ChatError}
    (h : roomOf answer = .error e) : answer ≠ .answered (.ok true) ∧ e = .roomNotFound := by
  unfold roomOf at h
  split at h
  · cases h
  · rename_i hno
    cases h
    exact ⟨hno, rfl⟩

section Order

variable {σ : Type} (d : Desk σ) (p : ConnectParams) (authorization : Option (List UInt8)) (s : σ)

/-- How a request for a socket is decided on, and what has been asked until then. -/
inductive Decided : Except ChatError Ticket × σ → Prop where
  | noToken (htoken : token? p authorization = none) : Decided (.error .unauthorized, s)
  | noRoom {token : String} (htoken : token? p authorization = some token)
      (hroom : room? p = none) : Decided (.error (.badRequest "room_id is required"), s)
  | refused {token room : String} {e : ChatError} (htoken : token? p authorization = some token)
      (hroom : room? p = some room)
      (hgateway : identityOf (d.authenticate token s).1 = .error e) :
      Decided (.error e, (d.authenticate token s).2)
  | unknown {token room : String} {identity : Identity}
      (htoken : token? p authorization = some token) (hroom : room? p = some room)
      (hgateway : (d.authenticate token s).1 = .answered (.ok identity))
      (hdirectory : (d.lookUp room (d.authenticate token s).2).1 ≠ .answered (.ok true)) :
      Decided (.error .roomNotFound, (d.lookUp room (d.authenticate token s).2).2)
  | granted {token room : String} {identity : Identity}
      (htoken : token? p authorization = some token) (hroom : room? p = some room)
      (hgateway : (d.authenticate token s).1 = .answered (.ok identity))
      (hdirectory : (d.lookUp room (d.authenticate token s).2).1 = .answered (.ok true)) :
      Decided (.ok ⟨identity, room⟩, (d.lookUp room (d.authenticate token s).2).2)

theorem decided_ticketFor : Decided d p authorization s (ticketFor d p authorization s) := by
  rw [ticketFor]
  split
  · rename_i htoken
    exact .noToken htoken
  · rename_i token htoken
    split
    · rename_i hroom
      exact .noRoom htoken hroom
    · rename_i room hroom
      rw [handshake]
      dsimp only
      cases hgateway : identityOf (d.authenticate token s).1 with
      | error e => exact .refused htoken hroom hgateway
      | ok identity =>
        have hanswer := identityOf_ok hgateway
        dsimp only
        cases hdirectory : roomOf (d.lookUp room (d.authenticate token s).2).1 with
        | error e =>
          obtain ⟨hno, rfl⟩ := roomOf_error hdirectory
          exact .unknown htoken hroom hanswer hno
        | ok u => exact .granted htoken hroom hanswer (roomOf_ok hdirectory)

end Order

section Decision

variable {σ : Type} {d : Desk σ} {p : ConnectParams} {authorization : Option (List UInt8)} {s : σ}
  (hrefusal : ∀ token e, (d.authenticate token s).1 = .answered (.error e) → e = .unauthorized)
  {o : Except ChatError Ticket × σ} (h : Decided d p authorization s o)

include hrefusal

theorem identityOf_error {token : String} {e : ChatError}
    (h : identityOf (d.authenticate token s).1 = .error e) :
    e = .unauthorized ∧ ∀ identity, (d.authenticate token s).1 ≠ .answered (.ok identity) := by
  cases hanswer : (d.authenticate token s).1 with
  | timedOut =>
    rw [hanswer] at h
    cases h
    exact ⟨rfl, fun _ => nofun⟩
  | answered r =>
    rw [hanswer] at h
    subst h
    exact ⟨hrefusal token e hanswer, fun _ => nofun⟩

include h

theorem Decided.unauthorized_iff :
    o.1 = .error .unauthorized ↔ token? p authorization = none ∨
      ∃ token room, token? p authorization = some token ∧ room? p = some room ∧
        ∀ identity, (d.authenticate token s).1 ≠ .answered (.ok identity) := by
  cases h with
  | noToken htoken => simp [htoken]
  | noRoom htoken hroom => simp [htoken, hroom]
  | refused htoken hroom hgateway =>
    obtain ⟨rfl, hno⟩ := identityOf_error hrefusal hgateway
    simp [htoken, hroom, hno]
  | unknown htoken hroom hgateway hdirectory => simp [htoken, hroom, hgateway]
  | granted htoken hroom hgateway hdirectory => simp [htoken, hroom, hgateway]

theorem Decided.badRequest_iff :
    o.1 = .error (.badRequest "room_id is required") ↔
      (∃ token, token? p authorization = some token) ∧ room? p = none := by
  cases h with
  | noToken htoken => simp [htoken]
  | noRoom htoken hroom => simp [htoken, hroom]
  | refused htoken hroom hgateway =>
    obtain ⟨rfl, hno⟩ := identityOf_error hrefusal hgateway
    simp [hroom]
  | unknown htoken hroom hgateway hdirectory => simp [hroom]
  | granted htoken hroom hgateway hdirectory => simp [hroom]

theorem Decided.roomNotFound_iff :
    o.1 = .error .roomNotFound ↔ ∃ token room identity, token? p authorization = some token ∧
      room? p = some room ∧ (d.authenticate token s).1 = .answered (.ok identity) ∧
      (d.lookUp room (d.authenticate token s).2).1 ≠ .answered (.ok true) := by
  cases h with
  | noToken htoken => simp [htoken]
  | noRoom htoken hroom => simp [hroom]
  | refused htoken hroom hgateway =>
    obtain ⟨rfl, hno⟩ := identityOf_error hrefusal hgateway
    simp [htoken, hno]
  | unknown htoken hroom hgateway hdirectory => simp [htoken, hroom, hgateway, hdirectory]
  | granted htoken hroom hgateway hdirectory => simp [htoken, hroom, hdirectory]

theorem Decided.ok_iff (t : Ticket) :
    o.1 = .ok t ↔ ∃ token, token? p authorization = some token ∧ room? p = some t.room ∧
      (d.authenticate token s).1 = .answered (.ok t.identity) ∧
      (d.lookUp t.room (d.authenticate token s).2).1 = .answered (.ok true) := by
  obtain ⟨identity, room⟩ := t
  cases h with
  | noToken htoken => simp [htoken]
  | noRoom htoken hroom => simp [hroom]
  | refused htoken hroom hgateway =>
    obtain ⟨rfl, hno⟩ := identityOf_error hrefusal hgateway
    simp [htoken, hno]
  | unknown htoken hroom hgateway hdirectory =>
    refine ⟨nofun, ?_⟩
    rintro ⟨token', htoken', hroom', -, hyes⟩
    rw [htoken] at htoken'
    rw [hroom] at hroom'
    cases htoken'
    cases hroom'
    exact absurd hyes hdirectory
  | granted htoken hroom hgateway hdirectory =>
    constructor
    · rintro ⟨⟩
      exact ⟨_, htoken, hroom, hgateway, hdirectory⟩
    · rintro ⟨token', htoken', hroom', hgateway', -⟩
      rw [htoken] at htoken'
      rw [hroom] at hroom'
      cases htoken'
      cases hroom'
      rw [hgateway] at hgateway'
      cases hgateway'
      rfl

theorem Decided.error_cases {e : ChatError} (he : o.1 = .error e) :
    e = .unauthorized ∨ e = .badRequest "room_id is required" ∨ e = .roomNotFound := by
  cases h with
  | noToken htoken => exact .inl (Except.error.inj he).symm
  | noRoom htoken hroom => exact .inr (.inl (Except.error.inj he).symm)
  | refused htoken hroom hgateway =>
    obtain ⟨rfl, hno⟩ := identityOf_error hrefusal hgateway
    exact .inl (Except.error.inj he).symm
  | unknown htoken hroom hgateway hdirectory => exact .inr (.inr (Except.error.inj he).symm)
  | granted htoken hroom hgateway hdirectory => cases he

end Decision

/-- The directory is asked only about a room for which somebody has been named. -/
theorem ticketFor_lookUp {σ : Type} {d : Desk σ} {p : ConnectParams}
    {authorization : Option (List UInt8)} {s : σ}
    (h : ∀ token room identity, token? p authorization = some token → room? p = some room →
      (d.authenticate token s).1 ≠ .answered (.ok identity))
    (lookUp : String → σ → Timed (Except LookupError Bool) × σ) :
    ticketFor { d with lookUp } p authorization s = ticketFor d p authorization s := by
  unfold ticketFor
  cases htoken : token? p authorization with
  | none => rfl
  | some token =>
    cases hroom : room? p with
    | none => rfl
    | some room =>
      dsimp only [handshake]
      cases hgateway : identityOf (d.authenticate token s).1 with
      | error e => rfl
      | ok identity => exact absurd (identityOf_ok hgateway) (h token room identity htoken hroom)

end Admission

/-! ### The answer to a request for a socket -/

/-- The desk refuses a token in no other way than as unauthorized, and what it is asked changes
nothing about rooms and connections. -/
structure Desk.IsProper (d : Desk Service) : Prop where
  refusal : ∀ token s e, (d.authenticate token s).1 = .answered (.error e) → e = .unauthorized
  hub_authenticate : ∀ token s, (d.authenticate token s).2.hub = s.hub
  hub_lookUp : ∀ room s, (d.lookUp room s).2.hub = s.hub

namespace Service

open ChatRooms.Http ChatRooms.Admission

/-- The request asks for a socket, it can be upgraded, and its query can be read. -/
structure AsksForSocket (r : Request) (key : List UInt8) (p : ConnectParams) : Prop where
  route : Route.ofPath? r.target.path = some .socket
  key : Socket.upgradeKey r = .ok key
  params : ConnectParams.ofQuery (r.target.query.getD []) = .ok p

/-- Answers a request over a connection that can be upgraded, before any desk. -/
def serveWith (d : Desk Service) (s : Service) (r : Request) (u : Supply) : Outcome × Service :=
  match App.dispatch r true u s with
  | (.response response, s) => (.response response, s)
  | (.socket key params authorization, s) =>
    match ticketFor d params authorization s with
    | (.error e, s) => (.response (App.refuseSocket e), s)
    | (.ok ticket, s) => (.upgraded (Socket.acceptKey key) ticket, s)

theorem serve_eq_serveWith (s : Service) (r : Request) (u : Supply) (progress : Progress)
    (inTime : Bool) :
    s.serve r true u progress inTime = s.serveWith (desk u.now progress inTime) r u := rfl

/-! ### The service as a desk -/

theorem validate_error {a : Accounts} {now : Instant} {token : String} {e : ChatError}
    (h : (a.validate now token).1 = .error e) : e = .unauthorized := by
  unfold Accounts.validate at h
  split at h
  · cases h
  · cases h
    rfl

theorem isProper_desk (now : Instant) (progress : Progress) (inTime : Bool) :
    (desk now progress inTime).IsProper where
  refusal token s e h := by
    cases progress with
    | nothing => cases h
    | session => cases h
    | all => exact validate_error (Timed.answered.inj h)
  hub_authenticate token s := by cases progress <;> rfl
  hub_lookUp room s := by
    show (s.lookUp inTime room).2.hub = s.hub
    unfold lookUp
    split
    · split <;> rfl
    · rfl

/-! ### Requests that can be upgraded -/

theorem method_of_upgradeKey {r : Request} {key : List UInt8} (h : Socket.upgradeKey r = .ok key) :
    r.method = "GET" := by
  by_contra hmethod
  rw [Socket.upgradeKey, if_pos hmethod] at h
  cases h

theorem status_complete (method : String) (r : Response) :
    (App.complete method r).status = r.status := by
  have hdefault : ∀ (r : Response) name value, (r.withDefault name value).status = r.status := by
    intro r name value
    rw [Response.withDefault]
    split <;> rfl
  rw [App.complete]
  split
  · exact hdefault _ _ _
  · exact hdefault _ _ _

theorem status_refuseSocket (e : ChatError) : (App.refuseSocket e).status = e.status :=
  status_complete _ _

section Asks

variable {r : Request} {key : List UInt8} {p : ConnectParams} (hr : AsksForSocket r key p)

include hr

theorem AsksForSocket.dispatch (s : Service) (u : Supply) :
    App.dispatch r true u s =
      (.socket key p (firstValue? r.headers "authorization"), s) := by
  have hmethod : r.method = "GET" := method_of_upgradeKey hr.key
  have hanswer : App.answer .socket r true u s =
      (.socket key p (firstValue? r.headers "authorization"), s) := by
    simp [App.answer, App.openSocket, hr.key, hr.params]
  simp [App.dispatch, hr.route, hmethod, hanswer, Route.methods]

/-- The answer and the service after it, from how the request is decided on. -/
theorem AsksForSocket.serveWith (d : Desk Service) (s : Service) (u : Supply) :
    s.serveWith d r u =
      match ticketFor d p (firstValue? r.headers "authorization") s with
      | (.error e, s) => (.response (App.refuseSocket e), s)
      | (.ok ticket, s) => (.upgraded (Socket.acceptKey key) ticket, s) := by
  rw [Service.serveWith, hr.dispatch s u]

theorem AsksForSocket.status_iff (d : Desk Service) (hd : d.IsProper) (s : Service) (u : Supply)
    (e : ChatError)
    (he : e = .unauthorized ∨ e = .badRequest "room_id is required" ∨ e = .roomNotFound) :
    (s.serveWith d r u).1.status? = some e.status ↔
      (ticketFor d p (firstValue? r.headers "authorization") s).1 = .error e := by
  have hdecided := decided_ticketFor d p (firstValue? r.headers "authorization") s
  rw [hr.serveWith d s u]
  rcases hanswer : ticketFor d p (firstValue? r.headers "authorization") s with ⟨e' | t, s'⟩
  · rw [hanswer] at hdecided
    have he' := hdecided.error_cases (fun token => hd.refusal token s) rfl
    simp only [Outcome.status?, status_refuseSocket, Option.some.injEq, Except.error.injEq]
    rcases he with rfl | rfl | rfl <;> rcases he' with rfl | rfl | rfl <;>
      simp [ChatError.status]
  · simp [Outcome.status?]

/-- Whatever has been asked, rooms and connections are as they were. -/
theorem AsksForSocket.hub_serveWith (d : Desk Service) (hd : d.IsProper) (s : Service)
    (u : Supply) : (s.serveWith d r u).2.hub = s.hub := by
  have hkept : ∀ o, Decided d p (firstValue? r.headers "authorization") s o → o.2.hub = s.hub := by
    intro o ho
    cases ho with
    | noToken htoken => rfl
    | noRoom htoken hroom => rfl
    | refused htoken hroom hgateway => exact hd.hub_authenticate _ _
    | unknown htoken hroom hgateway hdirectory =>
      exact (hd.hub_lookUp _ _).trans (hd.hub_authenticate _ _)
    | granted htoken hroom hgateway hdirectory =>
      exact (hd.hub_lookUp _ _).trans (hd.hub_authenticate _ _)
  have hlast := hkept _ (decided_ticketFor d p (firstValue? r.headers "authorization") s)
  rw [hr.serveWith d s u]
  rcases hanswer : ticketFor d p (firstValue? r.headers "authorization") s with ⟨e | t, s'⟩
  · rw [hanswer] at hlast
    exact hlast
  · rw [hanswer] at hlast
    exact hlast

theorem AsksForSocket.answer_cases (d : Desk Service) (hd : d.IsProper) (s : Service) (u : Supply) :
    (s.serveWith d r u).1 = .response (App.refuseSocket .unauthorized) ∨
      (s.serveWith d r u).1 = .response (App.refuseSocket (.badRequest "room_id is required")) ∨
      (s.serveWith d r u).1 = .response (App.refuseSocket .roomNotFound) ∨
      ∃ accept t, (s.serveWith d r u).1 = .upgraded accept t := by
  have hdecided := decided_ticketFor d p (firstValue? r.headers "authorization") s
  rw [hr.serveWith d s u]
  rcases hanswer : ticketFor d p (firstValue? r.headers "authorization") s with ⟨e | t, s'⟩
  · rw [hanswer] at hdecided
    rcases hdecided.error_cases (fun token => hd.refusal token s) rfl with rfl | rfl | rfl
    · exact .inl rfl
    · exact .inr (.inl rfl)
    · exact .inr (.inr (.inl rfl))
  · exact .inr (.inr (.inr ⟨_, _, rfl⟩))

theorem AsksForSocket.upgraded_iff (d : Desk Service) (s : Service) (u : Supply) (accept : String)
    (t : Ticket) :
    (s.serveWith d r u).1 = .upgraded accept t ↔ accept = Socket.acceptKey key ∧
      (ticketFor d p (firstValue? r.headers "authorization") s).1 = .ok t := by
  rw [hr.serveWith d s u]
  rcases ticketFor d p (firstValue? r.headers "authorization") s with ⟨e | t', s'⟩
  · simp
  · simp [eq_comm]

end Asks

/-- **A request for a socket is answered in order.** Take any service, any proper desk, and any
request for a socket that can be upgraded and whose query can be read. It is answered by 401 exactly
if it comes without a token, or if it comes with a token and a room and the gateway does not name
anybody for the token in time; by 400 exactly if it comes with a token and without a room; and by
404 exactly if the gateway names somebody, and the directory does not say yes in time. It is
upgraded exactly if the gateway names somebody and the directory says yes, for the one who is named
and the room of the request. Nothing else is answered. A token in the query decides alone, whatever
the headers are; the directory is not asked unless the gateway has named somebody; and whatever the
answer is, there are the same rooms, members and connections after it. All this holds of the service
that asks itself. -/
theorem upgrade_admits_exactly {d : Desk Service} (hd : d.IsProper) {r : Request}
    {key : List UInt8} {p : ConnectParams} (hr : AsksForSocket r key p) (s : Service)
    (u : Supply) :
    let authorization := firstValue? r.headers "authorization"
    let answer := s.serveWith d r u
    (answer.1.status? = some 401 ↔ (∀ token, ¬ Presents p authorization token) ∨
      ∃ token room, Presents p authorization token ∧ Names p room ∧
        ∀ identity, (d.authenticate token s).1 ≠ .answered (.ok identity)) ∧
    (answer.1.status? = some 400 ↔
      (∃ token, Presents p authorization token) ∧ ∀ room, ¬ Names p room) ∧
    (answer.1.status? = some 404 ↔ ∃ token room identity, Presents p authorization token ∧
      Names p room ∧ (d.authenticate token s).1 = .answered (.ok identity) ∧
      (d.lookUp room (d.authenticate token s).2).1 ≠ .answered (.ok true)) ∧
    (∀ accept t, answer.1 = .upgraded accept t ↔ accept = Socket.acceptKey key ∧
      ∃ token, Presents p authorization token ∧ Names p t.room ∧
        (d.authenticate token s).1 = .answered (.ok t.identity) ∧
        (d.lookUp t.room (d.authenticate token s).2).1 = .answered (.ok true)) ∧
    (answer.1 = .response (App.refuseSocket .unauthorized) ∨
      answer.1 = .response (App.refuseSocket (.badRequest "room_id is required")) ∨
      answer.1 = .response (App.refuseSocket .roomNotFound) ∨
      ∃ accept t, answer.1 = .upgraded accept t) ∧
    (∀ token, p.token = some token → token ≠ "" → ∀ r', AsksForSocket r' key p →
      s.serveWith d r' u = answer) ∧
    ((∀ token room identity, Presents p authorization token → Names p room →
        (d.authenticate token s).1 ≠ .answered (.ok identity)) →
      ∀ lookUp, s.serveWith { d with lookUp } r u = answer) ∧
    answer.2.hub = s.hub ∧
    ∀ progress inTime, (desk u.now progress inTime).IsProper ∧
      s.serve r true u progress inTime = s.serveWith (desk u.now progress inTime) r u := by
  intro authorization answer
  have hdecided := decided_ticketFor d p authorization s
  have hrefusal := fun token => hd.refusal token s
  simp only [← token?_eq_none_iff, ← room?_eq_none_iff]
  simp only [← token?_eq_some_iff, ← room?_eq_some_iff]
  refine ⟨?_, ?_, ?_, fun accept t => ?_, hr.answer_cases d hd s u,
    fun token htoken hne r' hr' => ?_, fun hno lookUp => ?_, hr.hub_serveWith d hd s u,
    fun progress inTime => ?_⟩
  · have hstatus := hr.status_iff d hd s u .unauthorized (.inl rfl)
    exact hstatus.trans (hdecided.unauthorized_iff hrefusal)
  · have hstatus := hr.status_iff d hd s u (.badRequest "room_id is required") (.inr (.inl rfl))
    exact hstatus.trans (hdecided.badRequest_iff hrefusal)
  · have hstatus := hr.status_iff d hd s u .roomNotFound (.inr (.inr rfl))
    exact hstatus.trans (hdecided.roomNotFound_iff hrefusal)
  · have hupgraded := hr.upgraded_iff d s u accept t
    exact hupgraded.trans (and_congr_right fun _ => hdecided.ok_iff hrefusal t)
  · have htoken' : ∀ authorization, token? p authorization = some token := fun _ =>
      token?_eq_some_iff.mpr (.inl ⟨htoken, hne⟩)
    have hsame : ticketFor d p (firstValue? r'.headers "authorization") s =
        ticketFor d p authorization s := by
      rw [ticketFor, ticketFor, htoken', htoken']
    exact (hr'.serveWith d s u).trans (hsame ▸ (hr.serveWith d s u).symm)
  · have hsame := ticketFor_lookUp hno lookUp
    exact (hr.serveWith _ s u).trans (hsame ▸ (hr.serveWith d s u).symm)
  · exact ⟨isProper_desk u.now progress inTime, serve_eq_serveWith s r u progress inTime⟩

/-- A service with a room and a user, who has a session. -/
def oneSession : Service :=
  { oneUser 4 with
    accounts := ((oneUser 4).accounts.createSession .zero "t" "7").2
    book := (RoomBook.empty.create .zero "lab" none).2 }

/-- A request for a socket with some query, and with the token of the session in a header. -/
def socketRequest (query : String) : Request :=
  { method := "GET"
    target := ⟨Utf8.encode "/ws/chat".toList, some (Utf8.encode query.toList)⟩
    headers := [⟨"connection", Utf8.encode "Upgrade".toList⟩,
      ⟨"upgrade", Utf8.encode "websocket".toList⟩,
      ⟨"sec-websocket-version", Utf8.encode "13".toList⟩,
      ⟨"sec-websocket-key", Utf8.encode "a2V5".toList⟩,
      ⟨"authorization", Utf8.encode "Bearer  t ".toList⟩]
    body := [] }

/-- The token of the header counts if the query has none, and does not if it has another. -/
theorem upgrade_admits_exactly_header :
    (oneSession.serve (socketRequest "room_id=lab") true ⟨.zero, .zero, ""⟩ .all true).1 =
        .upgraded (Socket.acceptKey (Utf8.encode "a2V5".toList)) ⟨⟨"7", "ann"⟩, "lab"⟩ ∧
      (oneSession.serve (socketRequest "room_id=lab&token=x") true ⟨.zero, .zero, ""⟩ .all
        true).1.status? = some 401 := by
  have hdesk := isProper_desk .zero .all true
  have hno : AsksForSocket (socketRequest "room_id=lab") (Utf8.encode "a2V5".toList)
      ⟨none, some "lab"⟩ := ⟨by decide, rfl, rfl⟩
  have hbad : AsksForSocket (socketRequest "room_id=lab&token=x") (Utf8.encode "a2V5".toList)
      ⟨some "x", some "lab"⟩ := ⟨by decide, rfl, rfl⟩
  constructor
  · obtain ⟨-, -, -, hadmits, -⟩ := upgrade_admits_exactly hdesk hno oneSession ⟨.zero, .zero, ""⟩
    refine (hadmits _ _).mpr ⟨rfl, "t", token?_eq_some_iff.mp rfl, room?_eq_some_iff.mp rfl, ?_, ?_⟩
    · rfl
    · rfl
  · obtain ⟨hrefused, -⟩ := upgrade_admits_exactly hdesk hbad oneSession ⟨.zero, .zero, ""⟩
    refine hrefused.mpr (.inr ⟨"x", "lab", token?_eq_some_iff.mp rfl, room?_eq_some_iff.mp rfl, ?_⟩)
    intro identity h
    cases h

end Service

end ChatRooms

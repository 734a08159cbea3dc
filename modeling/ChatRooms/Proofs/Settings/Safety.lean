import ChatRooms.Hub.Connection
import ChatRooms.Session.Writer
import ChatRooms.Proofs.Accounts.Failure
import ChatRooms.Proofs.Settings.Environment

/-!
What the server does with settings from the environment. Time passes between two pings, whatever is
written, and a session whose end cannot be represented is refused when it is to be made. The length
of a queue is only bounded from below: a number that fits its type may be too large for a queue.
-/

namespace ChatRooms.Settings

open ChatRooms.Decimal ChatRooms.Text ChatRooms.Time

variable (env : Environment) (now : Instant)

/-! ### The queue of a connection -/

theorem canOpen_iff {capacity : Nat} (h : 1 ≤ capacity) :
    Connection.canOpen capacity = true ↔ capacity ≤ Connection.queueLimit := by
  simp [Connection.canOpen, Connection.isQueueSize, h]

/-- Connections can be opened exactly if no number is written that is too large for a queue. -/
theorem canOpen_outboundBuffer_iff :
    Connection.canOpen (ofEnvironment env now).outboundBuffer = true ↔
      ∀ n, n < NatVariable.queue.limit → env.Writes NatVariable.queue.name WritesNat n →
        n ≤ Connection.queueLimit := by
  have hmem : NatVariable.queue ∈ natVariables := by simp [natVariables]
  have hlimit : 256 ≤ Connection.queueLimit := by decide
  have hwritten : ∀ n, n < NatVariable.queue.limit →
      env.Writes NatVariable.queue.name WritesNat n →
        (ofEnvironment env now).outboundBuffer = max 1 n := by
    intro n hn hwrites
    exact (NatVariable.setting_of_writes hmem env now hn hwrites).trans (Nat.one_mul _)
  by_cases hsome : ∃ n, n < NatVariable.queue.limit ∧ env.Writes NatVariable.queue.name WritesNat n
  · obtain ⟨n, hn, hwrites⟩ := hsome
    have hvalue := hwritten n hn hwrites
    rw [hvalue, canOpen_iff (Nat.le_max_left 1 n)]
    constructor
    · intro hle m hm hwrites'
      have hsame : max 1 m = max 1 n := (hwritten m hm hwrites').symm.trans hvalue
      omega
    · intro hall
      have hle := hall n hn hwrites
      omega
  · have hvalue : (ofEnvironment env now).outboundBuffer = 256 :=
      NatVariable.setting_of_not_writes hmem env now fun n hn hwrites => hsome ⟨n, hn, hwrites⟩
    rw [hvalue, canOpen_iff (by decide)]
    exact iff_of_true hlimit fun n hn hwrites => absurd ⟨n, hn, hwrites⟩ hsome

/-! ### Pings -/

theorem canPing_pingIntervalMillis :
    Session.canPing (ofEnvironment env now).pingIntervalMillis = true := by
  have hsetting := NatVariable.setting_eq (v := .ping) (by simp [natVariables]) env now
  have hvalue : (ofEnvironment env now).pingIntervalMillis =
      1000 * max 1 (env.number NatVariable.ping.name (readNat? NatVariable.ping.limit) 10) :=
    hsetting
  rw [Session.canPing, hvalue]
  exact decide_eq_true (by omega)

/-! ### The end of a session -/

/-- The life of a session is a number of days that can be counted in milliseconds. -/
theorem exists_days : ∃ days, (ofEnvironment env now).sessionMillis = days * 86400000 ∧
    -maxMillis ≤ days * 86400000 ∧ days * 86400000 ≤ maxMillis := by
  by_cases husable : ∃ days, WritesUsableDays env now days
  · obtain ⟨days, hfits, hdays, hcan⟩ := husable
    refine ⟨days, ?_, hcan.1⟩
    rw [sessionMillis_of_writes env now hfits hdays, if_pos hcan]
  · exact ⟨30, sessionMillis_of_not_usable env now husable, by decide, by decide⟩

/-- A session that begins at the instant ends at a second of the calendar. -/
def EndsInCalendar (s : Settings) (clock : Instant) : Prop :=
  minSeconds ≤ clock.reached (s.sessionMillis / 1000) ∧
    clock.reached (s.sessionMillis / 1000) ≤ maxSeconds

theorem addNanos?_sessionNanos_isSome_iff (clock : Instant) :
    (clock.addNanos? (ofEnvironment env now).sessionNanos).isSome = true ↔
      EndsInCalendar (ofEnvironment env now) clock := by
  obtain ⟨days, hdays, -⟩ := exists_days env now
  have hnanos : (ofEnvironment env now).sessionNanos =
      (ofEnvironment env now).sessionMillis / 1000 * nanosPerSecond := by
    rw [sessionNanos, hdays]
    unfold nanosPerMilli nanosPerSecond
    omega
  rw [hnanos, Instant.addNanos?_isSome_iff]
  rfl

/-- **Settings from the environment are safe to run with, but for the queue.** Connections can be
opened exactly if no number of sixty-four bits is written for the queue that is too large for one.
The writing side of a session can always begin. The life of a session is one that can be counted,
and whatever the clock says, a login of somebody who is admitted fails exactly if the end of the
session cannot be represented, or its token is taken; else the session ends when it should. -/
theorem environment_is_safe_but_for_queue (env : Environment) (now : Instant) :
    let s := ofEnvironment env now
    (Connection.canOpen s.outboundBuffer = true ↔
      ∀ n, n < NatVariable.queue.limit → env.Writes NatVariable.queue.name WritesNat n →
        n ≤ Connection.queueLimit) ∧
    Session.canPing s.pingIntervalMillis = true ∧
    (-maxMillis ≤ s.sessionMillis ∧ s.sessionMillis ≤ maxMillis) ∧
    ∀ (a : Accounts), a.sessionNanos = s.sessionNanos →
      ∀ (clock clock' : Instant) (token email password : String),
        ((a.login clock clock' token email password).1 = .error .lifetimeOutOfRange ↔
          (a.admitted? email password).isSome = true ∧ ¬EndsInCalendar s clock') ∧
        ∀ user session, (a.login clock clock' token email password).1 = .ok (user, session) →
          EndsInCalendar s clock' ∧ clock'.addNanos? s.sessionNanos = some session.expiresAt ∧
            (clock'.nanos < nanosPerSecond →
              session.expiresAt.sinceEpoch = clock'.sinceEpoch + s.sessionNanos) := by
  intro s
  refine ⟨canOpen_outboundBuffer_iff env now, canPing_pingIntervalMillis env now, ?_, ?_⟩
  · obtain ⟨days, hdays, hrange⟩ := exists_days env now
    rw [hdays]
    exact hrange
  · intro a hnanos clock clock' token email password
    have hends := addNanos?_sessionNanos_isSome_iff env now clock'
    rw [← hnanos] at hends ⊢
    constructor
    · rw [Accounts.login_eq_lifetimeOutOfRange_iff, ← hends, Option.not_isSome_iff_eq_none]
    · intro user session h
      have hend := Accounts.expiresAt_of_login h
      refine ⟨hends.mp (by rw [hend, Option.isSome_some]), hend, fun hleap => ?_⟩
      exact Instant.sinceEpoch_addNanos? hleap hend

/-- The greatest number of sixty-four bits for the queue, and no time between pings. -/
def hugeQueue : Environment := fun name =>
  if name = NatVariable.queue.name then some (Utf8.encode (toString 18446744073709551615).toList)
  else if name = NatVariable.ping.name then some (Utf8.encode "0".toList)
  else none

/-- Ada has signed up on a server with these settings. -/
def withAda (s : Settings) : Accounts :=
  (Accounts.empty s.sessionNanos 4).run [.signup .zero "u1" "ada@lab" "Ada" "pw"]

theorem writes_hugeQueue : hugeQueue.Writes NatVariable.queue.name WritesNat 18446744073709551615 :=
  ⟨[], _, [], by simp, by simp, writesNat_toString _, by simp [hugeQueue]⟩

theorem environment_is_safe_but_for_queue_huge :
    Connection.canOpen (ofEnvironment hugeQueue .zero).outboundBuffer = false ∧
    Session.canPing (ofEnvironment hugeQueue .zero).pingIntervalMillis = true ∧
    ((withAda (ofEnvironment hugeQueue .zero)).login .zero lastInstant "t" "ada@lab" "pw").1 =
      .error .lifetimeOutOfRange := by
  obtain ⟨hopen, hping, -, hlogin⟩ := environment_is_safe_but_for_queue hugeQueue .zero
  refine ⟨?_, hping, ?_⟩
  · rw [← Bool.not_eq_true, hopen]
    intro hall
    have hle := hall _ (by decide) writes_hugeQueue
    exact absurd hle (by decide)
  · have hnone : ∀ days, FitsDays days → ¬hugeQueue.Writes sessionVariable WritesInt days := by
      rintro days - ⟨_, _, _, -, -, -, henv⟩
      cases henv
    have hmillis := sessionMillis_of_not_writes hugeQueue .zero hnone
    refine (hlogin (withAda _) rfl .zero lastInstant "t" "ada@lab" "pw").1.mpr ⟨rfl, ?_⟩
    rw [EndsInCalendar, hmillis]
    decide

/-- A queue of the greatest length that can be written cannot be made. -/
theorem huge_queue_cannot_be_made :
    (ofEnvironment hugeQueue .zero).outboundBuffer = 18446744073709551615 ∧
    Connection.canOpen (ofEnvironment hugeQueue .zero).outboundBuffer = false := by
  have hvalue : (ofEnvironment hugeQueue .zero).outboundBuffer = 18446744073709551615 :=
    NatVariable.setting_of_writes (v := .queue) (by simp [natVariables]) hugeQueue .zero (by decide)
      writes_hugeQueue
  rw [hvalue]
  exact ⟨rfl, by decide⟩

end ChatRooms.Settings

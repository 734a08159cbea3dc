import ChatRooms.Proofs.Decimal.Integer
import ChatRooms.Proofs.Text.Utf8
import ChatRooms.Proofs.Time.Calendar
import ChatRooms.Settings

/-!
Settings as they are read from the environment. What a variable writes is told without a reader: a
number in decimal, perhaps with a sign, perhaps between blanks, as the bytes of a text. Each setting
is the number that its own variable writes, if that fits, and else its default; a session lasts the
days that are written only if a session that begins now ends in the calendar.
-/

namespace ChatRooms

open ChatRooms.Decimal ChatRooms.Text ChatRooms.Time

/-! ### What a variable writes -/

namespace Environment

/-- The variable is a text that writes `x` in a grammar, perhaps between blanks. -/
def Writes {α : Type} (env : Environment) (name : String) (grammar : List Char → α → Prop) (x : α) :
    Prop :=
  ∃ before core after, (∀ c ∈ before, isBlank c = true) ∧ (∀ c ∈ after, isBlank c = true) ∧
    grammar core x ∧ env name = some (Utf8.encode (before ++ core ++ after))

theorem text?_eq_some_iff {env : Environment} {name : String} {s : String} :
    env.text? name = some s ↔ env name = some (Utf8.encode s.toList) := by
  rw [text?, Option.bind_eq_some_iff]
  simp [Utf8.decode?_eq_some_iff]

section Number

variable {α : Type} {env : Environment} {name : String} {read : List Char → Option α}
  {fits : α → Prop} {grammar : List Char → α → Prop}
  (hread : ∀ s x, read s = some x ↔ fits x ∧ grammar s x)
  (htrim : ∀ s x, grammar s x → IsTrimmed s)

include hread htrim

/-- A text between blanks is read exactly as what it writes. -/
theorem writes_iff {x : α} : fits x ∧ env.Writes name grammar x ↔
    ∃ s, env.text? name = some s ∧ read (trimList s.toList) = some x := by
  constructor
  · rintro ⟨hfits, before, core, after, hbefore, hafter, hcore, henv⟩
    refine ⟨String.ofList (before ++ core ++ after), ?_, ?_⟩
    · rw [text?_eq_some_iff, String.toList_ofList]
      exact henv
    · have htrimmed : trimList (before ++ core ++ after) = core :=
        trimList_eq_iff.mpr ⟨htrim core x hcore, before, after, hbefore, hafter, rfl⟩
      rw [String.toList_ofList, htrimmed]
      exact (hread core x).mpr ⟨hfits, hcore⟩
  · rintro ⟨s, htext, hx⟩
    obtain ⟨hfits, hcore⟩ := (hread _ x).mp hx
    obtain ⟨-, before, after, hbefore, hafter, hs⟩ := trimList_eq_iff.mp (rfl : trimList s.toList = _)
    refine ⟨hfits, before, _, after, hbefore, hafter, hcore, ?_⟩
    rw [← hs]
    exact text?_eq_some_iff.mp htext

/-- A number that is written and fits is the value. -/
theorem number_of_writes {x : α} (hfits : fits x) (hx : env.Writes name grammar x) (default : α) :
    env.number name read default = x := by
  obtain ⟨s, htext, hs⟩ := (writes_iff hread htrim).mp ⟨hfits, hx⟩
  rw [number, htext]
  dsimp only
  rw [hs, Option.getD_some]

/-- Without a number that fits, the value is the default. -/
theorem number_of_not_writes (h : ∀ x, fits x → ¬env.Writes name grammar x) (default : α) :
    env.number name read default = default := by
  unfold number
  cases htext : env.text? name with
  | none => rfl
  | some s =>
    dsimp only
    cases hs : read (trimList s.toList) with
    | none => rfl
    | some x =>
      obtain ⟨hfits, hx⟩ := (writes_iff hread htrim).mpr ⟨s, htext, hs⟩
      exact absurd hx (h x hfits)

end Number

theorem number_congr {α : Type} {env env' : Environment} {name : String} (h : env' name = env name)
    (read : List Char → Option α) (default : α) :
    env'.number name read default = env.number name read default := by
  rw [number, number, text?, text?, h]

end Environment

/-! ### Natural numbers -/

/-- A variable for a natural number, and the setting that it changes. -/
structure NatVariable where
  name : String
  /-- the first number that does not fit -/
  limit : Nat
  /-- lesser numbers are raised to this one -/
  least : Nat
  default : Nat
  /-- what each one of the number adds to the setting -/
  unit : Nat
  setting : Settings → Nat

namespace NatVariable

def port : NatVariable := ⟨"PORT", Nat.pow 2 16, 0, 8088, 1, (·.tcpPort)⟩

def queue : NatVariable := ⟨"CHAT_OUTBOUND_BUFFER", Nat.pow 2 64, 1, 256, 1, (·.outboundBuffer)⟩

def handshake : NatVariable :=
  ⟨"CHAT_HANDSHAKE_TIMEOUT_MS", Nat.pow 2 64, 0, 5000, 1, (·.handshakeTimeoutMillis)⟩

def ping : NatVariable :=
  ⟨"CHAT_PING_INTERVAL_SECS", Nat.pow 2 64, 1, 10, 1000, (·.pingIntervalMillis)⟩

def idle : NatVariable :=
  ⟨"CHAT_IDLE_TIMEOUT_SECS", Nat.pow 2 64, 1, 25, 1000, (·.idleTimeoutMillis)⟩

end NatVariable

def natVariables : List NatVariable := [.port, .queue, .handshake, .ping, .idle]

namespace NatVariable

variable {v : NatVariable} (hv : v ∈ natVariables) (env : Environment) (now : Instant)

include hv

theorem setting_eq : v.setting (.ofEnvironment env now) =
    v.unit * max v.least (env.number v.name (readNat? v.limit) v.default) := by
  simp only [natVariables, List.mem_cons, List.not_mem_nil, or_false] at hv
  rcases hv with rfl | rfl | rfl | rfl | rfl <;>
    simp [Settings.ofEnvironment, Settings.default, port, queue, handshake, ping, idle]

theorem least_le_default : v.least ≤ v.default := by
  revert v
  decide

theorem setting_of_writes {n : Nat} (hn : n < v.limit) (h : env.Writes v.name WritesNat n) :
    v.setting (.ofEnvironment env now) = v.unit * max v.least n := by
  rw [setting_eq hv, Environment.number_of_writes (fun _ _ => readNat?_eq_some_iff)
    (fun _ _ => WritesNat.isTrimmed) hn h]

theorem setting_of_not_writes (h : ∀ n, n < v.limit → ¬env.Writes v.name WritesNat n) :
    v.setting (.ofEnvironment env now) = v.unit * v.default := by
  rw [setting_eq hv, Environment.number_of_not_writes (fun _ _ => readNat?_eq_some_iff)
    (fun _ _ => WritesNat.isTrimmed) h, Nat.max_eq_right (least_le_default hv)]

end NatVariable

/-! ### Days of a session -/

namespace Settings

def sessionVariable : String := "CHAT_SESSION_TTL_DAYS"

/-- So many days can be counted in milliseconds, and lead from the instant to a second of the
calendar. -/
def CanLast (now : Instant) (days : Int) : Prop :=
  (-maxMillis ≤ days * 86400000 ∧ days * 86400000 ≤ maxMillis) ∧
    minSeconds ≤ now.reached (days * 86400) ∧ now.reached (days * 86400) ≤ maxSeconds

instance (now : Instant) (days : Int) : Decidable (CanLast now days) :=
  inferInstanceAs (Decidable (_ ∧ _))

variable (env : Environment) (now : Instant)

theorem addMillis?_isSome_iff (days : Int) : (now.addMillis? (days * 86400000)).isSome = true ↔
    minSeconds ≤ now.reached (days * 86400) ∧ now.reached (days * 86400) ≤ maxSeconds := by
  have hnanos : days * 86400000 * nanosPerMilli = days * 86400 * nanosPerSecond := by
    unfold nanosPerMilli nanosPerSecond
    omega
  rw [Instant.addMillis?, hnanos, Instant.addNanos?_isSome_iff]

/-- The calendar goes on for thirty days. -/
def LeavesThirtyDays : Prop := now.seconds + 30 * 86400 ≤ maxSeconds

/-- The default can be used as long as the calendar goes on. -/
theorem canLast_default_iff : CanLast now 30 ↔ LeavesThirtyDays now := by
  have hreached : now.reached (30 * 86400) = now.seconds + 30 * 86400 := by simp [Instant.reached]
  have hmin := now.inRange.1
  rw [CanLast, hreached, LeavesThirtyDays]
  constructor
  · exact fun h => h.2.2
  · intro h
    exact ⟨by decide, by omega, h⟩

theorem sessionMillisOfDays?_eq (days : Int) : sessionMillisOfDays? now days =
    if CanLast now days then some (days * 86400000) else none := by
  have hcan : CanLast now days ↔ -maxMillis ≤ days * millisPerDay ∧
      days * millisPerDay ≤ maxMillis ∧ (now.addMillis? (days * millisPerDay)).isSome = true := by
    rw [CanLast, ← addMillis?_isSome_iff, and_assoc]
    rfl
  exact if_congr hcan.symm rfl rfl

/-- The number of days that a variable writes fits sixty-four bits. -/
def FitsDays (days : Int) : Prop := -(Nat.pow 2 63 : Int) ≤ days ∧ days < (Nat.pow 2 63 : Int)

theorem readDays?_eq_some_iff (s : List Char) (days : Int) :
    readInt? (Nat.pow 2 63) s = some days ↔ FitsDays days ∧ WritesInt s days :=
  readInt?_eq_some_iff (by decide)

theorem sessionMillis_eq : (ofEnvironment env now).sessionMillis =
    (sessionMillisOfDays? now (env.number sessionVariable (readInt? (Nat.pow 2 63)) 30)).getD
      (30 * 86400000) := rfl

theorem sessionMillis_of_writes {days : Int} (hfits : FitsDays days)
    (h : env.Writes sessionVariable WritesInt days) : (ofEnvironment env now).sessionMillis =
      if CanLast now days then days * 86400000 else 30 * 86400000 := by
  rw [sessionMillis_eq, Environment.number_of_writes readDays?_eq_some_iff
    (fun _ _ => WritesInt.isTrimmed) hfits h, sessionMillisOfDays?_eq]
  split <;> rfl

theorem sessionMillis_of_not_writes
    (h : ∀ days, FitsDays days → ¬env.Writes sessionVariable WritesInt days) :
    (ofEnvironment env now).sessionMillis = 30 * 86400000 := by
  rw [sessionMillis_eq, Environment.number_of_not_writes readDays?_eq_some_iff
    (fun _ _ => WritesInt.isTrimmed) h, sessionMillisOfDays?_eq]
  split <;> rfl

/-- The days that a variable writes can be used. -/
def WritesUsableDays (days : Int) : Prop :=
  FitsDays days ∧ env.Writes sessionVariable WritesInt days ∧ CanLast now days

theorem sessionMillis_of_not_usable (h : ¬∃ days, WritesUsableDays env now days) :
    (ofEnvironment env now).sessionMillis = 30 * 86400000 := by
  by_cases hwrites : ∃ days, FitsDays days ∧ env.Writes sessionVariable WritesInt days
  · obtain ⟨days, hfits, hdays⟩ := hwrites
    rw [sessionMillis_of_writes env now hfits hdays]
    exact if_neg fun hcan => h ⟨days, hfits, hdays, hcan⟩
  · exact sessionMillis_of_not_writes env now fun days hfits hdays =>
      hwrites ⟨days, hfits, hdays⟩

/-- A session that begins when the settings are read ends in the calendar, unless no days that can
be used are written and the calendar ends within thirty days. -/
theorem addMillis?_sessionMillis_isSome_iff :
    (now.addMillis? (ofEnvironment env now).sessionMillis).isSome = true ↔
      (∃ days, WritesUsableDays env now days) ∨ LeavesThirtyDays now := by
  by_cases husable : ∃ days, WritesUsableDays env now days
  · obtain ⟨days, hfits, hdays, hcan⟩ := husable
    rw [sessionMillis_of_writes env now hfits hdays, if_pos hcan]
    exact iff_of_true ((addMillis?_isSome_iff now days).mpr hcan.2)
      (.inl ⟨days, hfits, hdays, hcan⟩)
  · rw [sessionMillis_of_not_usable env now husable, addMillis?_isSome_iff,
      ← canLast_default_iff, or_iff_right husable]
    exact ⟨fun h => ⟨by decide, h⟩, fun h => h.2⟩

/-! ### All settings -/

/-- The data directory is the text of its variable. -/
theorem dataDir_eq : (ofEnvironment env now).dataDir = (env.text? "CHAT_ROOT").getD "chat_data" :=
  rfl

theorem dataDir_of_text {dir : String} (h : env "CHAT_ROOT" = some (Utf8.encode dir.toList)) :
    (ofEnvironment env now).dataDir = dir := by
  rw [dataDir_eq, Environment.text?_eq_some_iff.mpr h, Option.getD_some]

theorem dataDir_of_no_text (h : ∀ dir : String, env "CHAT_ROOT" ≠ some (Utf8.encode dir.toList)) :
    (ofEnvironment env now).dataDir = "chat_data" := by
  have hnone : env.text? "CHAT_ROOT" = none :=
    Option.eq_none_iff_forall_ne_some.mpr fun dir hdir =>
      h dir (Environment.text?_eq_some_iff.mp hdir)
  rw [dataDir_eq, hnone, Option.getD_none]

/-- **Each setting is what its own variable writes, or its default.** A natural number that fits its
type is taken, raised to its least value; a text that writes none leaves the default; so does a
variable that is not set or no text. The days of a session are taken, whatever their sign, if they
can be counted in milliseconds and lead from now to an instant of the calendar, and else there are
thirty. A number that was written in decimal between any blanks is read back. A session that begins
now ends in the calendar if the calendar goes on for thirty days, and also if days are written that
can be used, but not otherwise. -/
theorem reads_environment (env : Environment) (now : Instant) :
    let s := ofEnvironment env now
    (∀ v ∈ natVariables,
      (∀ n, n < v.limit → env.Writes v.name WritesNat n → v.setting s = v.unit * max v.least n) ∧
      ((∀ n, n < v.limit → ¬env.Writes v.name WritesNat n) → v.setting s = v.unit * v.default) ∧
      (∀ before after n, (∀ c ∈ before, isBlank c = true) → (∀ c ∈ after, isBlank c = true) →
        n < v.limit → env v.name = some (Utf8.encode (before ++ (toString n).toList ++ after)) →
        v.setting s = v.unit * max v.least n) ∧
      ∀ env' now', env' v.name = env v.name → v.setting (ofEnvironment env' now') = v.setting s) ∧
    ((∀ days, FitsDays days → env.Writes sessionVariable WritesInt days →
        s.sessionMillis = if CanLast now days then days * 86400000 else 30 * 86400000) ∧
      ((∀ days, FitsDays days → ¬env.Writes sessionVariable WritesInt days) →
        s.sessionMillis = 30 * 86400000) ∧
      (∀ before after days, (∀ c ∈ before, isBlank c = true) →
        (∀ c ∈ after, isBlank c = true) → FitsDays days →
        env sessionVariable = some (Utf8.encode (before ++ (toString days).toList ++ after)) →
        s.sessionMillis = if CanLast now days then days * 86400000 else 30 * 86400000) ∧
      (∀ env', env' sessionVariable = env sessionVariable →
        (ofEnvironment env' now).sessionMillis = s.sessionMillis) ∧
      (LeavesThirtyDays now → (now.addMillis? s.sessionMillis).isSome = true) ∧
      ((now.addMillis? s.sessionMillis).isSome = true ↔
        (∃ days, WritesUsableDays env now days) ∨ LeavesThirtyDays now)) ∧
    (∀ dir : String, env "CHAT_ROOT" = some (Utf8.encode dir.toList) → s.dataDir = dir) ∧
    ((∀ dir : String, env "CHAT_ROOT" ≠ some (Utf8.encode dir.toList)) →
      s.dataDir = "chat_data") := by
  intro s
  refine ⟨fun v hv => ⟨fun n hn hwrites => ?_, fun hnone => ?_, ?_, fun env' now' henv => ?_⟩,
    ⟨fun days hfits hwrites => ?_, fun hnone => ?_, ?_, fun env' henv => ?_, fun hleft => ?_, ?_⟩,
    fun dir hdir => dataDir_of_text env now hdir, dataDir_of_no_text env now⟩
  · exact v.setting_of_writes hv env now hn hwrites
  · exact v.setting_of_not_writes hv env now hnone
  · intro before after n hbefore hafter hn henv
    exact v.setting_of_writes hv env now hn
      ⟨before, _, after, hbefore, hafter, writesNat_toString n, henv⟩
  · rw [v.setting_eq hv, v.setting_eq hv, Environment.number_congr henv]
  · exact sessionMillis_of_writes env now hfits hwrites
  · exact sessionMillis_of_not_writes env now hnone
  · intro before after days hbefore hafter hfits henv
    exact sessionMillis_of_writes env now hfits
      ⟨before, _, after, hbefore, hafter, writesInt_toString days, henv⟩
  · rw [sessionMillis_eq, sessionMillis_eq, Environment.number_congr henv]
  · exact (addMillis?_sessionMillis_isSome_iff env now).mpr (.inr hleft)
  · exact addMillis?_sessionMillis_isSome_iff env now

/-- A port between blanks, a queue without places, and sessions that have ended a day ago. -/
def oddEnvironment : Environment := fun name =>
  if name = "PORT" then some (Utf8.encode "\u3000+0080\n".toList)
  else if name = "CHAT_OUTBOUND_BUFFER" then some (Utf8.encode "0".toList)
  else if name = sessionVariable then some (Utf8.encode " -1".toList)
  else none

theorem reads_environment_odd :
    (ofEnvironment oddEnvironment .zero).tcpPort = 80 ∧
    (ofEnvironment oddEnvironment .zero).outboundBuffer = 1 ∧
    (ofEnvironment oddEnvironment .zero).idleTimeoutMillis = 25000 ∧
    (ofEnvironment oddEnvironment .zero).sessionMillis = -86400000 ∧
    ((Instant.zero).addMillis? (ofEnvironment oddEnvironment .zero).sessionMillis).isSome = true ∧
    (ofEnvironment oddEnvironment .zero).dataDir = "chat_data" := by
  obtain ⟨hnat, ⟨-, -, hdays, -, hends, -⟩, -, hdir⟩ := reads_environment oddEnvironment .zero
  have hdigits : WritesDigits ['0', '0', '8', '0'] 80 := ⟨by simp, by simp, by decide⟩
  have hport : oddEnvironment.Writes "PORT" WritesNat 80 :=
    ⟨['\u3000'], _, ['\n'], List.forall_mem_singleton.mpr (by decide),
      List.forall_mem_singleton.mpr (by decide), .plus hdigits, rfl⟩
  have hunset : ∀ n, ¬oddEnvironment.Writes "CHAT_IDLE_TIMEOUT_SECS" WritesNat n := by
    rintro n ⟨_, _, _, -, -, -, henv⟩
    cases henv
  have hleft : LeavesThirtyDays .zero := by
    unfold LeavesThirtyDays
    decide
  refine ⟨?_, ?_, ?_, ?_, hends hleft, ?_⟩
  · exact (hnat .port (by simp [natVariables])).1 80 (by decide) hport
  · exact (hnat .queue (by simp [natVariables])).2.2.1 [] [] 0 (by simp) (by simp) (by decide) rfl
  · exact (hnat .idle (by simp [natVariables])).2.1 fun n _ => hunset n
  · have hblank : ∀ c ∈ [' '], isBlank c = true := List.forall_mem_singleton.mpr (by decide)
    exact (hdays [' '] [] (-1) hblank (by simp) ⟨by decide, by decide⟩ rfl).trans
      (if_pos (by decide))
  · exact hdir fun dir henv => by cases henv

/-- The end of the calendar. -/
def lastInstant : Instant := ⟨maxSeconds, 999999999, ⟨by decide, Int.le_refl _⟩, by decide⟩

/-- At the end of the calendar a session of the default length cannot end; and at any time a queue
without places is not read back. -/
theorem default_outlasts_calendar :
    lastInstant.addMillis? (ofEnvironment (fun _ => none) lastInstant).sessionMillis = none ∧
    oddEnvironment NatVariable.queue.name = some (Utf8.encode (toString 0).toList) ∧
    (ofEnvironment oddEnvironment .zero).outboundBuffer ≠ 0 := by
  have hnone : ∀ days, FitsDays days →
      ¬Environment.Writes (fun _ => none) sessionVariable WritesInt days := by
    rintro days - ⟨_, _, _, -, -, -, henv⟩
    cases henv
  have hqueue := NatVariable.setting_of_writes (v := .queue) (by simp [natVariables]) oddEnvironment
    .zero (n := 0) (by decide)
    ⟨[], _, [], by simp, by simp, writesNat_toString 0, rfl⟩
  have hone : (ofEnvironment oddEnvironment .zero).outboundBuffer = 1 := hqueue
  refine ⟨?_, rfl, ?_⟩
  · rw [sessionMillis_of_not_writes _ lastInstant hnone, ← Option.not_isSome_iff_eq_none,
      addMillis?_isSome_iff lastInstant 30]
    decide
  · rw [hone]
    decide

end Settings

end ChatRooms

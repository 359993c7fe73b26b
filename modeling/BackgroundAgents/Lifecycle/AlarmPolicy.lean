import BackgroundAgents.Sockets.Manager
import Mathlib.Order.MinMax

/-!
# The sandbox alarm

`evaluateAlarmPolicy` names what an alarm finds, `handleAlarm` acts on it. A
finding that ends nothing arms the alarm again (`nextAlarm`), and the question
is whether that alarm comes in time for the watchdog deadlines that the row
still has before it: connect, heartbeat, reconnect grace and boot budget.

It does (`next_healthy`, `next_unconfirmed`) except after an inactivity warning,
which sleeps for the whole extension and does not ask when the heartbeat goes
stale. Times are milliseconds since the epoch.
-/

namespace BackgroundAgents.Lifecycle

open Sockets (SandboxStatus)

/-- The columns of the sandbox row that the alarm reads. -/
structure AlarmSandbox where
  status : SandboxStatus
  created_at : Int
  last_heartbeat : Option Int
  last_activity : Option Int
  deriving DecidableEq, Repr

structure HeartbeatConfig where
  timeoutMs : Int
  reconnectGraceMs : Int
  deriving DecidableEq, Repr

structure InactivityConfig where
  timeoutMs : Int
  extensionMs : Int
  minCheckIntervalMs : Int
  deriving DecidableEq, Repr

/-- `connectingTimeout` and `bootBudget` have one field each, `timeoutMs`. -/
structure AlarmPolicyConfig where
  connectingTimeout : Int
  heartbeat : HeartbeatConfig
  bootBudget : Int
  inactivity : InactivityConfig
  deriving DecidableEq, Repr

structure AlarmPolicyConfig.Positive (config : AlarmPolicyConfig) : Prop where
  connectingTimeout : 0 < config.connectingTimeout
  heartbeatTimeout : 0 < config.heartbeat.timeoutMs
  reconnectGrace : 0 < config.heartbeat.reconnectGraceMs
  bootBudget : 0 < config.bootBudget
  inactivityTimeout : 0 < config.inactivity.timeoutMs
  extension : 0 < config.inactivity.extensionMs
  minCheckInterval : 0 < config.inactivity.minCheckIntervalMs

inductive InactivityAction where
  | timeout (idleMs : Int)
  | extend (extensionMs : Int)
  | schedule (nextCheckMs : Int)
  deriving DecidableEq, Repr

inductive AlarmFinding where
  | terminal
  | connecting_timeout (elapsedMs : Int)
  | heartbeat_unconfirmed (ageMs graceEndsAtMs : Int)
  | heartbeat_stale (ageMs : Int) (isBooting : Bool)
  | boot_budget_exceeded (elapsedMs : Int)
  | inactivity_timeout (idleMs timeoutMs : Int)
  | inactivity_warning (extensionMs : Int)
  | healthy (nextCheckMs : Int)
  deriving DecidableEq, Repr

/-! ## The decisions -/

def isBootingStatus (status : SandboxStatus) : Bool :=
  status = .connecting ∨ status = .spawning

/-- The time spent connecting, if that is too long. -/
def evaluateConnectingTimeout (status : SandboxStatus) (createdAt timeoutMs now : Int)
    (hasConnected : Bool) : Option Int :=
  if isBootingStatus status = false ∨ hasConnected then none
  else if now - createdAt ≥ timeoutMs then some (now - createdAt) else none

/-- The age of a heartbeat that is stale. -/
def evaluateHeartbeatHealth (lastHeartbeat : Option Int) (config : HeartbeatConfig)
    (now : Int) : Option Int :=
  match lastHeartbeat with
  | none => none
  | some lastHeartbeat =>
    if now - lastHeartbeat > config.timeoutMs then some (now - lastHeartbeat) else none

def heartbeatStaleAt (lastHeartbeat : Int) (config : HeartbeatConfig) : Int :=
  lastHeartbeat + config.timeoutMs + 1

def heartbeatGraceEndsAt (lastHeartbeat : Int) (config : HeartbeatConfig) : Int :=
  heartbeatStaleAt lastHeartbeat config + config.reconnectGraceMs

/-- The time spent booting, if that exceeds the budget. -/
def evaluateBootBudget (status : SandboxStatus) (createdAt timeoutMs now : Int) :
    Option Int :=
  if isBootingStatus status = false then none
  else if now - createdAt ≥ timeoutMs then some (now - createdAt) else none

def evaluateInactivityTimeout (status : SandboxStatus) (lastActivity : Option Int)
    (connectedClientCount : Nat) (config : InactivityConfig) (now : Int) : InactivityAction :=
  if status.isDead then .schedule config.minCheckIntervalMs
  else
    match lastActivity with
    | none => .schedule config.minCheckIntervalMs
    | some lastActivity =>
      if status ≠ .ready then .schedule config.minCheckIntervalMs
      else if now - lastActivity ≥ config.timeoutMs then
        if connectedClientCount > 0 then .extend config.extensionMs
        else .timeout (now - lastActivity)
      else .schedule (max (config.timeoutMs - (now - lastActivity)) config.minCheckIntervalMs)

/-- What the inactivity of a sandbox comes to, once no watchdog has found anything. -/
def inactivityFinding (sandbox : AlarmSandbox) (config : AlarmPolicyConfig) (now : Int) :
    InactivityAction → AlarmFinding
  | .timeout idleMs => .inactivity_timeout idleMs config.inactivity.timeoutMs
  | .extend extensionMs => .inactivity_warning extensionMs
  | .schedule nextCheckMs =>
    -- a bridge that stops just after this alarm must still be noticed
    .healthy
      (match sandbox.last_heartbeat with
      | none => nextCheckMs
      | some lastHeartbeat =>
        min nextCheckMs (max 1 (heartbeatStaleAt lastHeartbeat config.heartbeat - now)))

def evaluateAlarmPolicy (sandbox : AlarmSandbox) (config : AlarmPolicyConfig) (now : Int)
    (connectedClientCount : Nat) : AlarmFinding :=
  if sandbox.status.isDead then .terminal
  else
    match evaluateConnectingTimeout sandbox.status sandbox.created_at config.connectingTimeout now
        sandbox.last_heartbeat.isSome with
    | some elapsedMs => .connecting_timeout elapsedMs
    | none =>
      match evaluateHeartbeatHealth sandbox.last_heartbeat config.heartbeat now with
      | some ageMs =>
        -- a booted sandbox's bridge may be reconnecting
        if isBootingStatus sandbox.status = false ∧
            now < heartbeatGraceEndsAt (now - ageMs) config.heartbeat then
          .heartbeat_unconfirmed ageMs (heartbeatGraceEndsAt (now - ageMs) config.heartbeat)
        else .heartbeat_stale ageMs (isBootingStatus sandbox.status)
      | none =>
        match evaluateBootBudget sandbox.status sandbox.created_at config.bootBudget now with
        | some elapsedMs => .boot_budget_exceeded elapsedMs
        | none =>
          inactivityFinding sandbox config now
            (evaluateInactivityTimeout sandbox.status sandbox.last_activity connectedClientCount
              config.inactivity now)

/-- The alarm that `handleAlarm` schedules for what it found. -/
def nextAlarm (now : Int) : AlarmFinding → Option Int
  | .heartbeat_unconfirmed _ graceEndsAtMs => some graceEndsAtMs
  | .inactivity_warning extensionMs => some (now + extensionMs)
  | .healthy nextCheckMs => some (now + nextCheckMs)
  | _ => none

/-! ## Deadlines -/

def AlarmFinding.isUnconfirmed : AlarmFinding → Bool
  | .heartbeat_unconfirmed _ _ => true
  | _ => false

/-- A watchdog has found something that it had not `before`. -/
def AlarmFinding.passed (before : AlarmFinding) : AlarmFinding → Bool
  | .connecting_timeout _ => true
  | .heartbeat_unconfirmed _ _ => !before.isUnconfirmed
  | .heartbeat_stale _ _ => true
  | .boot_budget_exceeded _ => true
  | _ => false

variable {sandbox : AlarmSandbox} {config : AlarmPolicyConfig} {now later lastHeartbeat : Int}
  {clients : Nat}

/-- The sandbox idles before clients that are still connected, with a heartbeat that goes stale
more than a check interval before the extension ends. -/
def SleptThrough (sandbox : AlarmSandbox) (config : AlarmPolicyConfig) (now : Int)
    (clients : Nat) : Prop :=
  sandbox.status = .ready ∧ 0 < clients ∧
    (∃ lastActivity, sandbox.last_activity = some lastActivity ∧
      config.inactivity.timeoutMs ≤ now - lastActivity) ∧
    ∃ lastHeartbeat, sandbox.last_heartbeat = some lastHeartbeat ∧
      now < heartbeatStaleAt lastHeartbeat config.heartbeat ∧
      heartbeatStaleAt lastHeartbeat config.heartbeat + config.inactivity.minCheckIntervalMs <
        now + config.inactivity.extensionMs

theorem heartbeatHealth_none (h : sandbox.last_heartbeat = some lastHeartbeat) :
    evaluateHeartbeatHealth sandbox.last_heartbeat config.heartbeat now = none ↔
      now < heartbeatStaleAt lastHeartbeat config.heartbeat := by
  rw [h]
  unfold evaluateHeartbeatHealth heartbeatStaleAt
  dsimp only
  split
  next hstale =>
    refine ⟨fun he => absurd he (Option.some_ne_none _), ?_⟩
    omega
  next hfresh =>
    refine ⟨fun _ => ?_, fun _ => rfl⟩
    omega

theorem heartbeatHealth_some {ageMs : Int}
    (h : evaluateHeartbeatHealth sandbox.last_heartbeat config.heartbeat now = some ageMs) :
    sandbox.last_heartbeat = some (now - ageMs) ∧
      heartbeatStaleAt (now - ageMs) config.heartbeat ≤ now := by
  unfold evaluateHeartbeatHealth at h
  cases hb : sandbox.last_heartbeat with
  | none =>
    rw [hb] at h
    cases h
  | some lastHeartbeat =>
    rw [hb] at h
    dsimp only at h
    split at h
    next hstale =>
      cases h
      unfold heartbeatStaleAt
      have hage : now - (now - lastHeartbeat) = lastHeartbeat := by omega
      rw [hage]
      exact ⟨rfl, by omega⟩
    next => cases h

variable {before : AlarmFinding}

/-- What a watchdog finds later is a deadline of the row. -/
theorem passed_later (h : before.passed (evaluateAlarmPolicy sandbox config later clients) = true) :
    isBootingStatus sandbox.status = true ∨
      ∃ lastHeartbeat, sandbox.last_heartbeat = some lastHeartbeat ∧
        heartbeatStaleAt lastHeartbeat config.heartbeat ≤ later ∧
        (before.isUnconfirmed = true →
          heartbeatGraceEndsAt lastHeartbeat config.heartbeat ≤ later) := by
  cases hboot : isBootingStatus sandbox.status with
  | true => exact .inl rfl
  | false =>
    right
    unfold evaluateAlarmPolicy at h
    split at h
    next => cases h
    next =>
      rw [evaluateConnectingTimeout, if_pos (.inl hboot)] at h
      dsimp only at h
      cases hhealth : evaluateHeartbeatHealth sandbox.last_heartbeat config.heartbeat later with
      | some ageMs =>
        obtain ⟨hlast, hstale⟩ := heartbeatHealth_some hhealth
        refine ⟨_, hlast, hstale, ?_⟩
        intro hunconfirmed
        rw [hhealth] at h
        dsimp only at h
        split at h
        next =>
          rw [AlarmFinding.passed, hunconfirmed] at h
          cases h
        next hgrace =>
          by_contra hlt
          exact hgrace ⟨hboot, Int.not_le.mp hlt⟩
      | none =>
        rw [hhealth, evaluateBootBudget, if_pos hboot] at h
        dsimp only at h
        cases hidle : evaluateInactivityTimeout sandbox.status sandbox.last_activity clients
            config.inactivity later with
        | timeout => rw [hidle] at h; cases h
        | extend => rw [hidle] at h; cases h
        | schedule => rw [hidle] at h; cases h

/-! ## The next alarm -/

theorem not_booting_of_ready (h : sandbox.status = .ready) :
    isBootingStatus sandbox.status = false := by
  rw [h]
  rfl

theorem inactivity_extend {extensionMs : Int}
    (h : evaluateInactivityTimeout sandbox.status sandbox.last_activity clients config.inactivity
      now = .extend extensionMs) :
    extensionMs = config.inactivity.extensionMs ∧ sandbox.status = .ready ∧ 0 < clients ∧
      ∃ lastActivity, sandbox.last_activity = some lastActivity ∧
        config.inactivity.timeoutMs ≤ now - lastActivity := by
  unfold evaluateInactivityTimeout at h
  split at h
  next => cases h
  next =>
    cases hactivity : sandbox.last_activity with
    | none =>
      rw [hactivity] at h
      cases h
    | some lastActivity =>
      rw [hactivity] at h
      dsimp only at h
      split at h
      next => cases h
      next hready =>
        split at h
        next hidle =>
          split at h
          next hclients =>
            cases h
            exact ⟨rfl, not_not.mp hready, hclients, lastActivity, rfl, hidle⟩
          next => cases h
        next => cases h

theorem inactivity_extends {lastActivity : Int} (hready : sandbox.status = .ready)
    (hclients : 0 < clients) (hactivity : sandbox.last_activity = some lastActivity)
    (hidle : config.inactivity.timeoutMs ≤ now - lastActivity) :
    evaluateInactivityTimeout sandbox.status sandbox.last_activity clients config.inactivity now =
      .extend config.inactivity.extensionMs := by
  rw [hready, hactivity]
  show (if now - lastActivity ≥ config.inactivity.timeoutMs then
    if clients > 0 then _ else _ else _) = _
  rw [if_pos hidle, if_pos hclients]

theorem inactivity_schedule {nextCheckMs : Int}
    (h : evaluateInactivityTimeout sandbox.status sandbox.last_activity clients config.inactivity
      now = .schedule nextCheckMs) :
    config.inactivity.minCheckIntervalMs ≤ nextCheckMs ∧
      (sandbox.status ≠ .ready → nextCheckMs = config.inactivity.minCheckIntervalMs) := by
  unfold evaluateInactivityTimeout at h
  split at h
  next =>
    cases h
    exact ⟨Int.le_refl _, fun _ => rfl⟩
  next =>
    cases hactivity : sandbox.last_activity with
    | none =>
      rw [hactivity] at h
      cases h
      exact ⟨Int.le_refl _, fun _ => rfl⟩
    | some lastActivity =>
      rw [hactivity] at h
      dsimp only at h
      split at h
      next =>
        cases h
        exact ⟨Int.le_refl _, fun _ => rfl⟩
      next hready =>
        split at h
        next =>
          split at h
          next => cases h
          next => cases h
        next =>
          cases h
          exact ⟨le_max_right _ _, fun hne => absurd hne hready⟩

/-- An alarm that is set again follows a heartbeat still in its grace, or one that is fresh. -/
theorem nextAlarm_cases {next : Int}
    (h : nextAlarm now (evaluateAlarmPolicy sandbox config now clients) = some next) :
    (∃ lastHeartbeat, sandbox.last_heartbeat = some lastHeartbeat ∧
      heartbeatStaleAt lastHeartbeat config.heartbeat ≤ now ∧
      isBootingStatus sandbox.status = false ∧
      (evaluateAlarmPolicy sandbox config now clients).isUnconfirmed = true ∧
      next = heartbeatGraceEndsAt lastHeartbeat config.heartbeat ∧ now < next) ∨
    (evaluateHeartbeatHealth sandbox.last_heartbeat config.heartbeat now = none ∧
      evaluateAlarmPolicy sandbox config now clients = inactivityFinding sandbox config now
        (evaluateInactivityTimeout sandbox.status sandbox.last_activity clients config.inactivity
          now)) := by
  generalize hfinding : evaluateAlarmPolicy sandbox config now clients = finding at h
  unfold evaluateAlarmPolicy at hfinding
  split at hfinding
  next =>
    subst hfinding
    cases h
  next =>
    cases hconnect : evaluateConnectingTimeout sandbox.status sandbox.created_at
        config.connectingTimeout now sandbox.last_heartbeat.isSome with
    | some =>
      rw [hconnect] at hfinding
      subst hfinding
      cases h
    | none =>
      rw [hconnect] at hfinding
      cases hhealth : evaluateHeartbeatHealth sandbox.last_heartbeat config.heartbeat now with
      | some ageMs =>
        rw [hhealth] at hfinding
        dsimp only at hfinding
        split at hfinding
        next hgrace =>
          subst hfinding
          cases h
          obtain ⟨hlast, hstale⟩ := heartbeatHealth_some hhealth
          exact .inl ⟨_, hlast, hstale, hgrace.1, rfl, rfl, hgrace.2⟩
        next =>
          subst hfinding
          cases h
      | none =>
        rw [hhealth] at hfinding
        cases hbudget : evaluateBootBudget sandbox.status sandbox.created_at config.bootBudget
            now with
        | some =>
          rw [hbudget] at hfinding
          subst hfinding
          cases h
        | none =>
          rw [hbudget] at hfinding
          exact .inr ⟨rfl, hfinding.symm⟩

/-- While a heartbeat is unconfirmed, the alarm waits for the end of its grace. -/
theorem unconfirmed_next (hlast : sandbox.last_heartbeat = some lastHeartbeat)
    (hboot : isBootingStatus sandbox.status = false) (hbefore : before.isUnconfirmed = true)
    (h : before.passed (evaluateAlarmPolicy sandbox config later clients) = true) :
    heartbeatGraceEndsAt lastHeartbeat config.heartbeat ≤ later := by
  rcases passed_later h with hbooting | ⟨last, hsome, _, hgrace⟩
  · rw [hboot] at hbooting
    cases hbooting
  · rw [hlast, Option.some.injEq] at hsome
    subst hsome
    exact hgrace hbefore

/-- After a healthy check, nothing is due before the next one but for a check interval. -/
theorem healthy_next {nextCheckMs : Int} {clients' : Nat}
    (hpositive : config.Positive) (hlater : now < later)
    (hidle : evaluateInactivityTimeout sandbox.status sandbox.last_activity clients
      config.inactivity now = .schedule nextCheckMs)
    (hhealth : evaluateHeartbeatHealth sandbox.last_heartbeat config.heartbeat now = none)
    {next : Int}
    (hnext : nextAlarm now (inactivityFinding sandbox config now (.schedule nextCheckMs)) =
      some next)
    (h : before.passed (evaluateAlarmPolicy sandbox config later clients') = true) :
    next ≤ later + config.inactivity.minCheckIntervalMs := by
  have hmin := hpositive.minCheckInterval
  cases hnext
  rcases passed_later h with hbooting | ⟨last, hlast, hstale, _⟩
  · have hcheck : nextCheckMs = config.inactivity.minCheckIntervalMs := by
      refine (inactivity_schedule hidle).2 ?_
      intro hready
      rw [not_booting_of_ready hready] at hbooting
      cases hbooting
    cases sandbox.last_heartbeat with
    | none =>
      dsimp only
      omega
    | some last =>
      dsimp only
      omega
  · have hfresh := (heartbeatHealth_none hlast).mp hhealth
    rw [hlast]
    dsimp only
    omega

/-- The heartbeat of a booted sandbox that goes stale is found at that very moment. -/
theorem unconfirmed_at_stale (hpositive : config.Positive) (hready : sandbox.status = .ready)
    (hlast : sandbox.last_heartbeat = some lastHeartbeat) (hbefore : before.isUnconfirmed = false) :
    before.passed (evaluateAlarmPolicy sandbox config
      (heartbeatStaleAt lastHeartbeat config.heartbeat) clients) = true := by
  have hboot := not_booting_of_ready hready
  have hdead : sandbox.status.isDead = false := by
    rw [hready]
    rfl
  have hhealth : evaluateHeartbeatHealth sandbox.last_heartbeat config.heartbeat
      (heartbeatStaleAt lastHeartbeat config.heartbeat) =
        some (config.heartbeat.timeoutMs + 1) := by
    rw [hlast]
    unfold evaluateHeartbeatHealth heartbeatStaleAt
    dsimp only
    rw [if_pos (by omega), Option.some.injEq]
    omega
  unfold evaluateAlarmPolicy
  rw [if_neg (by rw [hdead]; exact Bool.false_ne_true), evaluateConnectingTimeout,
    if_pos (Or.inl hboot), hhealth]
  dsimp only
  rw [if_pos]
  · rw [AlarmFinding.passed, hbefore]
    rfl
  · refine ⟨hboot, ?_⟩
    have hgrace := hpositive.reconnectGrace
    unfold heartbeatGraceEndsAt heartbeatStaleAt
    omega

theorem healthy_ahead {nextCheckMs next : Int} (hpositive : config.Positive)
    (hidle : evaluateInactivityTimeout sandbox.status sandbox.last_activity clients
      config.inactivity now = .schedule nextCheckMs)
    (hhealth : evaluateHeartbeatHealth sandbox.last_heartbeat config.heartbeat now = none)
    (hnext : nextAlarm now (inactivityFinding sandbox config now (.schedule nextCheckMs)) =
      some next) : now < next := by
  have hmin := hpositive.minCheckInterval
  have hcheck := (inactivity_schedule hidle).1
  cases hnext
  cases hlast : sandbox.last_heartbeat with
  | none =>
    dsimp only
    omega
  | some last =>
    have hfresh := (heartbeatHealth_none hlast).mp hhealth
    dsimp only
    omega

/-- After a warning, the alarm waits for the whole extension, whatever the heartbeat. -/
theorem warned_alarm {extensionMs next : Int} (hpositive : config.Positive)
    (hfinding : evaluateAlarmPolicy sandbox config now clients = inactivityFinding sandbox config
      now (evaluateInactivityTimeout sandbox.status sandbox.last_activity clients
        config.inactivity now))
    (hidle : evaluateInactivityTimeout sandbox.status sandbox.last_activity clients
      config.inactivity now = .extend extensionMs)
    (hhealth : evaluateHeartbeatHealth sandbox.last_heartbeat config.heartbeat now = none)
    (h : nextAlarm now (evaluateAlarmPolicy sandbox config now clients) = some next) :
    now < next ∧
      ((∀ later clients', now < later →
        (evaluateAlarmPolicy sandbox config now clients).passed
          (evaluateAlarmPolicy sandbox config later clients') = true →
        next ≤ later + config.inactivity.minCheckIntervalMs) ↔
      ¬ SleptThrough sandbox config now clients) := by
  obtain ⟨rfl, hready, hclients, hactivity⟩ := inactivity_extend hidle
  rw [hidle] at hfinding
  rw [hfinding] at h ⊢
  cases h
  refine ⟨Int.lt_add_of_pos_right _ hpositive.extension, ?_, ?_⟩
  · rintro hwatched ⟨_, _, _, last, hlast, hfresh, hlate⟩
    have hnext := hwatched _ clients hfresh (unconfirmed_at_stale hpositive hready hlast rfl)
    omega
  · intro hawake later clients' hlater hpassed
    rcases passed_later hpassed with hbooting | ⟨last, hlast, hstale, _⟩
    · rw [not_booting_of_ready hready] at hbooting
      cases hbooting
    · by_contra hlate
      refine hawake ⟨hready, hclients, hactivity, last, hlast,
        (heartbeatHealth_none hlast).mp hhealth, ?_⟩
      omega

/-- **Watchdog deadlines.** The next alarm lies ahead. It comes no later than any time at which a
watchdog would find something new, up to the check interval, exactly where the sandbox does not
sleep through its heartbeat deadline after an inactivity warning. -/
theorem alarm_meets_deadlines (sandbox : AlarmSandbox) (config : AlarmPolicyConfig) (now : Int)
    (clients : Nat) (next : Int) (hpositive : config.Positive)
    (h : nextAlarm now (evaluateAlarmPolicy sandbox config now clients) = some next) :
    now < next ∧
      ((∀ later clients', now < later →
        (evaluateAlarmPolicy sandbox config now clients).passed
          (evaluateAlarmPolicy sandbox config later clients') = true →
        next ≤ later + config.inactivity.minCheckIntervalMs) ↔
      ¬ SleptThrough sandbox config now clients) := by
  rcases nextAlarm_cases h with ⟨last, hlast, hstale, hboot, hunconfirmed, hnext, hahead⟩ |
    ⟨hhealth, hfinding⟩
  · have hmin := hpositive.minCheckInterval
    refine ⟨hahead, ?_, ?_⟩
    · rintro - ⟨_, _, _, last', hlast', hfresh, _⟩
      rw [hlast, Option.some.injEq] at hlast'
      subst hlast'
      omega
    · intro _ later clients' _ hpassed
      have hgrace := unconfirmed_next hlast hboot hunconfirmed hpassed
      omega
  · cases hidle : evaluateInactivityTimeout sandbox.status sandbox.last_activity clients
        config.inactivity now with
    | timeout idleMs =>
      rw [hfinding, hidle] at h
      cases h
    | extend extensionMs =>
      exact warned_alarm hpositive hfinding hidle hhealth h
    | schedule nextCheckMs =>
      rw [hfinding, hidle] at h ⊢
      refine ⟨healthy_ahead hpositive hidle hhealth h, ?_, ?_⟩
      · rintro - ⟨hready, hclients, ⟨lastActivity, hactivity, hlong⟩, _⟩
        rw [inactivity_extends hready hclients hactivity hlong] at hidle
        cases hidle
      · intro _ later clients' hlater hpassed
        exact healthy_next hpositive hlater hidle hhealth h hpassed

/-! ## The default policy -/

def DEFAULT_HEARTBEAT_CONFIG : HeartbeatConfig where
  timeoutMs := 90000
  reconnectGraceMs := 60000

def DEFAULT_INACTIVITY_CONFIG : InactivityConfig where
  timeoutMs := 10 * 60 * 1000
  extensionMs := 5 * 60 * 1000
  minCheckIntervalMs := 30000

def DEFAULT_ALARM_POLICY_CONFIG : AlarmPolicyConfig where
  connectingTimeout := 4 * 60 * 1000
  heartbeat := DEFAULT_HEARTBEAT_CONFIG
  bootBudget := 30 * 60 * 1000
  inactivity := DEFAULT_INACTIVITY_CONFIG

theorem default_positive : DEFAULT_ALARM_POLICY_CONFIG.Positive := by
  constructor <;> decide

/-- A sandbox that has been idle for long, with a heartbeat ten seconds old. -/
def idleSandbox : AlarmSandbox where
  status := .ready
  created_at := 0
  last_heartbeat := some 890000
  last_activity := some 0

/-- With a client connected it is given five minutes, in which its bridge may be silent for twice
as long as the heartbeat timeout and its grace allow. -/
theorem warning_sleeps :
    ∃ extensionMs,
      evaluateAlarmPolicy idleSandbox DEFAULT_ALARM_POLICY_CONFIG 900000 1 =
        .inactivity_warning extensionMs ∧
      nextAlarm 900000 (.inactivity_warning extensionMs) = some 1200000 ∧
      evaluateAlarmPolicy idleSandbox DEFAULT_ALARM_POLICY_CONFIG 980001 1 =
        .heartbeat_unconfirmed 90001 1040001 ∧
      evaluateAlarmPolicy idleSandbox DEFAULT_ALARM_POLICY_CONFIG 1040001 1 =
        .heartbeat_stale 150001 false ∧
      (1040001 + DEFAULT_ALARM_POLICY_CONFIG.inactivity.minCheckIntervalMs : Int) < 1200000 := by
  refine ⟨300000, ?_, ?_, ?_, ?_, ?_⟩ <;> decide

theorem warning_meets_deadlines :
    (900000 : Int) < 1200000 ∧
      ((∀ later clients', (900000 : Int) < later →
        (evaluateAlarmPolicy idleSandbox DEFAULT_ALARM_POLICY_CONFIG 900000 1).passed
          (evaluateAlarmPolicy idleSandbox DEFAULT_ALARM_POLICY_CONFIG later clients') = true →
        1200000 ≤ later + DEFAULT_ALARM_POLICY_CONFIG.inactivity.minCheckIntervalMs) ↔
      ¬ SleptThrough idleSandbox DEFAULT_ALARM_POLICY_CONFIG 900000 1) :=
  alarm_meets_deadlines idleSandbox DEFAULT_ALARM_POLICY_CONFIG 900000 1 1200000 default_positive
    (by decide)

end BackgroundAgents.Lifecycle

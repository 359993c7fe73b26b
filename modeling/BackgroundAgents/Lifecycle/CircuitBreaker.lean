import Mathlib.Data.Int.Notation
import Mathlib.Tactic.Common

/-!
# The circuit breaker of sandbox launches

`admitLaunch` asks it before every launch, `recordSpawnFailure` counts a failed
attempt and `onPromptDispatched` ends the streak. The window is measured at two
clocks: when an attempt is admitted, and when the attempt that is counted began.

`Unbroken` is a streak by its own terms, without the row: no prompt, and no idle
gap of a whole window. The row counts exactly that (`replay_unbroken`), and only
what breaks a streak makes it count less (`reset_breaks`).
-/

namespace BackgroundAgents.Lifecycle

structure CircuitBreakerState where
  failureCount : Nat
  lastFailureTime : Int
  deriving DecidableEq, Repr

structure CircuitBreakerConfig where
  threshold : Nat
  windowMs : Int
  deriving DecidableEq, Repr

structure CircuitBreakerDecision where
  shouldProceed : Bool
  shouldReset : Bool
  waitTimeMs : Option Int
  deriving DecidableEq, Repr

/-- The columns of the sandbox row that the breaker reads. -/
structure SandboxCircuitBreakerInfo where
  spawn_failure_count : Option Nat
  last_spawn_failure : Option Int
  deriving DecidableEq, Repr

def toCircuitBreakerState (sandbox : Option SandboxCircuitBreakerInfo) : CircuitBreakerState where
  failureCount := (sandbox.bind (·.spawn_failure_count)).getD 0
  lastFailureTime := (sandbox.bind (·.last_spawn_failure)).getD 0

def evaluateCircuitBreaker (state : CircuitBreakerState) (config : CircuitBreakerConfig)
    (now : Int) : CircuitBreakerDecision :=
  let timeSinceLastFailure := now - state.lastFailureTime
  if state.failureCount > 0 ∧ timeSinceLastFailure ≥ config.windowMs then
    { shouldProceed := true, shouldReset := true, waitTimeMs := none }
  else if state.failureCount ≥ config.threshold ∧ timeSinceLastFailure < config.windowMs then
    { shouldProceed := false
      shouldReset := false
      waitTimeMs := some (config.windowMs - timeSinceLastFailure) }
  else { shouldProceed := true, shouldReset := false, waitTimeMs := none }

/-! ## The row -/

def resetCircuitBreaker (sandbox : SandboxCircuitBreakerInfo) : SandboxCircuitBreakerInfo :=
  { sandbox with spawn_failure_count := some 0 }

def incrementCircuitBreakerFailure (sandbox : SandboxCircuitBreakerInfo) (timestamp : Int) :
    SandboxCircuitBreakerInfo where
  spawn_failure_count := some (sandbox.spawn_failure_count.getD 0 + 1)
  last_spawn_failure := some timestamp

/-- The error that a refused launch reports. -/
def breakerOpenMessage (failureCount : Nat) (waitTimeMs : Int) : String :=
  let seconds := (waitTimeMs + 999) / 1000
  s!"Sandbox spawning temporarily disabled after {failureCount} failures. " ++
    s!"Try again in {seconds} seconds."

/-- Whether a launch is admitted, with the error that is reported if not. -/
structure Admission where
  admitted : Bool
  reported : Option String
  sandbox : SandboxCircuitBreakerInfo
  deriving DecidableEq, Repr

def admitLaunch (config : CircuitBreakerConfig) (sandbox : SandboxCircuitBreakerInfo)
    (now : Int) : Admission :=
  let circuitBreakerState := toCircuitBreakerState (some sandbox)
  let cbDecision := evaluateCircuitBreaker circuitBreakerState config now
  let sandbox := if cbDecision.shouldReset then resetCircuitBreaker sandbox else sandbox
  if cbDecision.shouldProceed then { admitted := true, reported := none, sandbox }
  else
    { admitted := false
      reported :=
        some (breakerOpenMessage circuitBreakerState.failureCount (cbDecision.waitTimeMs.getD 0))
      sandbox }

/-- Whether `admitLaunch` would refuse a launch. -/
def isCircuitBreakerOpen (config : CircuitBreakerConfig) (sandbox : SandboxCircuitBreakerInfo)
    (now : Int) : Bool :=
  !(evaluateCircuitBreaker (toCircuitBreakerState (some sandbox)) config now).shouldProceed

/-- The row, and whether this failure left the breaker open. -/
def recordSpawnFailure (config : CircuitBreakerConfig) (sandbox : SandboxCircuitBreakerInfo)
    (now : Int) (attemptStartedAt : Option Int) : SandboxCircuitBreakerInfo × Bool :=
  let streak := evaluateCircuitBreaker (toCircuitBreakerState (some sandbox)) config
    (attemptStartedAt.getD now)
  let sandbox := if streak.shouldReset then resetCircuitBreaker sandbox else sandbox
  let sandbox := incrementCircuitBreakerFailure sandbox now
  (sandbox, isCircuitBreakerOpen config sandbox now)

def onPromptDispatched (sandbox : SandboxCircuitBreakerInfo) : SandboxCircuitBreakerInfo :=
  resetCircuitBreaker sandbox

/-! ## Runs -/

inductive LaunchAct where
  /-- a launch is asked for -/
  | ask (now : Int)
  /-- an attempt is counted as failed -/
  | fail (now attemptStartedAt : Int)
  | promptDispatched
  deriving DecidableEq, Repr

variable {config : CircuitBreakerConfig} {sandbox : SandboxCircuitBreakerInfo}
  {acts : List LaunchAct} {now last : Int}

def LaunchAct.apply (config : CircuitBreakerConfig) (sandbox : SandboxCircuitBreakerInfo) :
    LaunchAct → SandboxCircuitBreakerInfo
  | .ask now => (admitLaunch config sandbox now).sandbox
  | .fail now attemptStartedAt => (recordSpawnFailure config sandbox now (some attemptStartedAt)).1
  | .promptDispatched => onPromptDispatched sandbox

def replay (config : CircuitBreakerConfig) (sandbox : SandboxCircuitBreakerInfo)
    (acts : List LaunchAct) : SandboxCircuitBreakerInfo :=
  acts.foldl (LaunchAct.apply config) sandbox

/-- The failures that a run counts. -/
def failures : List LaunchAct → Nat
  | [] => 0
  | .fail _ _ :: acts => failures acts + 1
  | _ :: acts => failures acts

/-- The last failure that a run counted, after an earlier one if there was any. -/
def lastFailure (previous : Option Int) : List LaunchAct → Option Int
  | [] => previous
  | .fail now _ :: acts => lastFailure (some now) acts
  | _ :: acts => lastFailure previous acts

/-- No whole window lies between a failure and the time. -/
def Within (config : CircuitBreakerConfig) (previous : Option Int) (time : Int) : Prop :=
  ∀ last, previous = some last → time - last < config.windowMs

/-- No prompt is dispatched, and every attempt begins and every launch is asked for less than a
window after the failure before it. -/
def Unbroken (config : CircuitBreakerConfig) (previous : Option Int) : List LaunchAct → Prop
  | [] => True
  | .ask now :: acts => Within config previous now ∧ Unbroken config previous acts
  | .fail now attemptStartedAt :: acts =>
    Within config previous attemptStartedAt ∧ Unbroken config (some now) acts
  | .promptDispatched :: _ => False

/-- A prompt, or an idle gap of at least a window. -/
def LaunchAct.Breaks (config : CircuitBreakerConfig) (previous : Option Int) : LaunchAct → Prop
  | .ask now => ¬ Within config previous now
  | .fail _ attemptStartedAt => ¬ Within config previous attemptStartedAt
  | .promptDispatched => True

/-- The failures of the streak that the row is in. -/
def SandboxCircuitBreakerInfo.count (sandbox : SandboxCircuitBreakerInfo) : Nat :=
  sandbox.spawn_failure_count.getD 0

/-- The last failure of that streak. -/
def SandboxCircuitBreakerInfo.previous (sandbox : SandboxCircuitBreakerInfo) : Option Int :=
  if sandbox.count = 0 then none else some (sandbox.last_spawn_failure.getD 0)

/-! ## One step -/

theorem toCircuitBreakerState_some : toCircuitBreakerState (some sandbox) =
    { failureCount := sandbox.count
      lastFailureTime := sandbox.last_spawn_failure.getD 0 } := rfl

theorem shouldReset_iff :
    (evaluateCircuitBreaker (toCircuitBreakerState (some sandbox)) config now).shouldReset = true ↔
      ¬ Within config sandbox.previous now := by
  have hwithin : Within config sandbox.previous now ↔
      ¬ (sandbox.count > 0 ∧ now - sandbox.last_spawn_failure.getD 0 ≥ config.windowMs) := by
    unfold Within SandboxCircuitBreakerInfo.previous
    split
    next hzero =>
      refine ⟨fun _ h => ?_, fun _ last h => absurd h.symm (Option.some_ne_none last)⟩
      omega
    next hcount =>
      constructor
      · intro h hopen
        have := h _ rfl
        omega
      · rintro h last hlast
        cases hlast
        omega
  rw [hwithin, not_not, toCircuitBreakerState_some]
  unfold evaluateCircuitBreaker
  dsimp only
  split
  next h => exact ⟨fun _ => h, fun _ => rfl⟩
  next h =>
    split
    · exact ⟨fun he => absurd he Bool.false_ne_true, fun hp => absurd hp h⟩
    · exact ⟨fun he => absurd he Bool.false_ne_true, fun hp => absurd hp h⟩

theorem admitLaunch_sandbox : (admitLaunch config sandbox now).sandbox =
    if (evaluateCircuitBreaker (toCircuitBreakerState (some sandbox)) config now).shouldReset then
      resetCircuitBreaker sandbox
    else sandbox := by
  unfold admitLaunch
  dsimp only
  split
  · rfl
  · rfl

/-- An admission without an idle gap leaves the row alone. -/
theorem admitLaunch_within (h : Within config sandbox.previous now) :
    (admitLaunch config sandbox now).sandbox = sandbox := by
  rw [admitLaunch_sandbox, if_neg]
  exact fun hreset => shouldReset_iff.mp hreset h

theorem recordSpawnFailure_within {attemptStartedAt : Int}
    (h : Within config sandbox.previous attemptStartedAt) :
    (recordSpawnFailure config sandbox now (some attemptStartedAt)).1 =
      incrementCircuitBreakerFailure sandbox now := by
  unfold recordSpawnFailure
  dsimp only
  rw [if_neg]
  exact fun hreset => shouldReset_iff.mp hreset h

theorem previous_increment :
    (incrementCircuitBreakerFailure sandbox now).previous = some now := by
  rw [SandboxCircuitBreakerInfo.previous, if_neg]
  · rfl
  · exact Nat.succ_ne_zero _

theorem evaluate_open {state : CircuitBreakerState}
    (hthreshold : config.threshold ≤ state.failureCount)
    (hnow : now - state.lastFailureTime < config.windowMs) :
    evaluateCircuitBreaker state config now =
      { shouldProceed := false
        shouldReset := false
        waitTimeMs := some (config.windowMs - (now - state.lastFailureTime)) } := by
  have hrecent : ¬ (state.failureCount > 0 ∧ now - state.lastFailureTime ≥ config.windowMs) := by
    omega
  unfold evaluateCircuitBreaker
  dsimp only
  rw [if_neg hrecent, if_pos ⟨hthreshold, hnow⟩]

/-- Once the threshold is reached, nothing is launched within the window. -/
theorem admitLaunch_refuses (hlast : sandbox.previous = some last)
    (hthreshold : config.threshold ≤ sandbox.count) (hnow : now - last < config.windowMs) :
    admitLaunch config sandbox now =
      { admitted := false
        reported := some (breakerOpenMessage sandbox.count (config.windowMs - (now - last)))
        sandbox } := by
  unfold SandboxCircuitBreakerInfo.previous at hlast
  split at hlast
  next => cases hlast
  next =>
    cases hlast
    have hopen := @evaluate_open config now (toCircuitBreakerState (some sandbox)) hthreshold hnow
    unfold admitLaunch
    dsimp only
    rw [hopen]
    rfl

/-! ## Streaks -/

/-- A streak that nothing breaks is counted in full, whatever its attempts took. -/
theorem replay_unbroken (h : Unbroken config sandbox.previous acts) :
    (replay config sandbox acts).count = sandbox.count + failures acts ∧
      (replay config sandbox acts).previous = lastFailure sandbox.previous acts := by
  induction acts generalizing sandbox with
  | nil => exact ⟨rfl, rfl⟩
  | cons act acts ih =>
    cases act with
    | ask now =>
      have hsame : LaunchAct.apply config sandbox (.ask now) = sandbox := admitLaunch_within h.1
      rw [replay, List.foldl_cons, hsame]
      exact ih h.2
    | fail now attemptStartedAt =>
      have hcounted : LaunchAct.apply config sandbox (.fail now attemptStartedAt) =
          incrementCircuitBreakerFailure sandbox now := recordSpawnFailure_within h.1
      have hprevious := @previous_increment sandbox now
      rw [replay, List.foldl_cons, hcounted]
      have hrest := h.2
      rw [← hprevious] at hrest
      obtain ⟨hcount, hlast⟩ := ih hrest
      refine ⟨?_, ?_⟩
      · refine hcount.trans ?_
        show sandbox.count + 1 + failures acts = sandbox.count + (failures acts + 1)
        omega
      · refine hlast.trans ?_
        rw [hprevious]
        rfl
    | promptDispatched => exact absurd h id

theorem reset_breaks {act : LaunchAct}
    (h : (act.apply config sandbox).count ≠ sandbox.count + failures [act]) :
    act.Breaks config sandbox.previous := by
  cases act with
  | ask now =>
    intro hwithin
    have hsame : LaunchAct.apply config sandbox (.ask now) = sandbox :=
      admitLaunch_within hwithin
    rw [hsame] at h
    exact h rfl
  | fail now attemptStartedAt =>
    intro hwithin
    have hcounted : LaunchAct.apply config sandbox (.fail now attemptStartedAt) =
        incrementCircuitBreakerFailure sandbox now := recordSpawnFailure_within hwithin
    rw [hcounted] at h
    exact h rfl
  | promptDispatched => exact trivial

/-- **Repeated boot failures.** Once a streak has counted as many failures as the threshold, every
launch is refused until a window has passed since the last of them; and in any run, what is
counted is lost only to a prompt or to an idle gap. -/
theorem repeated_failures_stopped (config : CircuitBreakerConfig)
    (sandbox : SandboxCircuitBreakerInfo) (acts : List LaunchAct) :
    (Unbroken config sandbox.previous acts →
      ∀ last now, lastFailure sandbox.previous acts = some last →
        config.threshold ≤ sandbox.count + failures acts → now - last < config.windowMs →
          admitLaunch config (replay config sandbox acts) now =
            { admitted := false
              reported := some (breakerOpenMessage (sandbox.count + failures acts)
                (config.windowMs - (now - last)))
              sandbox := replay config sandbox acts }) ∧
      ∀ act : LaunchAct, (act.apply config (replay config sandbox acts)).count ≠
        (replay config sandbox acts).count + failures [act] →
          act.Breaks config (replay config sandbox acts).previous := by
  refine ⟨?_, fun act hreset => reset_breaks hreset⟩
  intro h last now hlast hthreshold hnow
  obtain ⟨hcount, hprevious⟩ := replay_unbroken h
  rw [← hprevious] at hlast
  rw [← hcount] at hthreshold ⊢
  exact admitLaunch_refuses hlast hthreshold hnow

def DEFAULT_CIRCUIT_BREAKER_CONFIG : CircuitBreakerConfig where
  threshold := 3
  windowMs := 5 * 60 * 1000

/-- Three boots of ten minutes each, every one started a second after the failure before it. -/
def slowBoots : List LaunchAct :=
  [.ask 0, .fail 600000 0, .ask 601000, .fail 1201000 601000, .ask 1202000,
    .fail 1802000 1202000]

theorem slow_boots_stopped :
    (admitLaunch DEFAULT_CIRCUIT_BREAKER_CONFIG
      (replay DEFAULT_CIRCUIT_BREAKER_CONFIG
        { spawn_failure_count := none, last_spawn_failure := none } slowBoots) 1803000).admitted =
      false := by
  have hunbroken : Unbroken DEFAULT_CIRCUIT_BREAKER_CONFIG none slowBoots := by
    refine ⟨?_, ?_, ?_, ?_, ?_, ?_, trivial⟩
    all_goals
      intro last hlast
      cases hlast
      try decide
  have hstopped := (repeated_failures_stopped DEFAULT_CIRCUIT_BREAKER_CONFIG
    { spawn_failure_count := none, last_spawn_failure := none } slowBoots).1 hunbroken 1802000
      1803000 rfl (by decide) (by decide)
  rw [hstopped]

end BackgroundAgents.Lifecycle

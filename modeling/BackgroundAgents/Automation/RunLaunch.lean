import BackgroundAgents.Automation.Firing

/-!
# Launching a run

`AutomationRunLaunchService.launch` and `recordFailure`, and the retry sweep's
`relaunch`, over the system of firings.

A `Launcher` is one call of `launch` (or of `recordFailure` by a retry that was
not admitted): it claims the run's session, creates it, sends the first prompt,
and records what failed. A firing's launchers begin when its batch admits it,
those of a retry when its claim succeeds. Every await may fail with or without
an effect, and never be answered; a call whose last statement ran is done, since
nothing it does after that touches the store.

`life` runs both kinds next to the firings. The statements on runs that are left
(`RunStatement.unattended`: callbacks, recovery sweeps, deadlines and withdrawn
retries) may run at any time, with any arguments. `prompts` is the log of the
calls of `enqueueFirstPrompt`.
-/

namespace BackgroundAgents.Automation

open AutomationDb
open BackgroundAgents.Transition

/-- `launchRetryDelayMs`: how long a run waits after its `attempt`-th launch failed. -/
def launchRetryDelayMs (attempt : Nat) : Millis :=
  2 * 60 * 1000 * 2 ^ (attempt - 1)

/-! ## A launch -/

/-- Why a launch failed, as far as `recordFailure` tells failures apart. -/
inductive LaunchError where
  | unauthorized (reason : String)
  /-- A harness or provider-account configuration that cannot run. -/
  | configuration (message : String)
  | other (message : String)
  deriving DecidableEq, Repr

/-- The await a launch is suspended at. -/
inductive LauncherPc where
  | claiming
  | creating
  | enqueuing
  | marking
  | recording (error : LaunchError) (retryable : Bool)
  | done
  deriving DecidableEq, Repr

structure Launcher where
  runId : Id
  attempt : Nat
  /-- `launch.retryable`. -/
  retryable : Bool
  pc : LauncherPc
  deriving DecidableEq, Repr

/-- What resumes a launch. -/
inductive LauncherAnswer where
  /-- `claimRunSession` ran; `lost` is the error that came in place of its answer. -/
  | claimed (sessionId : Id) (now budgetMs : Millis) (lost : Option LaunchError)
  | returned
  /-- The call threw, and had no effect on the store. -/
  | threw (error : LaunchError)
  /-- The statement of a mark or a record ran, whether or not its answer came. -/
  | stored (now : Millis)
  deriving DecidableEq, Repr

namespace Launcher

def working (l : Launcher) : Bool :=
  l.pc ≠ .done

/-- The catch of `launch`: a failure is retried only while the prompt was not sent. -/
def fail (l : Launcher) (error : LaunchError) (promptSent : Bool) : Launcher :=
  { l with pc := .recording error (l.retryable && !promptSent) }

/-- The statement of `recordFailure`. -/
def record (db : AutomationDb) (l : Launcher) (error : LaunchError) (retryable : Bool)
    (failedAt : Millis) : AutomationDb :=
  match error, retryable with
  | .unauthorized reason, _ =>
    db.updateRun l.runId ((RunOutcome.unauthorized reason).fields failedAt)
  | .other message, true =>
    db.failLaunchOrRetry l.runId message failedAt (failedAt + launchRetryDelayMs l.attempt)
  | .other message, false => db.updateRun l.runId ((RunOutcome.failed message).fields failedAt)
  | .configuration message, _ =>
    db.updateRun l.runId ((RunOutcome.failed message).fields failedAt)

/-- Resume a launch; the last component says whether it called `enqueueFirstPrompt`. -/
def step (db : AutomationDb) (l : Launcher) (answer : LauncherAnswer) :
    Option (AutomationDb × Launcher × Bool) :=
  match l.pc, answer with
  | .claiming, .threw error => some (db, l.fail error false, false)
  | .claiming, .claimed sessionId now budgetMs lost =>
    let db' := db.claimRunSession l.runId sessionId now (now + budgetMs)
    match lost with
    | some error => some (db', l.fail error false, false)
    | none =>
      if db.matchesRun (claimable l.runId) then some (db', { l with pc := .creating }, false)
      else
        some (db', l.fail
          (.other "Automation run was recovered before launch claimed its session") false, false)
  | .creating, .threw error => some (db, l.fail error false, false)
  -- the prompt counts as sent from here on, and the call begins in this very turn
  | .creating, .returned => some (db, { l with pc := .enqueuing }, true)
  | .enqueuing, .threw error => some (db, l.fail error true, false)
  | .enqueuing, .returned => some (db, { l with pc := .marking }, false)
  | .marking, .threw _ => some (db, { l with pc := .done }, false)
  | .marking, .stored _ => some (db.markRunFirstPromptQueued l.runId, { l with pc := .done }, false)
  | .recording _ _, .threw _ => some (db, { l with pc := .done }, false)
  | .recording error retryable, .stored now =>
    some (l.record db error retryable now, { l with pc := .done }, false)
  | _, _ => none

end Launcher

/-! ## A retry -/

/-- The await of `relaunch`: admitting, claiming with what the admission answered, and
`failWithdrawnRetry` when the claim was refused. -/
inductive RelaunchPc where
  | admitting
  | claiming (admission : Except LaunchError (Option TeamGrantsVersion))
  | withdrawing
  | done

/-- One waiting run in the hands of the retry sweep, as the sweep read it. -/
structure Relaunch where
  run : AutomationRunRow
  pc : RelaunchPc

inductive RelaunchAnswer where
  | admitted (grants : Option TeamGrantsVersion)
  | refused (error : LaunchError)
  | stored (now : Millis)
  /-- The statement ran, and its answer did not come. -/
  | lost (now : Millis)
  | threw
  deriving DecidableEq, Repr

namespace Relaunch

/-- The grants version `claimRetry` is conditional on. -/
def grants (admission : Except LaunchError (Option TeamGrantsVersion)) :
    Option TeamGrantsVersion :=
  match admission with
  | .ok grants => grants
  | .error _ => none

/-- The launch of a claimed retry; one that was not admitted only records why. -/
def launcher (r : Relaunch) (admission : Except LaunchError (Option TeamGrantsVersion)) :
    Launcher where
  runId := r.run.id
  attempt := r.run.attempt + 1
  retryable := true
  pc :=
    match admission with
    | .ok _ => .claiming
    | .error error => .recording error true

/-- Resume a retry; the last component is the launch it begins. -/
def step (db : AutomationDb) (r : Relaunch) (answer : RelaunchAnswer) :
    Option (AutomationDb × Relaunch × Option Launcher) :=
  match r.pc, answer with
  | .admitting, .admitted grants => some (db, { r with pc := .claiming (.ok grants) }, none)
  | .admitting, .refused error => some (db, { r with pc := .claiming (.error error) }, none)
  | .claiming admission, .stored now =>
    if db.matchesRun (db.relaunchable r.run.id r.run.attempt now (grants admission)) then
      some (db.claimRetry r.run.id r.run.attempt now (grants admission), { r with pc := .done },
        some (r.launcher admission))
    else some (db, { r with pc := .withdrawing }, none)
  | .claiming admission, .lost now =>
    some (db.claimRetry r.run.id r.run.attempt now (grants admission), { r with pc := .done }, none)
  | .claiming _, .threw => some (db, { r with pc := .done }, none)
  | .withdrawing, .stored now =>
    some (db.failWithdrawnRetry r.run.id now, { r with pc := .done }, none)
  | .withdrawing, .lost now =>
    some (db.failWithdrawnRetry r.run.id now, { r with pc := .done }, none)
  | .withdrawing, .threw => some (db, { r with pc := .done }, none)
  | _, _ => none

end Relaunch

/-! ## The system -/

/-- The statements that no launch and no retry issues for itself. -/
def RunStatement.unattended : RunStatement → Bool
  | .claimRunSession .. => false
  | .failLaunchOrRetry .. => false
  | .claimRetry .. => false
  | _ => true

structure LifeState where
  base : FiringState
  launchers : List Launcher
  relaunches : List Relaunch
  /-- The runs whose first prompt was sent, once for each call. -/
  prompts : List Id

inductive LifeAct where
  | firing (act : FiringAct)
  | launcher (n : Nat) (answer : LauncherAnswer)
  /-- The retry sweep takes up a waiting run that it read. -/
  | retryDue (runId : Id) (now : Millis)
  | relaunch (n : Nat) (answer : RelaunchAnswer)
  | unattended (statement : RunStatement)
  deriving DecidableEq, Repr

/-- The launch of a child of a firing. -/
def Firing.launcher (f : Firing) (child : AutomationRunRow) : Launcher where
  runId := child.id
  attempt := child.attempt
  retryable := f.params.source = .schedule && 0 < f.automation.maxRetries
  pc := .claiming

/-- The launches a step begins: those of the firing whose batch it was. -/
def beginLaunches (s : FiringState) : FiringAct → List Launcher
  | .resume n answer =>
    match s.firings[n]? with
    | some f =>
      match f.pc, f.prepared, answer with
      | .inserting, some p, .stored _ =>
        match s.db.insertInvocationGuarded p with
        | .committed true _ =>
          (p.children.filter fun c => c.status = .starting).map f.launcher
        | _ => []
      | _, _, _ => []
    | none => []
  | _ => []

def lifeStep (s : LifeState) : LifeAct → Option LifeState
  | .firing (.other (.run _)) => none
  | .firing act =>
    (firingStep s.base act).map fun base =>
      { s with base, launchers := s.launchers ++ beginLaunches s.base act }
  | .launcher n answer =>
    s.launchers[n]?.bind fun l =>
      (l.step s.base.db answer).map fun (db, l', sent) =>
        { s with
          base := { s.base with db }
          launchers := s.launchers.set n l'
          prompts := if sent then l.runId :: s.prompts else s.prompts }
  | .retryDue runId now =>
    ((s.base.db.getRetriesToSettle now).find? fun r => r.id = runId).map fun run =>
      { s with relaunches := s.relaunches ++ [⟨run, .admitting⟩] }
  | .relaunch n answer =>
    s.relaunches[n]?.bind fun r =>
      (r.step s.base.db answer).map fun (db, r', launch) =>
        { s with
          base := { s.base with db }
          relaunches := s.relaunches.set n r'
          launchers := s.launchers ++ launch.toList }
  | .unattended statement =>
    if statement.unattended then
      some { s with base := { s.base with db := statement.exec s.base.db } }
    else none

/-- The launches, retries and firings over one store. -/
def life : System LifeState LifeAct where
  step := lifeStep

def LifeState.initial (db : AutomationDb) : LifeState where
  base := .initial db
  launchers := []
  relaunches := []
  prompts := []

end BackgroundAgents.Automation

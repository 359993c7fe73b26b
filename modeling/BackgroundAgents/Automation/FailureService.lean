import BackgroundAgents.Automation.Firing

/-!
# The failure service

`AutomationFailureService.applyInvocationOutcome` with `trackAutomationFailure`,
and the finalization sweep that repeats it.

An `OutcomeCall` is one call in flight, suspended at one of its statements; its
caller is a callback, a launch, a retry or a sweep, and hands over an invocation
with its automation. `accounting` runs any number of calls next to the firings
and to every other statement of the store. What the service owns stays with it:
no other step issues a statement of the accounting, except that the sweep
disables settled one-shots on its own, and no edit of an automation writes its
streak, its `enabled` or a missing slot (`editable`).

`strikes` logs the invocations that have added to a streak. `streak` and
`paused` of a call are the same kind of record: the streak its own strike
reached, and whether it paused the automation.
-/

namespace BackgroundAgents.Automation

open AutomationDb
open BackgroundAgents.Transition

/-- `AUTO_PAUSE_THRESHOLD`. -/
def autoPauseThreshold : Nat := 5

/-- `RECOVERY_SWEEP_LIMIT`. -/
def recoverySweepLimit : Nat := 50

/-! ## One call -/

/-- The statement a call is suspended at. -/
inductive OutcomePc where
  | aggregating
  /-- `disableSettledOneShots`, for an invocation without active runs. -/
  | disabling
  | marking
  /-- The two statements of `incrementConsecutiveFailures`. -/
  | incrementing
  | counting
  | pausing
  | resetting
  | done
  deriving DecidableEq, Repr

structure OutcomeCall where
  automationId : Id
  invocationId : Id
  aggregate : Option InvocationRunAggregate := none
  streak : Option Nat := none
  paused : Bool := false
  pc : OutcomePc := .aggregating
  deriving DecidableEq, Repr

namespace AutomationDb.InvocationRunAggregate

/-- The outcome is a strike. -/
def strikes (g : InvocationRunAggregate) : Bool :=
  0 < g.failed && g.retrying = 0

/-- The outcome ends the streak. -/
def resets (g : InvocationRunAggregate) : Bool :=
  g.failed = 0 && g.active = 0 && g.completed = g.total

end AutomationDb.InvocationRunAggregate

namespace OutcomeCall

/-- The code after the one-shots: a strike, a reset or nothing. -/
def settle (g : InvocationRunAggregate) : OutcomePc :=
  if 0 < g.failed then (if 0 < g.retrying then .done else .marking)
  else if g.active = 0 ∧ g.completed = g.total then .resetting
  else .done

/-- Run the statement a call is suspended at; `none` once it is done. -/
def step (db : AutomationDb) (c : OutcomeCall) (now : Millis) :
    Option (AutomationDb × OutcomeCall) :=
  match c.pc with
  | .aggregating =>
    let g := db.getInvocationRunAggregate c.invocationId
    some (db,
      { c with
        aggregate := some g
        pc := if g.total = 0 then .done else if g.active = 0 then .disabling else settle g })
  | .disabling =>
    c.aggregate.map fun g =>
      (db.disableSettledOneShots (some c.automationId), { c with pc := settle g })
  | .marking =>
    some (db.tryMarkInvocationFailureCounted c.invocationId now,
      { c with pc := if db.failureUncounted c.invocationId then .incrementing else .done })
  | .incrementing =>
    let db' := db.incrementConsecutiveFailures c.automationId
    some (db', { c with pc := .counting, streak := some (db'.consecutiveFailures c.automationId) })
  | .counting =>
    some (db,
      { c with
        pc := if autoPauseThreshold ≤ db.consecutiveFailures c.automationId then .pausing
          else .done })
  | .pausing => some (db.autoPause c.automationId, { c with pc := .done, paused := true })
  | .resetting => some (db.resetConsecutiveFailures c.automationId, { c with pc := .done })
  | .done => none

/-- A call that nothing interrupts. -/
def run (now : Millis) : Nat → AutomationDb → OutcomeCall → AutomationDb
  | 0, db, _ => db
  | fuel + 1, db, c =>
    match c.step db now with
    | some (db', c') => run now fuel db' c'
    | none => db

/-- The statements that the longest call runs. -/
def statements : Nat := 6

end OutcomeCall

/-! ## The sweep -/

def applyInvocationOutcome (db : AutomationDb) (automationId invocationId : Id)
    (now : Millis) : AutomationDb :=
  OutcomeCall.run now OutcomeCall.statements db { automationId, invocationId }

def applyOutcomes (db : AutomationDb) (now : Millis) (outcomes : List (Id × Id)) : AutomationDb :=
  outcomes.foldl (fun db outcome => applyInvocationOutcome db outcome.1 outcome.2 now) db

/-- The invocations `finalizationSweep` finds without their strike. -/
def uncountedOutcomes (db : AutomationDb) (since : Millis) : List (Id × Id) :=
  (db.getUncountedFailedInvocations since recoverySweepLimit).map fun i => (i.automationId, i.id)

def finalizationSweep (db : AutomationDb) (since now : Millis) : AutomationDb :=
  let db := db.disableSettledOneShots none
  let db := applyOutcomes db now (uncountedOutcomes db since)
  applyOutcomes db now (db.getStaleFailureResetCandidates since recoverySweepLimit)

/-! ## The system -/

structure AccountingState where
  base : FiringState
  calls : List OutcomeCall
  /-- The invocations that added to a streak, once for each time. -/
  strikes : List Id

inductive AccountingAct where
  /-- Firings, run transitions, edits and whatever else is not the service's. -/
  | base (act : FiringAct)
  /-- The first statement of a sweep. -/
  | disableSettledOneShots
  | apply (invocationId : Id)
  | resume (call : Nat) (now : Millis)
  deriving DecidableEq, Repr

/-- What an edit of an automation may write. -/
def editable : ScheduleEdit → Bool
  | .updateAutomation _ fields =>
    fields.enabled.isNone && fields.consecutiveFailures.isNone && fields.nextRunAt ≠ some none
  | _ => true

/-- A statement that the failure service does not issue. -/
def outside : FiringAct → Bool
  | .other (.edit edit) => editable edit
  | .other (.ledger (.incrementConsecutiveFailures _)) => false
  | .other (.ledger (.resetConsecutiveFailures _)) => false
  | .other (.ledger (.disableSettledOneShots _)) => false
  | .other (.ledger (.tryMarkInvocationFailureCounted ..)) => false
  | _ => true

/-- The strike a call is about to record; a deleted automation keeps no streak. -/
def OutcomeCall.strike (db : AutomationDb) (c : OutcomeCall) : List Id :=
  if c.pc = .incrementing ∧ (db.getById c.automationId).isSome then [c.invocationId] else []

def accountingStep (s : AccountingState) : AccountingAct → Option AccountingState
  | .base act =>
    if outside act then (firingStep s.base act).map fun base => { s with base } else none
  | .disableSettledOneShots =>
    some { s with base := { s.base with db := s.base.db.disableSettledOneShots none } }
  | .apply invocationId =>
    (s.base.db.invocations.table.get? invocationId).map fun i =>
      { s with calls := s.calls ++ [{ automationId := i.automationId, invocationId := i.id }] }
  | .resume n now =>
    s.calls[n]?.bind fun c =>
      (c.step s.base.db now).map fun (db, c') =>
        { base := { s.base with db }
          calls := s.calls.set n c'
          strikes := c.strike s.base.db ++ s.strikes }

/-- The failure service over a store that everything else writes to as well. -/
def accounting : System AccountingState AccountingAct where
  step := accountingStep

def AccountingState.initial (db : AutomationDb) : AccountingState where
  base := .initial db
  calls := []
  strikes := []

end BackgroundAgents.Automation

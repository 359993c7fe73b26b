import BackgroundAgents.Lib.Table
import Mathlib.Data.List.Dedup
import Mathlib.Data.List.Sort

/-!
# The automation store

The tables behind the scheduler (`automations`, `automation_invocations`,
`automation_runs`, `automation_follow_up_receipts` and the grants version of
`teams`) and the statements `AutomationStore` issues on them. Every definition
is one atomic statement, or one atomic batch, of the source; a method that
issues two is two definitions.

The two partial unique indexes of `automation_invocations` are fields of
`Invocations`: a slot that fired twice, or a trigger key with two owners, cannot
be stored. `insert?` is the `INSERT` that may meet them.

Only the columns that some modelled function reads or writes are kept.
Identifiers and keys stand for generated strings, of which nothing but equality
is used; times are milliseconds.
-/

namespace BackgroundAgents.Automation

abbrev Millis := Nat

abbrev Id := Nat

inductive AutomationTriggerType where
  | schedule
  | githubEvent
  | linearEvent
  | sentry
  | webhook
  | slackEvent
  deriving DecidableEq, Repr

/-- A row of `automations`. -/
structure AutomationRow where
  id : Id
  triggerType : AutomationTriggerType := .schedule
  scheduleOnceAt : Option Millis := none
  enabled : Bool := true
  maxConcurrentRuns : Int := 1
  nextRunAt : Option Millis := none
  consecutiveFailures : Nat := 0
  maxRetries : Int := 0
  createdBy : String := ""
  userId : Option Id := none
  ownerTeamId : Option Id := none
  deletedAt : Option Millis := none
  deriving DecidableEq, Repr

inductive AutomationInvocationSource where
  | schedule
  | manual
  | event
  deriving DecidableEq, Repr

/-- A row of `automation_invocations`. -/
structure AutomationInvocationRow where
  id : Id
  automationId : Id
  source : AutomationInvocationSource
  scheduledAt : Option Millis := none
  triggerKey : Option String := none
  concurrencyKey : Option String := none
  skipReason : Option String := none
  failureCountedAt : Option Millis := none
  createdAt : Millis
  deriving DecidableEq, Repr

inductive AutomationRunStatus where
  | starting
  | running
  | retrying
  | completed
  | failed
  | skipped
  | unauthorized
  deriving DecidableEq, Repr

/-- `ACTIVE_RUN_STATUSES_SQL`: a run that holds its automation, or its event's concurrency key. -/
def AutomationRunStatus.active : AutomationRunStatus → Bool
  | .starting | .running | .retrying => true
  | _ => false

/-- `status IN ('starting', 'running')`. -/
def AutomationRunStatus.launching : AutomationRunStatus → Bool
  | .starting | .running => true
  | _ => false

/-- A row of `automation_runs`. -/
structure AutomationRunRow where
  id : Id
  automationId : Id
  invocationId : Id
  sessionId : Option Id := none
  status : AutomationRunStatus
  failureReason : Option String := none
  scheduledAt : Millis
  startedAt : Option Millis := none
  completedAt : Option Millis := none
  executionDeadlineAt : Option Millis := none
  createdAt : Millis
  firstPromptPending : Bool := false
  attempt : Nat := 1
  retryAt : Option Millis := none
  deriving DecidableEq, Repr

/-- What a row of `automation_follow_up_receipts` holds, by the table's `CHECK`. -/
inductive FollowUpReceipt where
  | claimed (claimId claimInvocationId : Id) (claimExpiresAt : Millis)
  | accepted (invocationId : Id) (acceptedAt : Millis)
  deriving DecidableEq, Repr

/-- A row of `automation_follow_up_receipts`. -/
structure FollowUpReceiptRow where
  automationId : Id
  triggerKey : String
  receipt : FollowUpReceipt
  deriving DecidableEq, Repr

def FollowUpReceiptRow.key (r : FollowUpReceiptRow) : Id × String :=
  (r.automationId, r.triggerKey)

/-- The grants version of a row of `teams`. -/
structure TeamRow where
  id : Id
  grantsVersion : Nat
  deriving DecidableEq, Repr

/-- `idx_invocations_idempotency`: one schedule invocation for each slot. -/
def AutomationInvocationRow.slot (i : AutomationInvocationRow) : Option (Id × Millis) :=
  if i.source = .schedule then i.scheduledAt.map (i.automationId, ·) else none

/-- `idx_invocations_trigger_key`: one invocation for each trigger key. -/
def AutomationInvocationRow.trigger (i : AutomationInvocationRow) : Option (Id × String) :=
  i.triggerKey.map (i.automationId, ·)

/-- `automation_invocations` with its unique indexes. -/
structure Invocations where
  table : Table AutomationInvocationRow.id
  slots : table.Unique AutomationInvocationRow.slot
  triggers : table.Unique AutomationInvocationRow.trigger

structure AutomationDb where
  automations : Table AutomationRow.id
  invocations : Invocations
  runs : Table AutomationRunRow.id
  receipts : Table FollowUpReceiptRow.key
  teams : Table TeamRow.id

/-! ## `automation_invocations` -/

namespace Invocations

def empty : Invocations where
  table := .empty
  slots := Table.unique_empty _
  triggers := Table.unique_empty _

/-- `INSERT`, refused by the primary key and by both unique indexes. -/
def insert? (t : Invocations) (i : AutomationInvocationRow) : Option Invocations :=
  if hs : t.table.Taken AutomationInvocationRow.slot i then none
  else if ht : t.table.Taken AutomationInvocationRow.trigger i then none
  else
    match h : t.table.insert? i with
    | none => none
    | some table =>
      some
        { table
          slots := Table.unique_insert? t.slots hs h
          triggers := Table.unique_insert? t.triggers ht h }

/-- A row whose failure was not counted yet. -/
def uncounted (id : Id) (i : AutomationInvocationRow) : Bool :=
  i.id = id && i.failureCountedAt.isNone

def counted (now : Millis) (i : AutomationInvocationRow) : AutomationInvocationRow :=
  { i with failureCountedAt := some now }

/-- `UPDATE … SET failure_counted_at = now WHERE id = ? AND failure_counted_at IS NULL`. -/
def countFailure (t : Invocations) (id : Id) (now : Millis) : Invocations where
  table := t.table.update (uncounted id) (counted now)
  slots := Table.unique_update t.slots (uncounted id) (counted now) (fun _ => rfl) fun _ => rfl
  triggers :=
    Table.unique_update t.triggers (uncounted id) (counted now) (fun _ => rfl) fun _ => rfl

theorem insert?_some {t t' : Invocations} {i : AutomationInvocationRow}
    (h : t.insert? i = some t') : t.table.insert? i = some t'.table := by
  unfold insert? at h
  split at h
  next => cases h
  next =>
    split at h
    next => cases h
    next =>
      split at h
      next => cases h
      next hi =>
        cases h
        exact hi

end Invocations

namespace AutomationDb

variable (db : AutomationDb)

/-- Whether a run matches: what `meta.changes > 0` reports of an update on it. -/
def matchesRun (p : AutomationRunRow → Bool) : Bool :=
  (db.runs.find? p).isSome

/-- `UPDATE automation_runs SET f WHERE p`. -/
def updateRuns (p : AutomationRunRow → Bool) (f : AutomationRunRow → AutomationRunRow)
    (hf : ∀ r, (f r).id = r.id := by intro _; rfl) : AutomationDb :=
  { db with runs := db.runs.update p f hf }

/-- `UPDATE automations SET f WHERE p`. -/
def updateAutomations (p : AutomationRow → Bool) (f : AutomationRow → AutomationRow)
    (hf : ∀ a, (f a).id = a.id := by intro _; rfl) : AutomationDb :=
  { db with automations := db.automations.update p f hf }

/-- `SELECT … FROM automations WHERE id = ? AND deleted_at IS NULL`. -/
def getById (id : Id) : Option AutomationRow :=
  (db.automations.get? id).filter fun a => a.deletedAt.isNone

/-! ## Team grants -/

/-- The team grants version a launch's targets were authorized against. -/
structure TeamGrantsVersion where
  teamId : Id
  version : Nat
  deriving DecidableEq, Repr

/-- Refuses an admission write once the team's grants changed from the version checked. -/
def teamGrantsGuard (grants : Option TeamGrantsVersion) : Bool :=
  match grants with
  | none => true
  | some g => (db.teams.get? g.teamId).any fun t => t.grantsVersion = g.version

/-! ## `automations` -/

def pause (id : Id) : AutomationDb :=
  db.updateAutomations (fun a => a.id = id && a.deletedAt.isNone)
    fun a => { a with enabled := false, nextRunAt := none }

def autoPause (id : Id) : AutomationDb :=
  db.updateAutomations (fun a => a.id = id && a.deletedAt.isNone)
    fun a => { a with enabled := false, nextRunAt := none }

def softDelete (id : Id) (now : Millis) : AutomationDb :=
  db.updateAutomations (fun a => a.id = id && a.deletedAt.isNone)
    fun a => { a with deletedAt := some now, nextRunAt := none }

def resume (id : Id) (nextRunAt : Option Millis) : AutomationDb :=
  db.updateAutomations
    (fun a => a.id = id && a.deletedAt.isNone &&
      (a.scheduleOnceAt.isNone || (nextRunAt.isSome && a.scheduleOnceAt == nextRunAt)))
    fun a => { a with enabled := true, nextRunAt, consecutiveFailures := 0 }

/-- `Partial<AutomationRow>`: the fields an update carries. -/
structure AutomationFields where
  scheduleOnceAt : Option (Option Millis) := none
  nextRunAt : Option (Option Millis) := none
  enabled : Option Bool := none
  maxConcurrentRuns : Option Int := none
  consecutiveFailures : Option Nat := none
  maxRetries : Option Int := none
  deriving DecidableEq, Repr

/-- The columns `bindAutomationUpdate` sets. The clause for a one-shot is computed
from the live row: a concurrent resume or pause must not strand or re-arm a slot. -/
def AutomationFields.apply (fields : AutomationFields) (a : AutomationRow) : AutomationRow :=
  { a with
    scheduleOnceAt := fields.scheduleOnceAt.getD a.scheduleOnceAt
    nextRunAt :=
      match fields.scheduleOnceAt with
      | some (some once) =>
        if a.scheduleOnceAt = some once then a.nextRunAt
        else if a.enabled then some once else none
      | _ => fields.nextRunAt.getD a.nextRunAt
    enabled := fields.enabled.getD a.enabled
    maxConcurrentRuns := fields.maxConcurrentRuns.getD a.maxConcurrentRuns
    consecutiveFailures := fields.consecutiveFailures.getD a.consecutiveFailures
    maxRetries := fields.maxRetries.getD a.maxRetries }

def updateAutomation (id : Id) (fields : AutomationFields) : AutomationDb :=
  db.updateAutomations (fun a => a.id = id && a.deletedAt.isNone) fields.apply

/-- `UPDATE automations SET user_id = ? WHERE id = ? AND user_id IS NULL`. -/
def repairOwner (id userId : Id) : AutomationDb :=
  db.updateAutomations (fun a => a.id = id && a.userId.isNone)
    fun a => { a with userId := some userId }

/-- The write of `bindExecutorChange`; its authority checks read no modelled table. -/
def changeExecutor (id userId : Id) : AutomationDb :=
  db.updateAutomations (fun a => a.id = id && a.deletedAt.isNone)
    fun a => { a with userId := some userId }

def advanceNextRunAt (id : Id) (nextRunAt : Millis) : AutomationDb :=
  db.updateAutomations
    (fun a => a.id = id && (a.nextRunAt.isNone || a.nextRunAt.any (· < nextRunAt)))
    fun a => { a with nextRunAt := some nextRunAt }

/-- The update of `incrementConsecutiveFailures`. -/
def incrementConsecutiveFailures (id : Id) : AutomationDb :=
  db.updateAutomations (fun a => a.id = id && a.deletedAt.isNone)
    fun a => { a with consecutiveFailures := a.consecutiveFailures + 1 }

/-- The count that `incrementConsecutiveFailures` reads back. -/
def consecutiveFailures (id : Id) : Nat :=
  ((db.getById id).map AutomationRow.consecutiveFailures).getD 0

def resetConsecutiveFailures (id : Id) : AutomationDb :=
  db.updateAutomations (fun a => a.id = id && a.deletedAt.isNone)
    fun a => { a with consecutiveFailures := 0 }

/-- A one-shot whose slot is consumed and whose runs are settled. -/
def oneShotSettled (a : AutomationRow) : Bool :=
  a.triggerType = .schedule && a.scheduleOnceAt.isSome && a.enabled && a.deletedAt.isNone &&
    a.nextRunAt.isNone &&
    (db.invocations.table.find? fun i =>
      i.automationId = a.id && i.source = .schedule && i.scheduledAt = a.scheduleOnceAt).isSome &&
    !db.matchesRun fun r => r.automationId = a.id && r.status.active

def disableSettledOneShots (automationId : Option Id) : AutomationDb :=
  db.updateAutomations (fun a => db.oneShotSettled a && automationId.all (· = a.id))
    fun a => { a with enabled := false }

def getOverdueAutomations (now : Millis) : List AutomationRow :=
  db.automations.rows.filter fun a =>
    a.enabled && a.deletedAt.isNone && a.triggerType = .schedule && a.nextRunAt.any (· ≤ now)

/-! ## `automation_runs` -/

/-- `EXECUTION_TIMEOUT_FAILURE_REASON`. -/
def executionTimeoutFailureReason : String := "execution_timeout"

/-- `RETRY_ALLOWED_SQL`: the run's automation is live and allows another launch after
the run's current attempt. -/
def retryAllowed (r : AutomationRunRow) : Bool :=
  (db.automations.get? r.automationId).any fun a =>
    a.enabled && a.deletedAt.isNone && (r.attempt : Int) ≤ a.maxRetries &&
      (a.scheduleOnceAt.isNone || a.scheduleOnceAt = some r.scheduledAt)

/-- `Partial<AutomationRunRow>`: the fields `updateRun` may write. -/
structure RunFields where
  sessionId : Option (Option Id) := none
  status : Option AutomationRunStatus := none
  failureReason : Option (Option String) := none
  startedAt : Option (Option Millis) := none
  completedAt : Option (Option Millis) := none
  deriving DecidableEq, Repr

def RunFields.apply (fields : RunFields) (r : AutomationRunRow) : AutomationRunRow :=
  { r with
    sessionId := fields.sessionId.getD r.sessionId
    status := fields.status.getD r.status
    failureReason := fields.failureReason.getD r.failureReason
    startedAt := fields.startedAt.getD r.startedAt
    completedAt := fields.completedAt.getD r.completedAt }

/-- The rows `updateRun` is guarded on. -/
def updatable (id : Id) (r : AutomationRunRow) : Bool :=
  r.id = id && r.status.launching

def updateRun (id : Id) (fields : RunFields) : AutomationDb :=
  db.updateRuns (updatable id) fields.apply

/-- The rows `claimRunSession` is guarded on. -/
def claimable (id : Id) (r : AutomationRunRow) : Bool :=
  r.id = id && r.status = .starting

def claimRunSession (id sessionId : Id) (startedAt executionDeadlineAt : Millis) : AutomationDb :=
  db.updateRuns (claimable id) fun r =>
    { r with
      status := .running
      sessionId := some sessionId
      startedAt := some startedAt
      executionDeadlineAt := some executionDeadlineAt
      firstPromptPending := true }

def markRunFirstPromptQueued (id : Id) : AutomationDb :=
  db.updateRuns (fun r => r.id = id) fun r => { r with firstPromptPending := false }

def setRunExecutionDeadline (id : Id) (executionDeadlineAt : Millis) : AutomationDb :=
  db.updateRuns (fun r => r.id = id && r.status = .running)
    fun r => { r with executionDeadlineAt := some executionDeadlineAt }

/-- The rows `completeTimedOutRun` is guarded on. -/
def timedOut (id : Id) (r : AutomationRunRow) : Bool :=
  r.id = id && r.status = .failed && r.failureReason = some executionTimeoutFailureReason

def completeTimedOutRun (id : Id) (completedAt : Millis) : AutomationDb :=
  db.updateRuns (timedOut id) fun r =>
    { r with status := .completed, failureReason := none, completedAt := some completedAt }

/-- `ORPHANED_STARTING_RUN_PREDICATE`. -/
def orphanedStartingRun (createdBefore : Millis) (r : AutomationRunRow) : Bool :=
  r.status = .starting && r.createdAt < createdBefore

/-- `RUN_PAST_EXECUTION_DEADLINE_PREDICATE`. -/
def runPastExecutionDeadline (now defaultDeadlineMs : Millis) (r : AutomationRunRow) : Bool :=
  r.status = .running &&
    match r.executionDeadlineAt with
    | some deadline => deadline < now
    | none => r.startedAt.any (· < now - defaultDeadlineMs)

def bulkFailRuns (runIds : List Id) (reason : String) (completedAt : Millis)
    (predicate : AutomationRunRow → Bool) : AutomationDb :=
  db.updateRuns (fun r => r.id ∈ runIds && predicate r) fun r =>
    { r with status := .failed, failureReason := some reason, completedAt := some completedAt }

def bulkFailStartingRuns (runIds : List Id) (reason : String)
    (completedAt createdBefore : Millis) : AutomationDb :=
  db.bulkFailRuns runIds reason completedAt (orphanedStartingRun createdBefore)

def bulkFailRunningRuns (runIds : List Id) (reason : String)
    (completedAt defaultDeadlineMs : Millis) : AutomationDb :=
  db.bulkFailRuns runIds reason completedAt (runPastExecutionDeadline completedAt defaultDeadlineMs)

/-- The rows that the first statement of `failLaunchOrRetry` puts back to wait. -/
def retryable (id : Id) (r : AutomationRunRow) : Bool :=
  updatable id r && db.retryAllowed r

/-- The batch of `failLaunchOrRetry`: wait for another attempt, or else fail. -/
def failLaunchOrRetry (id : Id) (reason : String) (failedAt retryAt : Millis) : AutomationDb :=
  (db.updateRuns (db.retryable id) fun r =>
      { r with
        status := .retrying
        failureReason := some reason
        retryAt := some retryAt
        sessionId := none
        startedAt := none
        executionDeadlineAt := none
        firstPromptPending := false }).updateRuns
    (updatable id) fun r =>
      { r with status := .failed, failureReason := some reason, completedAt := some failedAt }

def getRetriesToSettle (now : Millis) : List AutomationRunRow :=
  db.runs.rows.filter fun r =>
    r.status = .retrying && (r.retryAt.any (· ≤ now) || !db.retryAllowed r)

/-- The rows `claimRetry` is guarded on; `attempt` is the one of the copy read. -/
def relaunchable (id : Id) (attempt : Nat) (now : Millis) (grants : Option TeamGrantsVersion)
    (r : AutomationRunRow) : Bool :=
  r.id = id && r.status = .retrying && r.attempt = attempt && r.retryAt.any (· ≤ now) &&
    db.retryAllowed r && db.teamGrantsGuard grants

def claimRetry (id : Id) (attempt : Nat) (now : Millis)
    (grants : Option TeamGrantsVersion) : AutomationDb :=
  db.updateRuns (db.relaunchable id attempt now grants) fun r =>
    { r with
      status := .starting
      attempt := r.attempt + 1
      retryAt := none
      failureReason := none
      createdAt := now }

/-- The rows `failWithdrawnRetry` is guarded on. -/
def withdrawn (id : Id) (r : AutomationRunRow) : Bool :=
  r.id = id && r.status = .retrying && !db.retryAllowed r

def failWithdrawnRetry (id : Id) (completedAt : Millis) : AutomationDb :=
  db.updateRuns (db.withdrawn id) fun r =>
    { r with status := .failed, retryAt := none, completedAt := some completedAt }

/-! ## Firings -/

/-- `DEFAULT_AUTOMATION_MAX_CONCURRENT_RUNS`. -/
def defaultAutomationMaxConcurrentRuns : Nat := 1

/-- The invocations of an automation with at least one active run. -/
def activeInvocations (automationId : Id) : List Id :=
  ((db.runs.rows.filter fun r => r.automationId = automationId && r.status.active).map
    AutomationRunRow.invocationId).dedup

def countActiveInvocations (automationId : Id) : Nat :=
  (db.activeInvocations automationId).length

/-- The bound read from the row: a value that is not at least one is the default. -/
def storedConcurrencyLimit (automationId : Id) : Int :=
  (((db.automations.get? automationId).filter fun a => 1 ≤ a.maxConcurrentRuns).map
    AutomationRow.maxConcurrentRuns).getD defaultAutomationMaxConcurrentRuns

/-- What a firing is held back by: the automation, or its event's concurrency key. -/
inductive InvocationOverlapScope where
  | automation
  | concurrencyKey (key : String)
  deriving DecidableEq, Repr

/-- An active run of the automation whose invocation has this concurrency key. -/
def activeForKey (automationId : Id) (key : String) (r : AutomationRunRow) : Bool :=
  r.automationId = automationId && r.status.active &&
    (db.invocations.table.get? r.invocationId).any fun i => i.concurrencyKey = some key

/-- `overlapPredicate`: the firings that must be blocked. -/
def overlapPredicate (automationId : Id) : InvocationOverlapScope → Bool
  | .concurrencyKey key => db.matchesRun (db.activeForKey automationId key)
  | .automation =>
    db.storedConcurrencyLimit automationId ≤ (db.countActiveInvocations automationId : Int)

def getActiveRunForKey (automationId : Id) (key : String) : Option AutomationRunRow :=
  db.runs.last (db.activeForKey automationId key) AutomationRunRow.createdAt

def scheduledInvocationGuard (i : AutomationInvocationRow) : Bool :=
  i.source ≠ .schedule ||
    (db.getById i.automationId).any fun a =>
      a.scheduleOnceAt.isNone ||
        (a.enabled && a.nextRunAt.isSome && a.nextRunAt = i.scheduledAt &&
          a.scheduleOnceAt = a.nextRunAt)

/-- A cron slot handover: from the slot a firing claimed to its successor. -/
structure ScheduleAdvance where
  fromSlot : Millis
  nextRunAt : Option Millis
  deriving DecidableEq, Repr

/-- The rows `bindScheduleAdvance` is guarded on. -/
def ownsSlot (i : AutomationInvocationRow) (fromSlot : Millis)
    (grants : Option TeamGrantsVersion) (a : AutomationRow) : Bool :=
  a.id = i.automationId && a.deletedAt.isNone && a.nextRunAt = some fromSlot &&
    db.teamGrantsGuard grants &&
    (a.scheduleOnceAt.isNone || (db.invocations.table.get? i.id).isSome)

def bindScheduleAdvance (i : AutomationInvocationRow) (advance : ScheduleAdvance)
    (grants : Option TeamGrantsVersion) : AutomationDb :=
  db.updateAutomations (db.ownsSlot i advance.fromSlot grants) fun a =>
    { a with
      nextRunAt := advance.nextRunAt
      enabled :=
        if a.scheduleOnceAt.isSome &&
            !db.matchesRun (fun r => r.invocationId = i.id && r.status.active) then false
        else a.enabled }

/-- How a batch ended; a `UNIQUE` violation rolls all of it back. -/
inductive BatchResult where
  | committed (inserted : Bool) (db : AutomationDb)
  | duplicateKey
  | failed

structure GuardedInsert where
  invocation : AutomationInvocationRow
  children : List AutomationRunRow
  overlapScope : InvocationOverlapScope
  advanceSchedule : Option ScheduleAdvance
  teamGrantsVersion : Option TeamGrantsVersion
  deriving DecidableEq, Repr

/-- Whether the insert of the invocation selects its row. -/
def admits (p : GuardedInsert) : Bool :=
  !db.overlapPredicate p.invocation.automationId p.overlapScope &&
    db.teamGrantsGuard p.teamGrantsVersion && db.scheduledInvocationGuard p.invocation

/-- The inserts of the children, each only while its invocation exists. -/
def insertChildren (d : AutomationDb) (invocationId : Id) :
    List AutomationRunRow → Option AutomationDb
  | [] => some d
  | child :: children =>
    if (d.invocations.table.get? invocationId).isSome then
      (d.runs.insert? { child with invocationId }).bind fun runs =>
        insertChildren { d with runs } invocationId children
    else insertChildren d invocationId children

/-- The last statement of a firing's batch, when it serves a slot. -/
def advanceSchedule (i : AutomationInvocationRow) (advance : Option ScheduleAdvance)
    (grants : Option TeamGrantsVersion) : AutomationDb :=
  match advance with
  | none => db
  | some advance => db.bindScheduleAdvance i advance grants

def insertInvocationGuarded (p : GuardedInsert) : BatchResult :=
  let admitted := db.admits p
  match if admitted then db.invocations.insert? p.invocation else some db.invocations with
  | none => .duplicateKey
  | some invocations =>
    match { db with invocations }.insertChildren p.invocation.id p.children with
    | none => .failed
    | some db' =>
      .committed admitted (db'.advanceSchedule p.invocation p.advanceSchedule p.teamGrantsVersion)

/-- `bindChildlessInvocation`: the conflict-tolerant insert of a skip or a denial. -/
def insertChildless (i : AutomationInvocationRow) : Bool × AutomationDb :=
  if db.scheduledInvocationGuard i then
    match db.invocations.insert? i with
    | some invocations => (true, { db with invocations })
    | none => (false, db)
  else (false, db)

def insertSkippedInvocation (i : AutomationInvocationRow)
    (advance : Option ScheduleAdvance) : Bool × AutomationDb :=
  let (inserted, db') := db.insertChildless i
  (inserted, db'.advanceSchedule i advance none)

def recordAuthorizationDenied (i : AutomationInvocationRow) (fromSlot : Millis) : AutomationDb :=
  (db.insertChildless i).2.updateAutomations
    (fun a => a.id = i.automationId && a.deletedAt.isNone && a.enabled &&
      a.nextRunAt = some fromSlot &&
      (a.scheduleOnceAt.isNone || a.scheduleOnceAt = a.nextRunAt))
    fun a => { a with enabled := false, nextRunAt := none }

/-! ## Trigger keys and follow-up receipts -/

/-- The invocation that admitted an event or accepted its webhook follow-up. -/
def getInvocationIdByTriggerKey (automationId : Id) (triggerKey : String) : Option Id :=
  match db.invocations.table.find? fun i =>
      i.automationId = automationId && i.triggerKey = some triggerKey with
  | some i => some i.id
  | none =>
    (db.receipts.get? (automationId, triggerKey)).bind fun r =>
      match r.receipt with
      | .accepted invocationId _ => some invocationId
      | .claimed .. => none

/-- The first statement of `claimFollowUpReceipt`; `none` when the key has a receipt. -/
def insertFollowUpClaim (automationId : Id) (triggerKey : String)
    (claimId claimInvocationId : Id) (expiresAt : Millis) : Option AutomationDb :=
  (db.receipts.insert?
      ⟨automationId, triggerKey, .claimed claimId claimInvocationId expiresAt⟩).map
    fun receipts => { db with receipts }

/-- The second statement of `claimFollowUpReceipt`: take over an expired claim. -/
def reclaimFollowUp (automationId : Id) (triggerKey : String)
    (claimId claimInvocationId : Id) (expiresAt now : Millis) : AutomationDb :=
  { db with
    receipts :=
      db.receipts.update
        (fun r => r.key = (automationId, triggerKey) &&
          match r.receipt with
          | .claimed _ _ claimExpiresAt => claimExpiresAt ≤ now
          | .accepted .. => false)
        fun r => { r with receipt := .claimed claimId claimInvocationId expiresAt } }

def acceptFollowUpReceipt (automationId : Id) (triggerKey : String)
    (claimId invocationId : Id) (acceptedAt : Millis) : AutomationDb :=
  { db with
    receipts :=
      db.receipts.update
        (fun r => r.key = (automationId, triggerKey) &&
          match r.receipt with
          | .claimed claim _ _ => claim = claimId
          | .accepted .. => false)
        fun r => { r with receipt := .accepted invocationId acceptedAt } }

def releaseFollowUpReceipt (automationId : Id) (triggerKey : String) (claimId : Id) :
    AutomationDb :=
  { db with
    receipts :=
      db.receipts.delete fun r => r.key = (automationId, triggerKey) &&
        match r.receipt with
        | .claimed claim _ _ => claim = claimId
        | .accepted .. => false }

/-! ## Failure accounting -/

/-- The runs of one invocation. -/
def children (invocationId : Id) : List AutomationRunRow :=
  db.runs.rows.filter fun r => r.invocationId = invocationId

structure InvocationRunAggregate where
  total : Nat
  active : Nat
  retrying : Nat
  failed : Nat
  completed : Nat
  deriving DecidableEq, Repr

def getInvocationRunAggregate (invocationId : Id) : InvocationRunAggregate :=
  let runs := db.children invocationId
  { total := runs.length
    active := runs.countP fun r => r.status.active
    retrying := runs.countP fun r => r.status = .retrying
    failed := runs.countP fun r => r.status = .failed
    completed := runs.countP fun r => r.status = .completed }

/-- Whether `tryMarkInvocationFailureCounted` wins the compare-and-set. -/
def failureUncounted (invocationId : Id) : Bool :=
  (db.invocations.table.get? invocationId).any fun i => i.failureCountedAt.isNone

def tryMarkInvocationFailureCounted (invocationId : Id) (now : Millis) : AutomationDb :=
  { db with invocations := db.invocations.countFailure invocationId now }

/-- An invocation `getUncountedFailedInvocations` selects. -/
def uncountedFailed (sinceMs : Millis) (i : AutomationInvocationRow) : Bool :=
  sinceMs ≤ i.createdAt && i.skipReason.isNone && i.failureCountedAt.isNone &&
    (db.children i.id).any (fun r => r.status = .failed) &&
    !(db.children i.id).any fun r => r.status.active

/-- The oldest first. -/
def getUncountedFailedInvocations (sinceMs : Millis) (limit : Nat) :
    List AutomationInvocationRow :=
  ((db.invocations.table.rows.filter (db.uncountedFailed sinceMs)).insertionSort
    fun i j => i.createdAt ≤ j.createdAt).take limit

/-- An invocation with a run whose outcome counts. -/
def accountingRelevant (automationId : Id) (sinceMs : Millis)
    (i : AutomationInvocationRow) : Bool :=
  i.automationId = automationId && i.skipReason.isNone && sinceMs ≤ i.createdAt &&
    (db.children i.id).any fun r =>
      r.status.active || r.status = .completed || r.status = .failed

/-- A failing automation: the rows whose latest outcome may be a missed reset. -/
def failing (a : AutomationRow) : Bool :=
  0 < a.consecutiveFailures && a.deletedAt.isNone

/-- The failing automations, each with its latest accounting-relevant invocation. -/
def getStaleFailureResetCandidates (sinceMs : Millis) (limit : Nat) : List (Id × Id) :=
  ((db.automations.rows.filter failing).take limit).filterMap fun a =>
    (db.invocations.table.last (db.accountingRelevant a.id sinceMs)
      AutomationInvocationRow.createdAt).map fun i => (a.id, i.id)

end AutomationDb

end BackgroundAgents.Automation

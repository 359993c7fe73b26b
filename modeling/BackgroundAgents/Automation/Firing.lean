import BackgroundAgents.Automation.Store
import BackgroundAgents.Lib.Transition

/-!
# Firings

`AutomationInvocationService.start`, the single pipeline of ticks, manual
triggers and events, with the part of `Scheduler.tick` that records a denial.

A `Firing` is one call in flight. Its `FiringPc` is the await it is suspended
at, and `Firing.step` resumes it with a `FiringAnswer`: the statement it waits
for runs on the store at that moment, and the code after it runs up to the next
await. Identity lookups, authorization, repository and target resolution and the
identifiers of `generateId` are answers from outside.

`firings` is the whole system: callers begin firings at any time
(`Caller`), each resumes whenever it likes, and any other statement of the store
(`StoreStatement`) may run in between. A firing that dies is one that is never
resumed again. Generated identifiers are new, which is all that is asked of
`generateId`.
-/

namespace BackgroundAgents.Automation

open AutomationDb
open BackgroundAgents.Transition

/-! ## The call -/

/-- What a caller hands to `start`. -/
structure StartInvocationParams where
  automation : AutomationRow
  source : AutomationInvocationSource
  /-- The requester's authority for a manual firing. -/
  executionPrincipal : Bool := false
  invocationId : Option Id := none
  scheduledAt : Option Millis := none
  advanceToNextRunAt : Option (Option Millis) := none
  triggerKey : Option String := none
  webhookFollowUpClaimId : Option Id := none
  concurrencyKey : Option String := none
  deriving DecidableEq, Repr

inductive StartOutcome where
  | started (invocationId : Id)
  | deduplicated (invocationId : Option Id)
  | blocked (reason : String)
  | skipped (invocationId : Option Id)
  | unauthorized (reason : Option String)
  /-- The batch failed with an error that is not a duplicate key. -/
  | threw
  deriving DecidableEq, Repr

/-- The await a firing is suspended at. -/
inductive FiringPc where
  | resolvingOwner
  | rereadingOwner
  /-- The lookup of the trigger key before the overlap check. -/
  | findingOwner
  | checkingOverlap
  /-- Selection, authorization, repositories, team targets and provider routing. -/
  | preparing
  | inserting
  /-- `advanceNextRunAt`, after a duplicate key. -/
  | recovering (nextRunAt : Millis)
  /-- The lookup of the trigger key after a duplicate key. -/
  | findingColliding
  | checkingGrants (grants : TeamGrantsVersion)
  /-- The lookup of the trigger key in `recordSkip`. -/
  | findingSkipOwner (reason : String) (advance : Option ScheduleAdvance)
  | skipping (reason : String) (advance : Option ScheduleAdvance)
  | accepting (invocationId : Id)
  | denying (reason : Option String)
  | done (outcome : StartOutcome)
  deriving DecidableEq, Repr

/-- One call in flight: `automation` is the row as `resolveCanonicalOwner` left it,
`prepared` what the guarded insert was called with. -/
structure Firing where
  params : StartInvocationParams
  automation : AutomationRow
  now : Millis := 0
  prepared : Option GuardedInsert := none
  pc : FiringPc
  deriving DecidableEq, Repr

/-- What resumes a firing. -/
inductive FiringAnswer where
  /-- The statement awaited ran. -/
  | stored (now : Millis)
  /-- The user behind a legacy creator. -/
  | identity (userId : Option Id) (now : Millis)
  | denied (reason : Option String)
  /-- The targets, as children with their resolution errors, and the grants they were checked on. -/
  | prepared (generatedId : Id) (children : List (Id × Option String))
      (grants : Option TeamGrantsVersion)
  /-- A new identifier for the row that records a skip or a denial. -/
  | generated (id : Id) (now : Millis)
  deriving DecidableEq, Repr

/-- The identifiers an answer takes from `generateId`. -/
def FiringAnswer.ids : FiringAnswer → List Id
  | .prepared id children _ => id :: children.map Prod.fst
  | .generated id _ => [id]
  | _ => []

/-- A legacy row: its creator may now map to a user. -/
def needsCanonicalOwner (a : AutomationRow) : Bool :=
  a.userId.isNone && a.createdBy ≠ "" && a.createdBy ≠ "anonymous"

/-- The automation's concurrency bound, on the copy the firing was read with. -/
def automationConcurrencyLimit (a : AutomationRow) : Int :=
  if 1 ≤ a.maxConcurrentRuns then a.maxConcurrentRuns else defaultAutomationMaxConcurrentRuns

namespace Firing

/-- Schedule and manual firings hold the automation; an event with a key holds its key. -/
def overlapScope (f : Firing) : InvocationOverlapScope :=
  match f.params.source, f.params.concurrencyKey with
  | .event, some key => .concurrencyKey key
  | _, _ => .automation

/-- The slot and successor a schedule firing hands over. -/
def advance (f : Firing) : Option ScheduleAdvance :=
  match f.params.source, f.params.scheduledAt, f.params.advanceToNextRunAt with
  | .schedule, some fromSlot, some nextRunAt => some ⟨fromSlot, nextRunAt⟩
  | _, _, _ => none

/-- The outcome of `start`; the tick records a denial before it moves on. -/
def finish (f : Firing) : StartOutcome → FiringPc
  | .unauthorized reason =>
    match f.params.source with
    | .schedule => .denying reason
    | _ => .done (.unauthorized reason)
  | outcome => .done outcome

/-- `recordSkip`. -/
def recordSkip (f : Firing) (reason : String) (advance : Option ScheduleAdvance) : FiringPc :=
  match f.params.triggerKey with
  | some key => if key ≠ "" then .findingSkipOwner reason advance else .skipping reason advance
  | none => .skipping reason advance

/-- `recordOverlapSkip`. -/
def recordOverlapSkip (f : Firing) (advanceSchedule : Bool) : FiringPc :=
  match f.params.source with
  | .manual => .done (.blocked "concurrent_run_active")
  | _ => f.recordSkip "concurrent_run_active" (if advanceSchedule then f.advance else none)

/-- The code after `resolveCanonicalOwner`. -/
def withOwner (f : Firing) (automation : AutomationRow) : Firing :=
  { f with
    automation
    pc :=
      if !f.params.executionPrincipal && automation.userId.isNone then f.finish (.unauthorized none)
      else if f.params.triggerKey.isSome then .findingOwner
      else .checkingOverlap }

/-- The cheap pre-check, against the copy of the row the firing was read with. -/
def blocked (db : AutomationDb) (f : Firing) : Bool :=
  match f.overlapScope with
  | .concurrencyKey key => (db.getActiveRunForKey f.automation.id key).isSome
  | .automation =>
    automationConcurrencyLimit f.automation ≤ (db.countActiveInvocations f.automation.id : Int)

/-- One child per target; a failed resolution pre-fails its child. -/
def child (f : Firing) (invocationId : Id) (target : Id × Option String) : AutomationRunRow where
  id := target.1
  automationId := f.automation.id
  invocationId := invocationId
  status := if target.2.isSome then .failed else .starting
  failureReason := target.2
  scheduledAt := f.params.scheduledAt.getD f.now
  completedAt := if target.2.isSome then some f.now else none
  createdAt := f.now

/-- What the guarded insert is called with. -/
def guardedInsert (f : Firing) (generatedId : Id) (children : List (Id × Option String))
    (grants : Option TeamGrantsVersion) : GuardedInsert :=
  let invocationId := f.params.invocationId.getD generatedId
  { invocation :=
      { id := invocationId
        automationId := f.automation.id
        source := f.params.source
        scheduledAt := f.params.scheduledAt
        triggerKey := f.params.triggerKey
        concurrencyKey := f.params.concurrencyKey
        createdAt := f.now }
    children := children.map (f.child invocationId)
    overlapScope := f.overlapScope
    advanceSchedule := f.advance
    teamGrantsVersion := grants }

/-- A skip never stores the event's trigger key. -/
def skippedInvocation (f : Firing) (id : Id) (reason : String) (now : Millis) :
    AutomationInvocationRow where
  id := id
  automationId := f.params.automation.id
  source := f.params.source
  scheduledAt := f.params.scheduledAt
  concurrencyKey := f.params.concurrencyKey
  skipReason := some reason
  createdAt := now

/-- The invocation by which the tick records a denial. -/
def deniedInvocation (f : Firing) (id : Id) (reason : Option String) (now : Millis) :
    AutomationInvocationRow where
  id := id
  automationId := f.params.automation.id
  source := .schedule
  scheduledAt := f.params.scheduledAt
  skipReason := some (reason.getD "execution_authorization_denied")
  createdAt := now

/-- The colliding firing owns the slot or the event: look its invocation up. -/
def standDown (f : Firing) : FiringPc :=
  if f.params.triggerKey.isSome then .findingColliding else .done (.deduplicated none)

/-- The code after a batch that met a duplicate key. -/
def duplicateKey (f : Firing) : FiringPc :=
  match f.params.source, f.params.advanceToNextRunAt with
  | .schedule, some (some nextRunAt) => .recovering nextRunAt
  | _, _ => f.standDown

/-- The code after a batch that admitted the firing, up to the launches. -/
def admitted (f : Firing) (invocationId : Id) : FiringPc :=
  if f.params.webhookFollowUpClaimId.isSome && f.params.triggerKey.any (· ≠ "") then
    .accepting invocationId
  else .done (.started invocationId)

/-- The code after a batch that did not insert the invocation. -/
def refused (f : Firing) (grants : Option TeamGrantsVersion) : FiringPc :=
  match grants with
  | some g => .checkingGrants g
  | none => f.recordOverlapSkip f.automation.scheduleOnceAt.isSome

/-- Resume a firing; `none` when the answer is not one to its await. -/
def step (db : AutomationDb) (f : Firing) (answer : FiringAnswer) :
    Option (AutomationDb × Firing) :=
  match f.pc, answer with
  | .resolvingOwner, .identity userId now =>
    let f := { f with now }
    match needsCanonicalOwner f.automation, userId with
    | true, some userId =>
      let db' := db.repairOwner f.automation.id userId
      if (db.automations.get? f.automation.id).any fun a => a.userId.isNone then
        some (db', f.withOwner { f.automation with userId := some userId })
      else some (db', { f with pc := .rereadingOwner })
    | _, _ => some (db, f.withOwner f.automation)
  | .rereadingOwner, .stored now =>
    some (db, { f with now }.withOwner ((db.getById f.automation.id).getD f.automation))
  | .findingOwner, .stored _ =>
    match db.getInvocationIdByTriggerKey f.automation.id (f.params.triggerKey.getD "") with
    | some owner => some (db, { f with pc := .done (.deduplicated (some owner)) })
    | none => some (db, { f with pc := .checkingOverlap })
  | .checkingOverlap, .stored _ =>
    if f.blocked db then some (db, { f with pc := f.recordOverlapSkip true })
    else some (db, { f with pc := .preparing })
  | .preparing, .denied reason => some (db, { f with pc := f.finish (.unauthorized reason) })
  | .preparing, .prepared generatedId children grants =>
    -- a firing has at least one child, and team targets pin their team's grants
    if children ≠ [] ∧ grants.map TeamGrantsVersion.teamId = f.automation.ownerTeamId then
      some (db,
        { f with
          prepared := some (f.guardedInsert generatedId children grants)
          pc := .inserting })
    else none
  | .inserting, .stored _ =>
    f.prepared.map fun p =>
      match db.insertInvocationGuarded p with
      | .duplicateKey => (db, { f with pc := f.duplicateKey })
      | .failed => (db, { f with pc := .done .threw })
      | .committed true db' => (db', { f with pc := f.admitted p.invocation.id })
      | .committed false db' => (db', { f with pc := f.refused p.teamGrantsVersion })
  | .recovering nextRunAt, .stored _ =>
    some (db.advanceNextRunAt f.automation.id nextRunAt, { f with pc := f.standDown })
  | .findingColliding, .stored _ =>
    let owner := db.getInvocationIdByTriggerKey f.automation.id (f.params.triggerKey.getD "")
    some (db, { f with pc := .done (.deduplicated owner) })
  | .checkingGrants grants, .stored _ =>
    if (db.teams.get? grants.teamId).map TeamRow.grantsVersion = some grants.version then
      some (db, { f with pc := f.recordOverlapSkip f.automation.scheduleOnceAt.isSome })
    else some (db, { f with pc := .done (.blocked "team_grants_changed") })
  | .findingSkipOwner reason advance, .stored _ =>
    match db.getInvocationIdByTriggerKey f.params.automation.id
        (f.params.triggerKey.getD "") with
    | some owner => some (db, { f with pc := .done (.deduplicated (some owner)) })
    | none => some (db, { f with pc := .skipping reason advance })
  | .skipping reason advance, .generated id now =>
    let (inserted, db') :=
      db.insertSkippedInvocation (f.skippedInvocation id reason now) advance
    some (db', { f with pc := .done (.skipped (if inserted then some id else none)) })
  | .accepting invocationId, .stored now =>
    match f.params.webhookFollowUpClaimId, f.params.triggerKey with
    | some claimId, some key =>
      some (db.acceptFollowUpReceipt f.automation.id key claimId invocationId now,
        { f with pc := .done (.started invocationId) })
    | _, _ => none
  | .denying reason, .generated id now =>
    f.params.scheduledAt.map fun slot =>
      (db.recordAuthorizationDenied (f.deniedInvocation id reason now) slot,
        { f with pc := .done (.unauthorized reason) })
  | _, _ => none

end Firing

/-! ## The rest of the store's statements -/

/-- How a run ends, other than by a sweep. -/
inductive RunOutcome where
  | completed
  | failed (reason : String)
  | unauthorized (reason : String)
  deriving DecidableEq, Repr

/-- The fields `updateRun` is called with, by `runComplete` and by `recordFailure`. -/
def RunOutcome.fields (completedAt : Millis) : RunOutcome → RunFields
  | .completed => { status := some .completed, completedAt := some (some completedAt) }
  | .failed reason =>
    { status := some .failed, failureReason := some (some reason)
      completedAt := some (some completedAt) }
  | .unauthorized reason =>
    { status := some .unauthorized, failureReason := some (some reason), sessionId := some none
      completedAt := some (some completedAt) }

/-- The statements on `automation_runs` other than a firing's inserts. -/
inductive RunStatement where
  | updateRun (id : Id) (outcome : RunOutcome) (completedAt : Millis)
  | claimRunSession (id sessionId : Id) (startedAt executionDeadlineAt : Millis)
  | markRunFirstPromptQueued (id : Id)
  | setRunExecutionDeadline (id : Id) (executionDeadlineAt : Millis)
  | completeTimedOutRun (id : Id) (completedAt : Millis)
  | bulkFailStartingRuns (runIds : List Id) (reason : String) (completedAt createdBefore : Millis)
  | bulkFailRunningRuns (runIds : List Id) (reason : String)
      (completedAt defaultDeadlineMs : Millis)
  | failLaunchOrRetry (id : Id) (reason : String) (failedAt retryAt : Millis)
  | claimRetry (id : Id) (attempt : Nat) (now : Millis) (grants : Option TeamGrantsVersion)
  | failWithdrawnRetry (id : Id) (completedAt : Millis)
  deriving DecidableEq, Repr

def RunStatement.exec (db : AutomationDb) : RunStatement → AutomationDb
  | .updateRun id outcome completedAt => db.updateRun id (outcome.fields completedAt)
  | .claimRunSession id session startedAt deadline => db.claimRunSession id session startedAt deadline
  | .markRunFirstPromptQueued id => db.markRunFirstPromptQueued id
  | .setRunExecutionDeadline id deadline => db.setRunExecutionDeadline id deadline
  | .completeTimedOutRun id completedAt => db.completeTimedOutRun id completedAt
  | .bulkFailStartingRuns ids reason completedAt before =>
    db.bulkFailStartingRuns ids reason completedAt before
  | .bulkFailRunningRuns ids reason completedAt default =>
    db.bulkFailRunningRuns ids reason completedAt default
  | .failLaunchOrRetry id reason failedAt retryAt => db.failLaunchOrRetry id reason failedAt retryAt
  | .claimRetry id attempt now grants => db.claimRetry id attempt now grants
  | .failWithdrawnRetry id completedAt => db.failWithdrawnRetry id completedAt

/-- The statements by which an operator, or the failure policy, moves a schedule. -/
inductive ScheduleEdit where
  | pause (id : Id)
  | autoPause (id : Id)
  | softDelete (id : Id) (now : Millis)
  | resume (id : Id) (nextRunAt : Option Millis)
  | updateAutomation (id : Id) (fields : AutomationFields)
  deriving DecidableEq, Repr

def ScheduleEdit.exec (db : AutomationDb) : ScheduleEdit → AutomationDb
  | .pause id => db.pause id
  | .autoPause id => db.autoPause id
  | .softDelete id now => db.softDelete id now
  | .resume id nextRunAt => db.resume id nextRunAt
  | .updateAutomation id fields => db.updateAutomation id fields

/-- The remaining statements: accounting, finalization, ownership, receipts and grants. -/
inductive LedgerStatement where
  | incrementConsecutiveFailures (id : Id)
  | resetConsecutiveFailures (id : Id)
  | disableSettledOneShots (id : Option Id)
  | tryMarkInvocationFailureCounted (invocationId : Id) (now : Millis)
  | changeExecutor (id userId : Id)
  | insertFollowUpClaim (id : Id) (triggerKey : String) (claimId claimInvocationId : Id)
      (expiresAt : Millis)
  | reclaimFollowUp (id : Id) (triggerKey : String) (claimId claimInvocationId : Id)
      (expiresAt now : Millis)
  | acceptFollowUpReceipt (id : Id) (triggerKey : String) (claimId invocationId : Id)
      (acceptedAt : Millis)
  | releaseFollowUpReceipt (id : Id) (triggerKey : String) (claimId : Id)
  | bumpGrantsVersion (teamId : Id)
  deriving DecidableEq, Repr

def LedgerStatement.exec (db : AutomationDb) : LedgerStatement → AutomationDb
  | .incrementConsecutiveFailures id => db.incrementConsecutiveFailures id
  | .resetConsecutiveFailures id => db.resetConsecutiveFailures id
  | .disableSettledOneShots id => db.disableSettledOneShots id
  | .tryMarkInvocationFailureCounted id now => db.tryMarkInvocationFailureCounted id now
  | .changeExecutor id userId => db.changeExecutor id userId
  | .insertFollowUpClaim id key claim invocation expiresAt =>
    (db.insertFollowUpClaim id key claim invocation expiresAt).getD db
  | .reclaimFollowUp id key claim invocation expiresAt now =>
    db.reclaimFollowUp id key claim invocation expiresAt now
  | .acceptFollowUpReceipt id key claim invocation acceptedAt =>
    db.acceptFollowUpReceipt id key claim invocation acceptedAt
  | .releaseFollowUpReceipt id key claim => db.releaseFollowUpReceipt id key claim
  | .bumpGrantsVersion team =>
    { db with
      teams :=
        db.teams.update (fun t => t.id = team)
          fun t => { t with grantsVersion := t.grantsVersion + 1 } }

/-- Any statement of the store that no firing issues. -/
inductive StoreStatement where
  | run (statement : RunStatement)
  | edit (statement : ScheduleEdit)
  | ledger (statement : LedgerStatement)
  deriving DecidableEq, Repr

def StoreStatement.exec (db : AutomationDb) : StoreStatement → AutomationDb
  | .run st => st.exec db
  | .edit st => st.exec db
  | .ledger st => st.exec db

/-! ## The system -/

/-- Who begins a firing, with the automation it reads. -/
inductive Caller where
  /-- `Scheduler.tick`, for an overdue row; `successor` is the next cron occurrence. -/
  | tick (automationId : Id) (now successor : Millis)
  | trigger (automationId : Id)
  /-- An inbound event; a webhook brings its receipt claim and its invocation's identifier. -/
  | event (automationId : Id) (triggerKey : String) (concurrencyKey : Option String)
      (claim : Option (Id × Id))
  /-- `skipEvent`: an event refused before admission. -/
  | skipEvent (automationId : Id) (triggerKey : String) (concurrencyKey : Option String)
      (reason : String)
  deriving DecidableEq, Repr

/-- The identifiers a caller takes from `generateId`. -/
def Caller.ids : Caller → List Id
  | .event _ _ _ (some (claimId, invocationId)) => [claimId, invocationId]
  | _ => []

/-- The call an event handler makes for a candidate. -/
def Firing.ofEvent (automation : AutomationRow) (triggerKey : String)
    (concurrencyKey : Option String) (claim : Option (Id × Id)) : Firing where
  params :=
    { automation
      source := .event
      triggerKey := some triggerKey
      concurrencyKey
      webhookFollowUpClaimId := claim.map Prod.fst
      invocationId := claim.map Prod.snd }
  automation := automation
  pc := .resolvingOwner

/-- The firing a caller begins, from the row it reads. An event has a non-empty
trigger key, or its schema refuses it. -/
def Caller.begin (db : AutomationDb) : Caller → Option Firing
  | .tick automationId now successor =>
    ((db.getOverdueAutomations now).find? fun a => a.id = automationId).map fun automation =>
      { params :=
          { automation
            source := .schedule
            scheduledAt := automation.nextRunAt
            advanceToNextRunAt :=
              some (if automation.scheduleOnceAt.isSome then none else some successor) }
        automation
        pc := .resolvingOwner }
  | .trigger automationId =>
    (db.getById automationId).map fun automation =>
      { params := { automation, source := .manual, executionPrincipal := true }
        automation
        pc := .resolvingOwner }
  | .event automationId triggerKey concurrencyKey claim =>
    ((db.getById automationId).filter fun a => a.enabled && triggerKey ≠ "").map fun automation =>
      Firing.ofEvent automation triggerKey concurrencyKey claim
  | .skipEvent automationId triggerKey concurrencyKey reason =>
    ((db.getById automationId).filter fun a => a.enabled && triggerKey ≠ "").map fun automation =>
      let f := Firing.ofEvent automation triggerKey concurrencyKey none
      { f with pc := f.recordSkip reason none }

/-- The store, the firings in flight and the identifiers generated so far. -/
structure FiringState where
  db : AutomationDb
  firings : List Firing
  issued : List Id

inductive FiringAct where
  | begin (caller : Caller)
  | resume (firing : Nat) (answer : FiringAnswer)
  | other (statement : StoreStatement)
  deriving DecidableEq, Repr

/-- `generateId` never returns the same identifier twice. -/
def FiringState.fresh (s : FiringState) (ids : List Id) : Bool :=
  ids.Nodup && ids.all (· ∉ s.issued)

def firingStep (s : FiringState) : FiringAct → Option FiringState
  | .begin caller =>
    if s.fresh caller.ids then
      (caller.begin s.db).map fun f =>
        { s with firings := s.firings ++ [f], issued := caller.ids ++ s.issued }
    else none
  | .resume i answer =>
    if s.fresh answer.ids then
      s.firings[i]?.bind fun f =>
        (f.step s.db answer).map fun (db, f) =>
          { db, firings := s.firings.set i f, issued := answer.ids ++ s.issued }
    else none
  | .other statement => some { s with db := statement.exec s.db }

/-- The system of firings over a store that everything else writes to as well. -/
def firings : System FiringState FiringAct where
  step := firingStep

/-- Nothing is in flight. -/
def FiringState.initial (db : AutomationDb) : FiringState where
  db := db
  firings := []
  issued := []

end BackgroundAgents.Automation

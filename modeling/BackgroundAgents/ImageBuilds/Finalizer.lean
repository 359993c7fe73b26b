import BackgroundAgents.ImageBuilds.StoreLaws
import BackgroundAgents.Lib.Transition
import BackgroundAgents.Lib.Workers

/-!
# Finalization, triggers and maintenance

Everything that acts on image-build rows together with a provider: the queue
consumer (`ImageBuildFinalizer.process`), the trigger of a build with its failure
path, the teardown of build sessions, the reaping of artifacts and the
reconciliation of operations. Each is a `Worker`; a worker's turn is one D1
statement, or the boundary of one provider call, and whatever it computes up to its
next await (`Worker.turn`). Between two turns of a worker anything else may happen,
and a worker that never takes its next turn is one whose request died.

What the outside does is an `Answer`: a D1 write may succeed, take effect without the
caller learning it (`lost`), or fail (`refused`); a provider call may return anything
or throw. D1 reads do not fail. The statements of other requests (secret changes,
restore failures, stale marking, callbacks, source recovery, row ageing) are issued
at any moment with any arguments (`StoreOp.elsewhere`).

`history` notes what providers were asked and what they answered. No turn reads it.
-/

namespace BackgroundAgents.ImageBuilds

open BackgroundAgents.Transition

/-- `IMAGE_BUILD_FINALIZATION_LEASE_MS`. -/
def finalizationLeaseMs : Millis := 6 * 60 * 1000

/-- `DEFAULT_STALE_BUILD_MAX_AGE_MS`. -/
def defaultStaleBuildMaxAgeMs : Millis := (3600 + 10 * 60 + 5 * 60) * 1000

/-- The command on the finalization queue. -/
structure ImageBuildFinalizationJob where
  buildId : BuildId
  completionHash : CompletionHash
  deriving DecidableEq, Repr

/-! ## What the outside answers -/

inductive WriteAnswer where
  | answered
  | lost
  | refused
  deriving DecidableEq, Repr

def WriteAnswer.applied : WriteAnswer → Bool
  | .refused => false
  | _ => true

/-- How an attempt that returned no artifact ended: the three outcomes of an
`ImageBuildFinalizationAttemptError`, and any other error. -/
inductive AttemptFailure where
  | definitelyNotCreated
  | pending
  | ambiguous
  | other
  deriving DecidableEq, Repr

inductive ReconcileOutcome where
  | absent
  | deleted
  | pending
  deriving DecidableEq, Repr

inductive Answer where
  /-- A `SELECT` answers, or a listed row's turn has come. -/
  | row (now : Millis)
  | written (w : WriteAnswer)
  | artifact (providerImageId : ArtifactId)
  | reserve (ref : OperationRef) (deadlineAt : Millis) (w : WriteAnswer)
  | failed (failure : AttemptFailure) (aborted : Bool) (error : String)
  | bind (providerSessionId : SessionId) (w : WriteAnswer)
  | reconciled (outcome : ReconcileOutcome)
  | done
  | raised (error : String)
  deriving DecidableEq, Repr

/-- What is worth remembering of a run. An attempt is named by its lease token. -/
inductive Event where
  | started (buildId : BuildId) (provider : ImageBuildProvider) (token : LeaseToken)
  | received (artifact : ArtifactId) (buildId : BuildId) (ref : Option OperationRef)
  | ended (token : LeaseToken) (failure : AttemptFailure)
  | compensated (token : LeaseToken) (artifact : ArtifactId)
  | persisted (token : LeaseToken)
  | deleteCalled (artifact : ArtifactId)
  | deleted (artifact : ArtifactId)
  | settled (ref : OperationRef)
  | tornDown (buildId : BuildId)
  deriving DecidableEq, Repr

/-! ## Workers -/

/-- A provider attempt in flight, with what `process` keeps for after it. -/
structure Finalization where
  key : FinalizationKey
  token : LeaseToken
  /-- The operation an earlier delivery reserved. -/
  operation : Option OperationRef
  /-- The operation this attempt has reserved. -/
  reserved : Option OperationRef := none
  repositoryShas : List RepositoryShaEntry
  runtimeVersion : String
  buildDurationSeconds : Nat
  deriving DecidableEq, Repr

/-- The operation the attempt's artifact is created under. -/
def Finalization.ref (f : Finalization) : Option OperationRef :=
  f.operation.or f.reserved

/-- Where a delivery stands in `ImageBuildFinalizer.process`. -/
inductive ProcessStage where
  | reading (job : ImageBuildFinalizationJob)
  | claiming (job : ImageBuildFinalizationJob) (now : Millis) (expiredAttempt : Bool)
  | rereading (job : ImageBuildFinalizationJob) (expiredAttempt : Bool)
  | attempting (f : Finalization)
  | releasing (f : Finalization)
  | recording (f : Finalization) (image : ArtifactId)
  | checkingRecord (f : Finalization) (image : ArtifactId) (error : String)
  | compensating (f : Finalization) (image : ArtifactId) (error : String)
  | releasingCompensated (f : Finalization) (image : ArtifactId) (error : String)
  | quarantining (f : Finalization) (image : ArtifactId) (error : String)
  | failing (buildId : BuildId) (error : String)
  | readingFailed (buildId : BuildId)
  | marking (call : MarkReady) (stage : MarkReadyStage)
  | readingUnmarked (buildId : BuildId)
  | releasingUnmarked (buildId : BuildId)
  | readingTerminal (buildId : BuildId)
  deriving DecidableEq, Repr

/-- `ImageBuildSessionCleanup.run` on a row as it was read. -/
inductive CleanupStage where
  | queued (target : ImageBuildRow)
  | tearingDown (target : ImageBuildRow) (providerSessionId : SessionId)
  | clearing (target : ImageBuildRow) (providerSessionId : SessionId)
  deriving DecidableEq, Repr

/-- One row of the reaper, or one replaced image. -/
inductive ReapStage where
  | queued (row : ImageBuildRow)
  | deleting (image : ArtifactId) (commit : StoreOp)
  | committing (commit : StoreOp)
  deriving DecidableEq

/-- One row of `reconcileUnresolvedOperations`. -/
inductive ReconcileStage where
  | queued (row : ImageBuildRow)
  | calling (row : ImageBuildRow) (ref : OperationRef) (now : Millis)
  | clearing (row : ImageBuildRow) (ref : OperationRef)
  deriving DecidableEq, Repr

/-- Where a trigger stands in `ImageBuildWorkflow.trigger`, after `registerBuild`. -/
inductive TriggerStage where
  | readingWinner
  | planning
  | intending
  | starting (providerSessionId : Option SessionId)
  | failing (providerSessionId : Option SessionId) (error : String)
  | readingCurrent (providerSessionId : Option SessionId)
  | cleaning
  deriving DecidableEq, Repr

structure Trigger where
  build : ImageBuildRegistration
  /-- The adapter can find a source by its reserved name. -/
  recoversSource : Bool
  now : Millis
  deriving DecidableEq, Repr

inductive Worker where
  | process (token : LeaseToken) (stage : ProcessStage)
  | cleanup (stage : CleanupStage)
  | reap (stage : ReapStage)
  | reconcile (stage : ReconcileStage)
  | trigger (trigger : Trigger) (stage : TriggerStage)
  deriving DecidableEq

/-! ## Turns -/

/-- What a worker's turn does. -/
structure Turn where
  /-- The write that took effect. -/
  op : Option StoreOp := none
  next : Option Worker := none
  spawned : List Worker := []
  events : List Event := []

/-- A write: what took effect, and what the caller learns (`none` for an exception). -/
def issue (t : ImageBuildTable) (op : StoreOp) (w : WriteAnswer)
    (k : Option Bool → Turn) : Turn :=
  let result := match w with
    | .answered => some (op.write.changes t)
    | _ => none
  { k result with op := if w.applied then some op else none }

/-- The message of a D1 exception. -/
def d1Error : String := "D1_ERROR"

/-- The write took effect on some row. -/
def tookEffect (t : ImageBuildTable) (op : StoreOp) (w : WriteAnswer) : Bool :=
  w.applied && op.write.changes t

/-- `sessionCleanup.run`: nothing is owed without a session, or once it is settled. -/
def cleanupTerminalBuild (target : ImageBuildRow) : Turn :=
  match target.providerSessionId with
  | none => {}
  | some session =>
    if target.providerSessionCleanupPending = some false then {}
    else
      { next := some (.cleanup (.tearingDown target session))
        events := [.tornDown target.id] }

def CleanupStage.turn (t : ImageBuildTable) : CleanupStage → Answer → Option Turn
  | .queued target, .row _ => some (cleanupTerminalBuild target)
  | .tearingDown target session, .done =>
    some { next := some (.cleanup (.clearing target session)) }
  | .tearingDown _ _, .raised _ => some {}
  | .clearing target session, .written w =>
    some (issue t (.clearSessionCleanup target.id target.provider session) w fun _ => {})
  | _, _ => none

/-- The terminal store action of a reaped row. -/
def reapCommit (row : ImageBuildRow) : StoreOp :=
  if row.status = .failed then .clearFailedImageArtifact row.id row.providerImageId
  else .deleteSupersededImage row.id row.providerImageId

def ReapStage.turn (t : ImageBuildTable) : ReapStage → Answer → Option Turn
  | .queued row, .row _ =>
    match row.providerImageId with
    | none => some { next := some (.reap (.committing (reapCommit row))) }
    | some image =>
      some
        { next := some (.reap (.deleting image (reapCommit row)))
          events := [.deleteCalled image] }
  | .deleting image commit, .done =>
    some { next := some (.reap (.committing commit)), events := [.deleted image] }
  | .deleting _ _, .raised _ => some {}
  | .committing commit, .written w => some (issue t commit w fun _ => {})
  | _, _ => none

/-- `deleteReplacedImages`: one deletion for each replaced image that has an artifact. -/
def deleteReplacedImages (replaced : List SupersededImageBuild) : List Worker × List Event :=
  let withArtifact := replaced.filterMap fun b => b.providerImageId.map (b.imageBuildId, ·)
  (withArtifact.map fun b =>
      .reap (.deleting b.2 (.deleteSupersededImage b.1 (some b.2))),
    withArtifact.map fun b => .deleteCalled b.2)

def ReconcileStage.turn (t : ImageBuildTable) : ReconcileStage → Answer → Option Turn
  | .queued row, .row now =>
    match row.providerOperationRef with
    | none => some {}
    | some ref => some { next := some (.reconcile (.calling row ref now)) }
  | .calling row ref now, .reconciled outcome =>
    match outcome with
    | .pending => some {}
    | .absent =>
      if now - row.createdAt ≤ defaultStaleBuildMaxAgeMs ∨
        now < row.providerOperationDeadlineAt.getD 0 then some {}
      else some { next := some (.reconcile (.clearing row ref)), events := [.settled ref] }
    | .deleted => some { next := some (.reconcile (.clearing row ref)), events := [.settled ref] }
  | .calling _ _ _, .raised _ => some {}
  | .clearing row ref, .written w =>
    some (issue t (.clearProviderOperation row.id ref) w fun _ => {})
  | _, _ => none

namespace Trigger

/-- The source the losing trigger knows of is torn down. -/
def cleanupFailedBuild (g : Trigger) (providerSessionId : Option SessionId) : Turn :=
  match providerSessionId with
  | none => {}
  | some _ => { next := some (.trigger g .cleaning), events := [.tornDown g.build.id] }

/-- The turn a trigger registers its row in. -/
def register (g : Trigger) (t : ImageBuildTable) (w : WriteAnswer) : Turn :=
  issue t (.registerBuild g.build g.now) w fun
    | none => { next := some (.trigger g (.failing none d1Error)) }
    | some false => { next := some (.trigger g .readingWinner) }
    | some true => { next := some (.trigger g .planning) }

def turn (g : Trigger) (t : ImageBuildTable) : TriggerStage → Answer → Option Turn
  | .readingWinner, .row _ =>
    if t.rows.any fun r => r.ofScope g.build.scope g.build.provider && r.status = .building then
      some {}
    else
      some
        { next := some (.trigger g (.failing none
            "Concurrent trigger raced registerBuild and its build is already gone")) }
  | .planning, .done =>
    some { next := some (.trigger g (if g.recoversSource then .intending else .starting none)) }
  | .planning, .raised error => some { next := some (.trigger g (.failing none error)) }
  | .intending, .written w =>
    some (issue t (.markSourceCreateIntent g.build.id g.build.provider) w fun
      | some true => { next := some (.trigger g (.starting none)) }
      | some false =>
        { next := some (.trigger g (.failing none "Failed to record build source cleanup intent")) }
      | none => { next := some (.trigger g (.failing none d1Error)) })
  | .starting _, .bind session w =>
    some (issue t (.bindProviderSession g.build.id g.build.provider session) w fun _ =>
      { next := some (.trigger g (.starting (some session))) })
  | .starting _, .done => some {}
  | .starting session, .raised error => some { next := some (.trigger g (.failing session error)) }
  | .failing session error, .written w =>
    some (issue t (.markBuildFailed g.build.id g.build.provider error) w fun
      | none => {}
      | some true => g.cleanupFailedBuild session
      | some false => { next := some (.trigger g (.readingCurrent session)) })
  | .readingCurrent session, .row _ =>
    match t.get? g.build.id with
    | none => some {}
    | some current =>
      if current.callbackTokenUsedAt ≠ none then some {}
      else if current.status.discarded then some (g.cleanupFailedBuild session)
      else some {}
  | .cleaning, .done | .cleaning, .raised _ => some {}
  | _, _ => none

end Trigger

/-! ### `process` -/

/-- `finalizeWithDeadline`: an aborted attempt is pending once its operation is recorded. -/
def Finalization.outcome (f : Finalization) (failure : AttemptFailure) (aborted : Bool) :
    AttemptFailure :=
  if aborted then (if f.ref.isSome then .pending else .ambiguous) else failure

def attemptTimedOut : String := "Image build provider finalization attempt timed out"

/-- The call that publishes an artifact which is on the row. -/
def Finalization.markReady (f : Finalization) (image : ArtifactId) : MarkReady where
  buildId := f.key.buildId
  provider := f.key.provider
  providerImageId := image
  repositoryShas := f.repositoryShas
  runtimeVersion := f.runtimeVersion
  buildDurationSeconds := f.buildDurationSeconds
  finalizationLeaseToken := some f.token

/-- What a delivery that owns the lease reads off its row. -/
def ImageBuildRow.finalization (r : ImageBuildRow) (token : LeaseToken)
    (completionHash : CompletionHash) (providerSessionId : SessionId) : Finalization where
  key := ⟨r.id, r.provider, providerSessionId, completionHash⟩
  token
  operation := r.providerOperationRef
  repositoryShas := r.repositoryShas
  runtimeVersion := r.runtimeVersion
  buildDurationSeconds := r.buildDurationSeconds.getD 0

namespace ProcessStage

/-- The first read, up to the claim. -/
def read (t : ImageBuildTable) (token : LeaseToken) (job : ImageBuildFinalizationJob)
    (now : Millis) : Turn :=
  match t.get? job.buildId with
  | none => {}
  | some build =>
    if build.completionHash ≠ some job.completionHash then {}
    else if build.status ≠ .building then cleanupTerminalBuild build
    else if build.providerSessionId = none ∨ build.callbackTokenUsedAt = none then {}
    else
      let expiredAttempt : Bool := build.providerImageId = none ∧
        build.finalizationLeaseToken ≠ none ∧
        ∃ leaseEnd, build.finalizationLeaseExpiresAt = some leaseEnd ∧ leaseEnd ≤ now
      { next := some (.process token (.claiming job now expiredAttempt)) }

/-- The read under the lease: resume a recorded artifact, give up on an attempt whose
outcome is unknown, or attempt. -/
def reread (t : ImageBuildTable) (token : LeaseToken) (job : ImageBuildFinalizationJob)
    (expiredAttempt : Bool) : Turn :=
  match t.get? job.buildId with
  | none => {}
  | some build =>
    if build.finalizationLeaseToken ≠ some token then {}
    else
      match build.providerSessionId with
      | none => {}
      | some session =>
        let f := build.finalization token job.completionHash session
        match build.providerImageId with
        | some image => { next := some (.process token (.marking (f.markReady image) .selecting)) }
        | none =>
          if expiredAttempt ∧ build.providerOperationRef = none then
            { next := some (.process token (.failing build.id
                "Previous provider finalization attempt outcome unknown after lease expiry")) }
          else
            { next := some (.process token (.attempting f))
              events := [.started build.id build.provider token] }

/-- The end of an attempt that returned no artifact. -/
def fail (token : LeaseToken) (f : Finalization) (failure : AttemptFailure) (error : String) :
    Turn :=
  match failure with
  | .definitelyNotCreated | .pending =>
    { next := some (.process token (.releasing f)), events := [.ended token failure] }
  | .ambiguous =>
    { next := some (.process token (.failing f.key.buildId
        ("Provider finalization outcome unknown: " ++ error)))
      events := [.ended token failure] }
  | .other =>
    { next := some (.process token (.failing f.key.buildId error))
      events := [.ended token failure] }

/-- After `tryMarkImageBuildReady`. -/
def marked (token : LeaseToken) (call : MarkReady) : MarkImageBuildReadyResult → Turn
  | .notAcceptingCompletion => { next := some (.process token (.readingUnmarked call.buildId)) }
  | .markedReady images =>
    { next := some (.process token (.readingTerminal call.buildId))
      spawned := (deleteReplacedImages images).1, events := (deleteReplacedImages images).2 }
  | .supersededByNewerReady image =>
    { next := some (.process token (.readingTerminal call.buildId))
      spawned := (deleteReplacedImages [image]).1, events := (deleteReplacedImages [image]).2 }

/-- A statement of `tryMarkImageBuildReady` that answered. -/
def mark (t : ImageBuildTable) (token : LeaseToken) (call : MarkReady) (stage : MarkReadyStage) :
    Turn :=
  match call.next t stage with
  | .inl stage' => { next := some (.process token (.marking call stage')) }
  | .inr result => marked token call result

def quarantineMessage (persistenceError cleanupError : String) : String :=
  "Ambiguous artifact persistence after " ++ persistenceError ++ "; compensation failed: " ++
    cleanupError

/-- The stages of `tryMarkImageBuildReady` that only read. -/
def selects : MarkReadyStage → Bool
  | .selecting | .selectingOlder _ => true
  | _ => false

def turn (t : ImageBuildTable) (token : LeaseToken) : ProcessStage → Answer → Option Turn
  | .reading job, .row now => some (read t token job now)
  | .claiming job now expiredAttempt, .written w =>
    some (issue t
      (.claimLease job.buildId job.completionHash token now (now + finalizationLeaseMs)) w fun
      | some true => { next := some (.process token (.rereading job expiredAttempt)) }
      | _ => {})
  | .rereading job expiredAttempt, .row _ => some (reread t token job expiredAttempt)
  | .attempting f, .reserve ref deadlineAt w =>
    some (issue t (.reserveProviderOperation f.key token ref deadlineAt) w fun
      | some true => { next := some (.process token (.attempting { f with reserved := some ref })) }
      | _ => { next := some (.process token (.attempting f)) })
  | .attempting f, .artifact image =>
    some
      { next := some (.process token (.recording f image))
        events := [.received image f.key.buildId f.ref] }
  | .attempting f, .failed failure aborted error =>
    some (fail token f (f.outcome failure aborted) (if aborted then attemptTimedOut else error))
  | .releasing f, .written w =>
    let op := StoreOp.clearLease f.key.buildId token
    some (issue t op w fun _ =>
      { events := if tookEffect t op w then [.persisted token] else [] })
  | .recording f image, .written w =>
    let op := StoreOp.recordArtifact f.key token image
    let persisted := if tookEffect t op w then [Event.persisted token] else []
    some (issue t op w fun
      | some true =>
        { next := some (.process token (.marking (f.markReady image) .selecting))
          events := persisted }
      | some false =>
        { next := some (.process token (.checkingRecord f image
            "Finalized artifact lost its persistence fence"))
          events := persisted }
      | none =>
        { next := some (.process token (.checkingRecord f image d1Error)), events := persisted })
  | .checkingRecord f image error, .row _ =>
    if (t.get? f.key.buildId).any (·.providerImageId = some image) then
      some { next := some (.process token (.marking (f.markReady image) .selecting)) }
    else
      some
        { next := some (.process token (.compensating f image error))
          events := [.deleteCalled image] }
  | .compensating f image error, .done =>
    some
      { next := some (.process token (.releasingCompensated f image error))
        events := [.deleted image, .compensated token image] }
  | .compensating f image error, .raised cleanupError =>
    some { next := some (.process token (.quarantining f image
      (quarantineMessage error cleanupError))) }
  | .releasingCompensated f image error, .written w =>
    let op := StoreOp.clearLease f.key.buildId token
    let persisted := if tookEffect t op w then [Event.persisted token] else []
    -- the release stands in the deletion's `try`: its failure quarantines, too
    some (issue t op w fun
      | some _ => { events := persisted }
      | none =>
        { next := some (.process token (.quarantining f image (quarantineMessage error d1Error)))
          events := persisted })
  | .quarantining f image error, .written w =>
    let op := StoreOp.quarantineArtifact f.key image error
    some (issue t op w fun _ =>
      { events := if tookEffect t op w then [.persisted token] else [] })
  | .failing buildId error, .written w =>
    let op := StoreOp.markFailed buildId token error
    let persisted := if tookEffect t op w then [Event.persisted token] else []
    some (issue t op w fun
      | some _ => { next := some (.process token (.readingFailed buildId)), events := persisted }
      | none => { events := persisted })
  | .readingFailed buildId, .row _ | .readingTerminal buildId, .row _ =>
    match t.get? buildId with
    | none => some {}
    | some build => some (cleanupTerminalBuild build)
  | .marking call stage, .row _ => if selects stage then some (mark t token call stage) else none
  | .marking call stage, .written w =>
    if selects stage then none
    else
      some (issue t (.markReady call stage) w fun
        | some _ => mark t token call stage
        | none => {})
  | .readingUnmarked buildId, .row _ =>
    match t.get? buildId with
    | none => some { next := some (.process token (.releasingUnmarked buildId)) }
    | some current =>
      if current.status ≠ .building then some (cleanupTerminalBuild current)
      else some { next := some (.process token (.releasingUnmarked buildId)) }
  | .releasingUnmarked buildId, .written w =>
    some (issue t (.clearLease buildId token) w fun _ => {})
  | _, _ => none

end ProcessStage

def Worker.turn (t : ImageBuildTable) : Worker → Answer → Option Turn
  | .process token stage, a => stage.turn t token a
  | .cleanup stage, a => stage.turn t a
  | .reap stage, a => stage.turn t a
  | .reconcile stage, a => stage.turn t a
  | .trigger g stage, a => g.turn t stage a

/-! ## The system -/

structure FinalizerState where
  builds : ImageBuildTable := Table.empty
  issued : List BuildId := []
  tokens : List LeaseToken := []
  workers : List Worker := []
  history : List Event := []
  deriving DecidableEq

/-- The statements other requests and sweeps issue on their own. -/
def StoreOp.elsewhere : StoreOp → Bool
  | .attachRecoveredProviderSession _ _ _ | .clearUnboundSourceIntent _
  | .deleteSupersededImage _ none | .markRestoreFailed _ _ | .supersedeActiveImages _
  | .markStaleBuildsAsFailed _ | .markScopeStaleBuildFailed _ _ _ | .deleteOldFailedBuilds _
  | .acceptSuccessfulCompletion _ _ _ _ | .acceptFailedCompletion _ _ => true
  | _ => false

/-- `FAILED_IMAGE_ARTIFACTS_SQL` and `SUPERSEDED_IMAGES_SQL`. -/
def ImageBuildRow.reapable (r : ImageBuildRow) : Bool :=
  ((r.status = .failed ∧ r.providerImageId ≠ none) ∨ r.status = .superseded) ∧
    r.noProviderSessionObligation

/-- `PROVIDER_SESSION_CLEANUP_SQL`. -/
def ImageBuildRow.awaitsTeardown (r : ImageBuildRow) : Bool :=
  r.status ≠ .building ∧ r.providerSessionId ≠ none ∧ r.providerSessionCleanupPending ≠ some false

/-- `UNRESOLVED_PROVIDER_OPERATIONS_SQL`. -/
def ImageBuildRow.unresolved (r : ImageBuildRow) : Bool :=
  r.status.discarded ∧ r.providerOperationRef ≠ none ∧ r.providerImageId = none

inductive FinalizerStep where
  | trigger (trigger : Trigger) (registered : WriteAnswer)
  | deliver (job : ImageBuildFinalizationJob) (token : LeaseToken)
  | listReapable (buildId : BuildId)
  | listSessionCleanup (buildId : BuildId)
  | listUnresolvedOperations (buildId : BuildId)
  | write (op : StoreOp)
  | work (worker : Nat) (answer : Answer)
  deriving DecidableEq

namespace FinalizerState

/-- A sweep lists the row when it meets `p`. -/
def list (s : FinalizerState) (id : BuildId) (p : ImageBuildRow → Bool)
    (w : ImageBuildRow → Worker) : Option FinalizerState := do
  let r ← (s.builds.get? id).filter p
  some { s with workers := s.workers ++ [w r] }

/-- The table after a turn. -/
def written (s : FinalizerState) (op : Option StoreOp) : ImageBuildTable :=
  match op with
  | none => s.builds
  | some op => op.write.run s.builds

def take (s : FinalizerState) (i : Nat) (t : Turn) : FinalizerState :=
  { s with
    builds := s.written t.op
    workers := advance s.workers i t.next ++ t.spawned
    history := t.events ++ s.history }

def step (s : FinalizerState) : FinalizerStep → Option FinalizerState
  | .trigger g w =>
    if g.build.id ∈ s.issued then none
    else
      let t := g.register s.builds w
      some { s with
        builds := s.written t.op
        issued := g.build.id :: s.issued
        workers := s.workers ++ t.next.toList }
  | .deliver job token =>
    if token ∈ s.tokens then none
    else some { s with
      tokens := token :: s.tokens, workers := s.workers ++ [.process token (.reading job)] }
  | .listReapable id => s.list id (·.reapable) fun r => .reap (.queued r)
  | .listSessionCleanup id => s.list id (·.awaitsTeardown) fun r => .cleanup (.queued r)
  | .listUnresolvedOperations id => s.list id (·.unresolved) fun r => .reconcile (.queued r)
  | .write op => if op.elsewhere then some { s with builds := op.write.run s.builds } else none
  | .work i a => do
    let w ← s.workers[i]?
    let t ← w.turn s.builds a
    some (s.take i t)

end FinalizerState

def finalization : System FinalizerState FinalizerStep where
  step := FinalizerState.step

end BackgroundAgents.ImageBuilds

import BackgroundAgents.Lib.Programs
import BackgroundAgents.Session.ShutdownRecord

/-!
# The owners of `SandboxShutdownCoordinator`

One instance of the coordinator: the functions that claim one of its four
in-memory owners (`capture`, `retire`, `discard`, `captureCheckpoint`) and those
that read them (`advance`, `retryCapture`, `captureUnconfirmed`). They await the
alarm and the provider.

Everything else that writes the record or the sandbox row, the other methods of
the coordinator among it, is the request `write`: any record and any row, at any
time. `requestShutdown` calls `capture` and `recover` calls `retire` and `discard`;
here these are called at any time, with any record. A task handed to
`background.submit` is a call that may come at any time, too.

The synchronous operations that may throw are those of a `Point`. Which of them do
is chosen for every turn (`State.faults`), like the time, which stands still in a
turn. `broadcast` catches what its delivery throws. What is sent and logged is left
out, and so is a read that throws while no owner is held, which changes nothing.
-/

namespace BackgroundAgents.Session.SandboxShutdown

open Programs
open Sockets (SandboxStatus)

inductive OwnerName where
  | activeOperation
  | checkpointOperationId
  | retiringOperation
  | discardingOperation
  deriving DecidableEq

/-- A field of the instance, with the calls that are in the function it belongs to. -/
structure Owner where
  operation : Option Nat
  -- what happened so far
  /-- the call that has set the field last -/
  holder : Option Nat
  running : List Nat

inductive Site where
  | normalizeInterruptedRestore
  | fail
  | finish
  | fenceRuntime
  | scheduleCaptureRetry
  | capture
  | captureBody
  | commitCaptureReceipt
  | retire
  | discard
  | discardFailed
  | completeDiscard
  | captureCheckpoint
  | checkpointClaimed
  | checkpointSaved
  | endCheckpoint
  | advance
  deriving DecidableEq

inductive SyncOp where
  | read
  | write
  | announce
  | row
  | access
  deriving DecidableEq

/-- A synchronous operation where it stands. -/
structure Point where
  site : Site
  op : SyncOp
  deriving DecidableEq

structure State where
  record : Option StoredRecord
  row : Option SandboxRow
  /-- there is a session row -/
  session : Bool
  owners : OwnerName → Owner
  checkpointGeneration : Option SandboxGeneration
  activeRestoreGeneration : Option SandboxGeneration
  now : Int
  /-- the operations of this turn that throw -/
  faults : List Point
  -- what happened so far
  drawn : Nat
  calls : Nat
  ended : List Nat

def State.initial (record : Option StoredRecord) (row : Option SandboxRow) : State where
  record := record
  row := row
  session := true
  owners := fun _ => { operation := none, holder := none, running := [] }
  checkpointGeneration := none
  activeRestoreGeneration := none
  now := 0
  faults := []
  drawn := 0
  calls := 0
  ended := []

inductive Intent where
  | destroy
  | preserve

inductive ShutdownOp where
  | schedule (site : Site) (at' : Option Int)
  | takeSnapshot (providerObjectId : String) (deadlineAtMs : Option Int)
  | stopSandbox (providerObjectId : String) (intent : Intent) (deadlineAtMs : Option Int)

structure SnapshotResult where
  success : Bool
  imageId : Option String
  sourceStopped : Bool
  sourceObjectId : Option String

def ShutdownOp.Answer : ShutdownOp → Type
  | .schedule _ _ => Unit
  | .takeSnapshot _ _ => SnapshotResult
  | .stopSandbox _ _ _ => Bool

inductive ShutdownError where
  | deadline
  | failed

abbrev Shutdown := Program State ShutdownOp ShutdownOp.Answer ShutdownError

def await (o : ShutdownOp) : Shutdown o.Answer := Program.perform o

/-- A synchronous operation that may throw. -/
def mayThrow (site : Site) (op : SyncOp) : Shutdown Unit := do
  let throws ← Program.gets fun s => s.faults.contains ⟨site, op⟩
  if throws then Program.raise .failed else return ()

/-- `crypto.randomUUID()` -/
def randomUUID : Shutdown Nat := do
  let id ← Program.gets (·.drawn)
  Program.modify fun s => { s with drawn := s.drawn + 1 }
  return id

/-! ## Owners -/

namespace State

def setOwner (s : State) (name : OwnerName) (owner : Owner) : State :=
  { s with owners := fun other => if other = name then owner else s.owners other }

/-- A call comes into the function of an owner. -/
def into (s : State) (name : OwnerName) (call : Nat) : State :=
  s.setOwner name { s.owners name with running := (s.owners name).running ++ [call] }

def outOf (s : State) (name : OwnerName) (call : Nat) : State :=
  s.setOwner name
    { s.owners name with running := (s.owners name).running.filter (· ≠ call) }

def claim (s : State) (name : OwnerName) (call : Nat) (operation : Option Nat) : State :=
  s.setOwner name { s.owners name with operation, holder := some call }

def release (s : State) (name : OwnerName) : State :=
  s.setOwner name { s.owners name with operation := none }

end State

/-- The body of the function of an owner. -/
def executing {α : Type} (name : OwnerName) (call : Nat) (body : Shutdown α) : Shutdown α := do
  Program.modify (·.into name call)
  Program.ensure body (Program.modify (·.outOf name call))

/-! ## The record -/

def read : Shutdown (Option ShutdownRecord) := Program.gets fun s => s.record.map (·.val)

def write (site : Site) (state : ShutdownRecord) : Shutdown Unit := do
  mayThrow site .write
  if h : state.complete = true then Program.modify fun s => { s with record := some ⟨state, h⟩ }
  else Program.raise .failed

def publish (site : Site) (state : ShutdownRecord) : Shutdown Unit := do
  write site state
  mayThrow site .announce

def updateSandboxStatus (site : Site) (status : SandboxStatus) : Shutdown Unit := do
  mayThrow site .row
  Program.modify fun s => { s with row := s.row.map fun row => { row with status } }

def State.owns (s : State) (state : ShutdownRecord) : Bool :=
  state.currentIn s.row &&
    s.record.any fun current =>
      current.val.operationId = state.operationId && current.val.phase = state.phase

def fail (state : ShutdownRecord) (phase : ShutdownPhase) (error : String)
    (captureFailure : Bool) : Shutdown ShutdownRecord := do
  let failed := { state with phase, error := some error, captureFailure }
  publish .fail failed
  return failed

/-- A record of another provider is failed where it is met. -/
def providerMatches (provider : Provider) (state : ShutdownRecord) : Shutdown Bool :=
  if state.provider.all (fun name => name = "" || name = provider.name) then return true
  else if state.phase ≠ .unknown then do
    let _ ← fail state .unknown
      ("The sandbox provider changed; its existing source cannot be preserved through a " ++
        "different provider.") false
    return false
  else return false

def finish (state : ShutdownRecord) : Shutdown Unit := do
  updateSandboxStatus .finish .stopped
  mayThrow .finish .access
  publish .finish { state with phase := .saved, sourceRetired := true }

def fenceRuntime : Shutdown Unit := do
  let row ← Program.gets (·.row)
  if row.any (fun row => !row.status.isDead) then updateSandboxStatus .fenceRuntime .stale
  mayThrow .fenceRuntime .access

def scheduleCaptureRetry (provider : Provider) (state : ShutdownRecord) : Shutdown Unit := do
  let retries ← Program.gets fun s =>
    s.owns state && state.canAutomaticallyRetryCapture provider s.row s.now
  if retries then await (.schedule .scheduleCaptureRetry state.captureByMs) else return ()

/-! ## The provider -/

structure Captured where
  artifactId : String
  sourceStopped : Bool
  sourceObjectId : Option String

def captureSnapshot (provider : Provider) (providerObjectId : String) (deadlineAtMs : Option Int) :
    Shutdown Captured :=
  if provider.takeSnapshot then do
    let result : SnapshotResult ← await (.takeSnapshot providerObjectId deadlineAtMs)
    match result.imageId.filter (· ≠ "") with
    | some imageId =>
      if result.success then
        return {
          artifactId := imageId
          sourceStopped := result.sourceStopped
          sourceObjectId := result.sourceObjectId }
      else Program.raise .failed
    | none => Program.raise .failed
  else Program.raise .failed

/-- Confirmed provider stop of one source. -/
def stopSource (provider : Provider) (providerObjectId : String) (intent : Intent)
    (retireByMs : Option Int) : Shutdown Unit :=
  if provider.stopSandbox then do
    let session ← Program.gets (·.session)
    if session then
      let now ← Program.gets (·.now)
      let stopped : Bool ← await
        (.stopSandbox providerObjectId intent (retireByMs.map (min · (now + RETIRE_MS))))
      if stopped then return () else Program.raise .failed
    else Program.raise .failed
  else Program.raise .failed

/-! ## Retirement -/

def retireSource (provider : Provider) (state : ShutdownRecord)
    (receipt : ShutdownRecoveryReceipt) (providerObjectId : String) : Shutdown Unit := do
  let now ← Program.gets (·.now)
  await (.schedule .retire (state.retireByMs.map (min · (now + RETIRE_MS))))
  stopSource provider
    (if state.receiptCoversSource then receipt.sourceObjectId.getD providerObjectId
      else providerObjectId)
    (if receipt.kind = .snapshot then .destroy else .preserve) state.retireByMs
  let owned ← Program.gets (·.owns state)
  if owned then finish state else return ()

def retire (provider : Provider) (call : Nat) (state : ShutdownRecord) : Shutdown Unit :=
  executing .retiringOperation call do
    let retiring ← Program.gets fun s => (s.owners .retiringOperation).operation
    if retiring.isSome && retiring = state.operationId then return ()
    else
      match state.receipt, state.object with
      | some receipt, some providerObjectId =>
        let now ← Program.gets (·.now)
        if state.retireByMs.any (· ≤ now) then
          let _ ← fail state .unknown
            "Recovery point saved, but source retirement was not confirmed." false
          return ()
        else
          Program.modify (·.claim .retiringOperation call state.operationId)
          Program.ensure
            (Program.handle (retireSource provider state receipt providerObjectId) fun _ => do
              let owned ← Program.gets (·.owns state)
              if owned then
                let _ ← fail state .unknown
                  "A recovery point is saved, but source retirement could not be confirmed." false
                return ()
              else return ())
            (Program.modify (·.release .retiringOperation))
      | _, _ => return ()

/-! ## Captures -/

def commitCaptureReceipt (provider : Provider) (state : ShutdownRecord) (kind : ReceiptKind)
    (captured : Captured) : Shutdown ShutdownRecord := do
  let savedAtMs ← Program.gets (·.now)
  let row ← Program.gets (·.row)
  let receipt :=
    { kind
      captureKind := some .shutdown
      artifactId := captured.artifactId
      sourceObjectId := captured.sourceObjectId.filter (· ≠ "")
      provider := provider.name
      savedAtMs
      runtimeVersion := row.bind (·.runtime_version) }
  let retiring :=
    { state with
      phase := .retiring
      error := none
      receipt := some receipt
      savedAtMs := some savedAtMs }
  -- the transaction: the projection in the row commits with the record
  let owned ← Program.gets (·.owns state)
  let recorded := row.any (·.modal_sandbox_id = some state.generation.sandboxId)
  if owned && (kind ≠ .snapshot || recorded) then
    write .commitCaptureReceipt retiring
    mayThrow .commitCaptureReceipt .announce
    return retiring
  else Program.raise .failed

/-- What `capture` does to save the source; `none` where nothing failed. -/
def captureSource (provider : Provider) (call : Nat) (state capturing : ShutdownRecord)
    (providerObjectId : String) : Shutdown (Option ShutdownRecord) := do
  let retained := provider.supportsPersistentResume && !provider.supportsSnapshots
  mayThrow .captureBody .read
  let session ← Program.gets (·.session)
  if session then
    let captured ←
      if retained then
        if provider.stopSandbox then do
          let stopped : Bool ← await (.stopSandbox providerObjectId .preserve state.captureByMs)
          if stopped then
            pure
              { artifactId := providerObjectId
                sourceStopped := true
                sourceObjectId := none }
          else Program.raise .failed
        else Program.raise .failed
      else captureSnapshot provider providerObjectId state.captureByMs
    let owned ← Program.gets (·.owns capturing)
    if owned then
      let retiring ← commitCaptureReceipt provider capturing
        (if retained then .retained else .snapshot) captured
      if captured.sourceStopped then finish retiring else retire provider call retiring
      return none
    else return none
  else Program.raise .failed

def captureFailed (capturing : ShutdownRecord) (error : ShutdownError) :
    Shutdown (Option ShutdownRecord) := do
  let owned ← Program.gets (·.owns capturing)
  if owned then
    let failed ← fail capturing .unknown
      (match error with
        | .deadline => "The save did not finish before its deadline; its result is unknown."
        | .failed =>
          "The provider did not confirm the save. The previous recovery point is unchanged.")
      true
    return some failed
  else return none

def capture (provider : Provider) (call : Nat) (state : ShutdownRecord) : Shutdown Unit :=
  executing .activeOperation call do
    let now ← Program.gets (·.now)
    match state.object.filter fun _ => !state.captureByMs.any (· ≤ now) with
    | none =>
      let failed ← fail state .failed "No time or provider handle remained to save the sandbox."
        true
      scheduleCaptureRetry provider failed
    | some providerObjectId =>
      Program.modify (·.claim .activeOperation call state.operationId)
      let capturing := { state with phase := .capturing }
      publish .capture capturing
      await (.schedule .capture state.captureByMs)
      let result ← Program.attempt
        (Program.handle (captureSource provider call state capturing providerObjectId)
          (captureFailed capturing))
      Program.modify (·.release .activeOperation)
      match result with
      | .ok (some failed) => scheduleCaptureRetry provider failed
      | .ok none => return ()
      | .error error => Program.raise error

def retryCapture (provider : Provider) (call : Nat) (state : ShutdownRecord) : Shutdown Unit := do
  let now ← Program.gets (·.now)
  let retries ← Program.gets fun s =>
    (s.owners .activeOperation).operation.isNone && s.owns state &&
      state.canRetryShutdown provider now
  if retries then
    let id ← randomUUID
    fenceRuntime
    capture provider call
      (ShutdownRecord.window { state with error := none, operationId := some id }
        (emergencyWindow state.expiresAtMs now))
  else return ()

def captureUnconfirmed (provider : Provider) (call : Nat) (state : ShutdownRecord) :
    Shutdown Unit := do
  let owned ← Program.gets (·.owns state)
  if owned then
    if state.checkpointInFlight then
      if state.captureOp.any provider.settles then return ()
      else
        let owner ← Program.gets fun s => (s.owners .checkpointOperationId).operation
        if owner.isNone then
          let _ ← fail state .unknown "An earlier checkpoint has an unknown result." false
          return ()
        else return ()
    else
      fenceRuntime
      capture provider call { state with continuationPaused := some true }
  else return ()

/-! ## Discards -/

def State.ownsDiscard (s : State) (claim : ShutdownRecord) : Bool :=
  claim.currentIn s.row && s.record.any fun current => current.val.discarding = claim.discarding

def completeDiscard (provider : Provider) (state : ShutdownRecord) : Shutdown Unit := do
  let current ← Program.gets fun s => state.currentIn s.row
  -- the transaction
  if current then
    write .completeDiscard
      { phase := .running
        generation := state.generation
        provider := some provider.name
        providerObjectId := none
        sourceRetired := true
        lifetimeKind := .unknown
        expiresAtMs := none
        drainAtMs := none
        generationReady := false
        lifecyclePolicy := state.lifecyclePolicy }
    Program.modify fun s =>
      { s with
        row := s.row.map fun row => { row with status := .stopped, modal_object_id := none } }
    mayThrow .completeDiscard .announce
    mayThrow .completeDiscard .access
  else Program.raise .failed

/-- Stops the source of a discard; `false` where that failed. -/
def stopDiscarded (provider : Provider) (claim : ShutdownRecord) (providerObjectId : String) :
    Shutdown Bool :=
  Program.handle
    (do
      let now ← Program.gets (·.now)
      stopSource provider providerObjectId .destroy (some (now + RETIRE_MS))
      return true)
    fun _ => do
      let owned ← Program.gets (·.ownsDiscard claim)
      if owned then
        publish .discardFailed
          { claim with
            discarding := none
            error := some "The sandbox could not be stopped, so nothing was discarded. Try again." }
        return false
      else return false

def discardSource (provider : Provider) (claim : ShutdownRecord) : Shutdown Unit := do
  publish .discard claim
  let stopped ←
    match claim.object.filter
      fun _ => provider.canStopSource && !claim.recordedOnOtherProvider provider with
    | some providerObjectId => stopDiscarded provider claim providerObjectId
    | none => pure true
  if stopped then
    let owned ← Program.gets (·.ownsDiscard claim)
    if owned then completeDiscard provider claim else return ()
  else return ()

def discard (provider : Provider) (call : Nat) (state : ShutdownRecord) : Shutdown Unit :=
  executing .discardingOperation call do
    let id ← randomUUID
    Program.modify (·.claim .discardingOperation call (some id))
    Program.ensure
      (discardSource provider { state with discarding := some id, error := none })
      (Program.modify (·.release .discardingOperation))

/-! ## Checkpoints -/

def normalizeInterruptedRestore : Shutdown (Option ShutdownRecord) := do
  let s ← Program.gets fun s => s
  match s.record.map (·.val) with
  | none => return none
  | some state =>
    if state.phase ≠ .restoring ∧ state.phase ≠ .running ∨ state.restoreInvoked = false ∨
        s.activeRestoreGeneration = some state.generation ∨ state.currentIn s.row = false then
      return some state
    else
      let unknown :=
        { state with
          phase := .unknown
          providerObjectId := (s.row.bind (·.modal_object_id)).or state.providerObjectId
          error := some ("Saved sandbox restore was interrupted after provider invocation; its " ++
            "outcome is unknown.") }
      publish .normalizeInterruptedRestore unknown
      return some unknown

/-- `admissionDecision() === "ready"` -/
def admissionReady (provider : Provider) : Shutdown Bool := do
  let state ← normalizeInterruptedRestore
  match state with
  | none => return false
  | some state =>
    let s ← Program.gets fun s => s
    if state.phase ≠ .running ∨ state.currentIn s.row = false then return false
    else
      let matching ← providerMatches provider state
      if !matching || state.restoreInvoked || state.runtimeFailure then return false
      else if state.lifecyclePolicy = some .legacy then return !state.checkpointInFlight
      else if !state.runtimeReady && s.row.any (·.status.isDead) then return false
      else if state.drainAtMs.any (· ≤ s.now) then return false
      else
        return state.lifetimeKind ≠ .unknown && state.generationReady && !state.checkpointInFlight

/-- The record that a checkpoint starts from; `none` where it is held. -/
def checkpointRecord (provider : Provider) (generation : SandboxGeneration) :
    Shutdown (Option ShutdownRecord) := do
  let state ← read
  let s ← Program.gets fun s => s
  match state with
  | some state =>
    let ready ← admissionReady provider
    if !ready || state.generation ≠ generation || state.checkpointInFlight then return none
    else if state.drainAtMs.any (· < s.now + CAPTURE_MS + MARGIN_MS) then return none
    else return some state
  | none =>
    match s.row with
    | none => return none
    | some row =>
      if row.modal_sandbox_id ≠ some generation.sandboxId ∨ row.created_at ≠ generation.createdAt
        then return none
      else
        match legacyShutdownRecord row provider with
        | some state => return some state
        | none => Program.raise .failed

def State.ownsCheckpoint (s : State) (state : ShutdownRecord) (id : Nat) : Bool :=
  state.currentIn s.row && state.checkpointInFlight && state.captureOp.any (·.id = id) &&
    state.discarding.isNone && !state.restoreInvoked &&
    (state.phase = .running || state.phase = .draining || state.phase = .failed ||
      state.phase = .unknown)

/-- What the record says once the checkpoint has no owner any more. -/
def recordCheckpointEnd (provider : Provider) (id : Nat) (uncertain : Bool) : Shutdown Unit := do
  let state ← read
  let generation ← Program.gets (·.checkpointGeneration)
  Program.modify fun s => { s with checkpointGeneration := none }
  match state.filter fun state => generation = some state.generation with
  | none => return ()
  | some state =>
    let owned ← Program.gets (·.ownsCheckpoint state id)
    if owned then
      let ended := { state with checkpointInFlight := false, captureOp := none }
      if uncertain then
        match state.captureOp.filter provider.settles with
        | some op =>
          let now ← Program.gets (·.now)
          write .endCheckpoint
            { state with captureOp := some { op with uncertainAtMs := some now } }
          await (.schedule .endCheckpoint (some op.settleAtMs))
        | none =>
          let _ ← fail ended .unknown
            "Checkpoint provider outcome is unknown; destructive follow-up remains held." false
          return ()
      else publish .endCheckpoint ended
    else return ()

def endCheckpoint (provider : Provider) (id : Nat) (uncertain : Bool) : Shutdown Unit := do
  let owner ← Program.gets fun s => (s.owners .checkpointOperationId).operation
  if owner ≠ some id then return ()
  else
    Program.modify (·.release .checkpointOperationId)
    recordCheckpointEnd provider id uncertain

/-- `transitionSandboxStatus`; answers whether the row was changed. -/
def transitionSandboxStatus (site : Site) (generation : SandboxGeneration)
    (source target : SandboxStatus) : Shutdown Bool := do
  mayThrow site .row
  let changed ← Program.gets fun s => s.row.any fun row =>
    row.modal_sandbox_id = some generation.sandboxId && row.created_at = generation.createdAt &&
      row.status = source
  if changed then
    Program.modify fun s => { s with row := s.row.map fun row => { row with status := target } }
  return changed

inductive SandboxCheckpointOutcome where
  | held
  | unknown
  | saved (imageId : String) (sourceStopped : Bool)

/-- The transaction that commits the receipt of a checkpoint; `none` where it has no owner any
more. -/
def commitCheckpoint (provider : Provider) (generation : SandboxGeneration) (id : Nat)
    (row : SandboxRow) (result : Captured) : Shutdown (Option ShutdownRecord) := do
  let s ← Program.gets fun s => s
  match s.record.map (·.val) with
  | none => return none
  | some current =>
    if (s.owners .checkpointOperationId).operation = some id && current.generation = generation &&
        s.ownsCheckpoint current id then
      if s.row.any (·.modal_sandbox_id = some generation.sandboxId) then
        let next :=
          { current with
            receipt := some
              { kind := .snapshot
                captureKind := some .checkpoint
                artifactId := result.artifactId
                sourceObjectId := result.sourceObjectId
                provider := provider.name
                savedAtMs := s.now
                runtimeVersion := row.runtime_version }
            savedAtMs := some s.now }
        write .checkpointSaved next
        return some next
      else Program.raise .failed
    else return none

/-- The snapshot of a checkpoint and its receipt; `none` where the checkpoint has no owner any
more. -/
def saveCheckpoint (provider : Provider) (generation : SandboxGeneration) (op : CaptureOperation)
    (row : SandboxRow) (providerObjectId : String) : Shutdown (Option Captured) := do
  if provider.settles op then await (.schedule .captureCheckpoint (some op.settleAtMs))
  let result ← captureSnapshot provider providerObjectId (some op.deadlineAtMs)
  let saved ← commitCheckpoint provider generation op.id row result
  if saved.isSome then
    mayThrow .checkpointSaved .announce
    return some result
  else return none

/-- The sandbox row after a checkpoint. -/
def restoreStatus (generation : SandboxGeneration) (op : CaptureOperation) (row : SandboxRow)
    (statusChanged : Bool) (result : Captured) : Shutdown Unit := do
  if result.sourceStopped then
    updateSandboxStatus .checkpointSaved .stopped
    mayThrow .checkpointSaved .access
  else if statusChanged && op.reason ≠ "heartbeat_timeout" then
    let _ ← transitionSandboxStatus .checkpointSaved generation .snapshotting row.status
    return ()
  else return ()

/-- The `try` of a checkpoint. -/
def takeCheckpoint (provider : Provider) (generation : SandboxGeneration) (op : CaptureOperation)
    (row : SandboxRow) (providerObjectId : String) (statusChanged : Bool) :
    Shutdown SandboxCheckpointOutcome := do
  let saved ← saveCheckpoint provider generation op row providerObjectId
  match saved with
  | none =>
    endCheckpoint provider op.id true
    return .unknown
  | some result =>
    restoreStatus generation op row statusChanged result
    endCheckpoint provider op.id false
    return .saved result.artifactId result.sourceStopped

def tryCheckpoint (provider : Provider) (generation : SandboxGeneration) (op : CaptureOperation)
    (row : SandboxRow) (providerObjectId : String) (statusChanged : Bool) :
    Shutdown SandboxCheckpointOutcome :=
  Program.handle (takeCheckpoint provider generation op row providerObjectId statusChanged)
    fun _ => do
      endCheckpoint provider op.id true
      return .unknown

/-- What a checkpoint does once it is claimed. -/
def runCheckpoint (provider : Provider) (generation : SandboxGeneration) (op : CaptureOperation) :
    Shutdown SandboxCheckpointOutcome := do
  mayThrow .checkpointClaimed .read
  let s ← Program.gets fun s => s
  match s.row.bind fun row =>
      (row.modal_object_id.filter fun object => object ≠ "" && s.session).map (row, ·) with
  | none =>
    endCheckpoint provider op.id false
    return .held
  | some (row, providerObjectId) =>
    if row.status.isDead then tryCheckpoint provider generation op row providerObjectId false
    else
      let statusChanged ←
        transitionSandboxStatus .checkpointClaimed generation row.status .snapshotting
      tryCheckpoint provider generation op row providerObjectId statusChanged

def captureCheckpoint (provider : Provider) (call : Nat) (generation : SandboxGeneration)
    (reason : String) (after : SandboxCheckpointFollowUp) : Shutdown SandboxCheckpointOutcome :=
  executing .checkpointOperationId call do
    let owner ← Program.gets fun s => (s.owners .checkpointOperationId).operation
    if owner.isSome then return .held
    else
      let now ← Program.gets (·.now)
      let state ← checkpointRecord provider generation
      match state with
      | none => return .held
      | some state =>
        let deadlineAtMs :=
          state.drainAtMs.elim (now + CAPTURE_MS) fun drainAtMs =>
            min (now + CAPTURE_MS) (drainAtMs - MARGIN_MS)
        let id ← randomUUID
        let op :=
          { id
            reason
            after
            attempt := 1
            deadlineAtMs
            settleAtMs := deadlineAtMs + MARGIN_MS
            uncertainAtMs := none }
        write .captureCheckpoint { state with checkpointInFlight := true, captureOp := some op }
        Program.modify fun s =>
          { s.claim .checkpointOperationId call (some id) with
            checkpointGeneration := some generation }
        runCheckpoint provider generation op

/-! ## Going on -/

/-- A drain that no routine checkpoint holds up. -/
def awaitStop (provider : Provider) (call : Nat) (state : ShutdownRecord) : Shutdown Unit := do
  let now ← Program.gets (·.now)
  if state.stopByMs.any (· ≤ now) then captureUnconfirmed provider call state
  else
    await (.schedule .advance state.stopByMs)
    if state.checkpointInFlight then
      let owner ← Program.gets fun s => (s.owners .checkpointOperationId).operation
      if owner.isNone then
        let _ ← fail state .unknown "An earlier checkpoint has an unknown result." false
        return ()
      else return ()
    -- otherwise the runtime is told to prepare
    else return ()

/-- The record of a shutdown that takes a routine checkpoint over. -/
def ShutdownRecord.handedOver (state : ShutdownRecord) (now : Int) : ShutdownRecord :=
  let handed := { state with checkpointInFlight := false, captureOp := none }
  if state.stopByMs.any (· ≤ now) then handed.window (emergencyWindow state.expiresAtMs now)
  else handed

def advanceDraining (provider : Provider) (call : Nat) (state : ShutdownRecord) :
    Shutdown Unit :=
  match (state.captureOp.filter fun _ => state.checkpointInFlight).filter provider.settles with
  | none => awaitStop provider call state
  | some op => do
    let s ← Program.gets fun s => s
    match decideCheckpointSettlement op
        ((s.owners .checkpointOperationId).operation = some op.id) s.now with
    | .wait none => return ()
    | .wait (some untilMs) => await (.schedule .advance (some untilMs))
    | .handoff =>
      write .advance (state.handedOver s.now)
      awaitStop provider call (state.handedOver s.now)

def advance (provider : Provider) (call : Nat) : Shutdown Unit := do
  let state ← read
  let s ← Program.gets fun s => s
  match state.filter fun state => state.currentIn s.row && state.operationId.isSome with
  | none => return ()
  | some state =>
    let matching ← providerMatches provider state
    if matching then
      match state.phase with
      | .draining => advanceDraining provider call state
      | .capturing =>
        if (s.owners .activeOperation).operation ≠ state.operationId then
          let failed ← fail state .unknown
            "The save was interrupted by a control-plane restart; its result is unknown." true
          scheduleCaptureRetry provider failed
        else return ()
      | .prepared => capture provider call state
      | .retiring => retire provider call state
      | _ => return ()
    else return ()

/-! ## Calls in progress -/

/-- The records are those that the caller has read from the store or written to it. -/
inductive Request where
  | advance
  | retryCapture (state : StoredRecord)
  | captureUnconfirmed (state : StoredRecord)
  | capture (state : StoredRecord)
  | retire (state : StoredRecord)
  | discard (state : StoredRecord)
  | captureCheckpoint (generation : SandboxGeneration) (reason : String)
      (after : SandboxCheckpointFollowUp)
  /-- everything else -/
  | write (record : Option StoredRecord) (row : Option SandboxRow) (session : Bool)
      (activeRestoreGeneration : Option SandboxGeneration)

/-- A call, with what the surroundings choose for its first turn. -/
structure Call where
  request : Request
  now : Int
  faults : List Point

def Request.body (provider : Provider) (id : Nat) : Request → Shutdown Unit
  | .advance => SandboxShutdown.advance provider id
  | .retryCapture state => SandboxShutdown.retryCapture provider id state.val
  | .captureUnconfirmed state => SandboxShutdown.captureUnconfirmed provider id state.val
  | .capture state => SandboxShutdown.capture provider id state.val
  | .retire state => SandboxShutdown.retire provider id state.val
  | .discard state => SandboxShutdown.discard provider id state.val
  | .captureCheckpoint generation reason after => do
    let _ ← SandboxShutdown.captureCheckpoint provider id generation reason after
    return ()
  | .write record row session activeRestoreGeneration =>
    Program.modify fun s => { s with record, row, session, activeRestoreGeneration }

/-- The phases in which the callers hand a record on. -/
def Request.made : Request → Bool
  | .captureUnconfirmed state => state.val.phase = .draining
  | .capture state => state.val.phase = .capturing
  | .retire state => state.val.phase = .retiring
  | _ => true

inductive Ending where
  | done
  | snapshot (result : SnapshotResult)
  | stopped (success : Bool)
  | throws (error : ShutdownError)

structure Choice where
  ending : Ending
  now : Int
  faults : List Point

def State.turn (s : State) (now : Int) (faults : List Point) : State := { s with now, faults }

def ShutdownOp.answer (s : State) :
    (o : ShutdownOp) → Ending → Option (Except ShutdownError o.Answer × State)
  | .schedule _ _, .done => some (.ok (), s)
  | .takeSnapshot _ _, .snapshot result => some (.ok result, s)
  | .stopSandbox _ _ _, .stopped success => some (.ok success, s)
  | _, .throws error => some (.error error, s)
  | _, _ => none

def shutdownServer (provider : Provider) :
    Server State Call ShutdownOp Choice ShutdownOp.Answer ShutdownError Unit where
  enter id call s :=
    if s.calls ≤ id ∧ call.request.made = true then
      some { s.turn call.now call.faults with calls := id + 1 }
    else none
  body id call := call.request.body provider id
  answer _ _ o choice s := o.answer (s.turn choice.now choice.faults) choice.ending
  leave id _ _ s := { s with ended := s.ended ++ [id] }

end BackgroundAgents.Session.SandboxShutdown

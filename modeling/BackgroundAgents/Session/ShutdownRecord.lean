import BackgroundAgents.Sockets.Manager

/-!
# The shutdown record

What `SandboxShutdownRepository` keeps: one record, with the phase of the planned
stop, the receipt of the last save and the checkpoint in flight. The store parses
what it is given, so that only a record that is `complete` is ever in it
(`StoredRecord`).

An optional flag that is only tested for being set, or for `=== true`, is a `Bool`
here. `continuationPaused` is not one of them: where it is absent the message
marker stands in for it. Ids are numbers that are drawn once, as
`crypto.randomUUID` does. Times are the clock's milliseconds.
-/

namespace BackgroundAgents.Session.SandboxShutdown

open Sockets (SandboxStatus)

inductive ShutdownPhase where
  | running
  | restoring
  | draining
  | prepared
  | capturing
  | retiring
  | saved
  | failed
  | unknown
  deriving DecidableEq

structure SandboxGeneration where
  sandboxId : String
  createdAt : Int
  deriving DecidableEq

inductive ReceiptKind where
  | snapshot
  | retained
  deriving DecidableEq

inductive CaptureKind where
  | checkpoint
  | shutdown
  deriving DecidableEq

structure ShutdownRecoveryReceipt where
  kind : ReceiptKind
  captureKind : Option CaptureKind
  artifactId : String
  sourceObjectId : Option String
  provider : String
  savedAtMs : Int
  runtimeVersion : Option String
  deriving DecidableEq

/-- What a confirmed checkpoint permits. -/
inductive SandboxCheckpointFollowUp where
  | continue
  | stop_source
  deriving DecidableEq

/-- The ordinary checkpoint behind `checkpointInFlight`. -/
structure CaptureOperation where
  id : Nat
  reason : String
  after : SandboxCheckpointFollowUp
  attempt : Nat
  deadlineAtMs : Int
  settleAtMs : Int
  uncertainAtMs : Option Int
  deriving DecidableEq

inductive LifetimeKind where
  | finite
  | none
  | unknown
  deriving DecidableEq

inductive ShutdownLifecyclePolicy where
  | confirmed
  | legacy
  deriving DecidableEq

structure ShutdownRecord where
  phase : ShutdownPhase
  generation : SandboxGeneration
  provider : Option String
  providerObjectId : Option String
  sourceRetired : Bool := false
  lifetimeKind : LifetimeKind
  expiresAtMs : Option Int
  drainAtMs : Option Int
  reason : Option String := none
  error : Option String := none
  savedAtMs : Option Int := none
  /-- `protocolVersion === 1` -/
  protocolVersion : Bool := false
  generationReady : Bool
  runtimeReady : Bool := false
  lifecyclePolicy : Option ShutdownLifecyclePolicy
  restoreInvoked : Bool := false
  checkpointInFlight : Bool := false
  captureOp : Option CaptureOperation := none
  runtimeFailure : Bool := false
  captureFailure : Bool := false
  discarding : Option Nat := none
  operationId : Option Nat := none
  messageId : Option String := none
  stopByMs : Option Int := none
  captureByMs : Option Int := none
  retireByMs : Option Int := none
  receipt : Option ShutdownRecoveryReceipt := none
  continuationPaused : Option Bool := none
  deriving DecidableEq

/-! ## The schema -/

namespace ShutdownRecord

def lifetimeIncomplete (state : ShutdownRecord) : Bool :=
  state.lifetimeKind = .finite &&
    (state.expiresAtMs.isNone || state.lifecyclePolicy ≠ some .legacy && state.drainAtMs.isNone)

def phaseIncomplete (state : ShutdownRecord) : Bool :=
  (state.phase = .saved || state.phase = .restoring || state.phase = .retiring) &&
      state.receipt.isNone ||
    (state.phase = .draining || state.phase = .prepared || state.phase = .capturing) &&
      (state.operationId.isNone || state.stopByMs.isNone || state.captureByMs.isNone ||
        state.retireByMs.isNone) ||
    state.phase = .retiring && (state.operationId.isNone || state.retireByMs.isNone)

/-- `stateSchema`, the rules between its fields included. -/
def complete (state : ShutdownRecord) : Bool :=
  (state.generation.sandboxId ≠ "" && 0 < state.generation.createdAt &&
      state.receipt.all
        (fun receipt => receipt.artifactId ≠ "" && receipt.sourceObjectId ≠ some "") &&
      state.captureOp.all (fun op => 1 ≤ op.attempt) && !state.lifetimeIncomplete) &&
    !state.phaseIncomplete

/-- What is being captured has its operation. -/
theorem operationId_of_capturing {state : ShutdownRecord} (h : state.complete = true)
    (hphase : state.phase = .capturing) : ∃ id, state.operationId = some id := by
  have hincomplete := (Bool.and_eq_true_iff.mp h).2
  cases hid : state.operationId with
  | some id => exact ⟨id, rfl⟩
  | none =>
    unfold phaseIncomplete at hincomplete
    rw [hphase, hid] at hincomplete
    simp at hincomplete

/-- Any record can be failed. -/
theorem complete_unknown {state : ShutdownRecord} (h : state.complete = true)
    (error : Option String) (captureFailure : Bool) :
    ({ state with phase := .unknown, error, captureFailure } : ShutdownRecord).complete = true :=
  Bool.and_eq_true_iff.mpr ⟨(Bool.and_eq_true_iff.mp h).1, rfl⟩

/-- What is drained or prepared can be captured. -/
theorem complete_capturing {state : ShutdownRecord} (h : state.complete = true)
    (hphase : state.phase = .draining ∨ state.phase = .prepared ∨ state.phase = .capturing) :
    ({ state with phase := .capturing } : ShutdownRecord).complete = true := by
  obtain ⟨hrest, hincomplete⟩ := Bool.and_eq_true_iff.mp h
  refine Bool.and_eq_true_iff.mpr ⟨hrest, ?_⟩
  unfold phaseIncomplete at hincomplete ⊢
  rcases hphase with hphase | hphase | hphase
  · simpa [hphase] using hincomplete
  · simpa [hphase] using hincomplete
  · simpa [hphase] using hincomplete

end ShutdownRecord

/-- A record that the store has accepted. -/
abbrev StoredRecord := { state : ShutdownRecord // state.complete = true }

/-! ## The sandbox row and the provider -/

structure SandboxRow where
  modal_sandbox_id : Option String
  modal_object_id : Option String
  created_at : Int
  status : SandboxStatus
  runtime_version : Option String
  deriving DecidableEq

/-- What of the provider is fixed. -/
structure Provider where
  name : String
  supportsSnapshots : Bool
  supportsPersistentResume : Bool
  supportsExplicitStop : Bool
  snapshotRequiresShutdown : Bool
  /-- whether it has a `takeSnapshot` -/
  takeSnapshot : Bool
  /-- whether it has a `stopSandbox` -/
  stopSandbox : Bool

/-- `legacyShutdownRecord`; throws where the row has no generation. -/
def legacyShutdownRecord (row : SandboxRow) (provider : Provider) : Option ShutdownRecord :=
  (row.modal_sandbox_id.filter (· ≠ "")).map fun sandboxId =>
    { phase := .running
      generation := { sandboxId, createdAt := row.created_at }
      provider := some provider.name
      providerObjectId := row.modal_object_id
      lifetimeKind := .unknown
      expiresAtMs := none
      drainAtMs := none
      generationReady := false
      lifecyclePolicy := some .legacy }

/-! ## What a record says -/

def STOP_MS : Int := 60000
def CAPTURE_MS : Int := 300000
def RETIRE_MS : Int := 30000
def MARGIN_MS : Int := 30000
def RETRY_WINDOW_MS : Int := 30 * 60000

namespace ShutdownRecord

/-- `state.providerObjectId`, where it names an object. -/
def object (state : ShutdownRecord) : Option String := state.providerObjectId.filter (· ≠ "")

def currentIn (state : ShutdownRecord) (row : Option SandboxRow) : Bool :=
  row.any fun row =>
    row.modal_sandbox_id = some state.generation.sandboxId &&
      row.created_at = state.generation.createdAt

def paused (state : ShutdownRecord) : Bool :=
  state.continuationPaused.getD state.messageId.isSome

def recordedOnOtherProvider (state : ShutdownRecord) (provider : Provider) : Bool :=
  state.provider.any (· ≠ provider.name) ||
    state.receipt.any (fun receipt => receipt.provider ≠ provider.name)

/-- The receipt was captured from this generation's source. -/
def receiptCoversSource (state : ShutdownRecord) : Bool :=
  state.receipt.any fun receipt => state.generation.createdAt ≤ receipt.savedAtMs

end ShutdownRecord

namespace Provider

def canStopSource (provider : Provider) : Bool :=
  provider.supportsExplicitStop && provider.stopSandbox

/-- An unanswered routine checkpoint can be settled. -/
def settles (provider : Provider) (op : CaptureOperation) : Bool :=
  op.after = .continue && !provider.snapshotRequiresShutdown

end Provider

structure CaptureWindow where
  captureByMs : Int
  retireByMs : Int

/-- One absolute budget for a capture that does not wait for the runtime. -/
def emergencyWindow (expiresAtMs : Option Int) (now : Int) : CaptureWindow :=
  let full := now + CAPTURE_MS + RETIRE_MS + MARGIN_MS
  let endMs := expiresAtMs.elim full (min · full)
  { captureByMs := endMs - RETIRE_MS - MARGIN_MS, retireByMs := endMs - MARGIN_MS }

namespace ShutdownRecord

def window (state : ShutdownRecord) (window : CaptureWindow) : ShutdownRecord :=
  { state with captureByMs := some window.captureByMs, retireByMs := some window.retireByMs }

def canRetryShutdown (state : ShutdownRecord) (provider : Provider) (now : Int) : Bool :=
  let canCapture :=
    provider.supportsPersistentResume && provider.canStopSource ||
      provider.supportsSnapshots && provider.takeSnapshot
  state.discarding.isNone && !state.restoreInvoked && !state.checkpointInFlight &&
    !state.sourceRetired && state.object.isSome &&
    (!state.receiptCoversSource ||
      state.receipt.any (fun receipt => receipt.captureKind = some .checkpoint)) &&
    state.stopByMs.any (fun stopByMs => now < stopByMs + RETRY_WINDOW_MS) &&
    state.captureByMs.isSome && canCapture &&
    now + MARGIN_MS < (emergencyWindow state.expiresAtMs now).captureByMs

/-- A new window leaves nothing out. -/
theorem phaseIncomplete_window {state : ShutdownRecord} (h : state.phaseIncomplete = false)
    (window : CaptureWindow) : (state.window window).phaseIncomplete = false := by
  unfold phaseIncomplete at h
  unfold phaseIncomplete ShutdownRecord.window
  simp only [Option.isNone_some, Bool.or_false, Bool.or_eq_false_iff] at h ⊢
  obtain ⟨⟨hreceipt, hclaimed⟩, hretiring⟩ := h
  refine ⟨⟨hreceipt, ?_⟩, ?_⟩
  · simp only [Bool.and_eq_false_imp, Bool.or_eq_false_iff] at hclaimed ⊢
    exact fun hphase => (hclaimed hphase).1.1
  · simp only [Bool.and_eq_false_imp, Bool.or_eq_false_iff] at hretiring ⊢
    exact fun hphase => (hretiring hphase).1

/-- So can what is captured again, with a new operation and a new window. -/
theorem complete_retried {state : ShutdownRecord} {provider : Provider} {now : Int}
    (h : state.complete = true) (hretry : state.canRetryShutdown provider now = true)
    (operation : Nat) (window : CaptureWindow) :
    ({ ({ state with error := none, operationId := some operation } : ShutdownRecord).window window
      with phase := .capturing } : ShutdownRecord).complete = true := by
  have hstop : state.stopByMs.isSome = true := by
    unfold canRetryShutdown at hretry
    simp only [Bool.and_eq_true] at hretry
    obtain ⟨⟨⟨⟨_, hstop⟩, _⟩, _⟩, _⟩ := hretry
    obtain ⟨stopByMs, hmem, _⟩ := (Option.any_eq_true _ _).mp hstop
    exact Option.isSome_iff_exists.mpr ⟨stopByMs, hmem⟩
  refine Bool.and_eq_true_iff.mpr ⟨(Bool.and_eq_true_iff.mp h).1, ?_⟩
  unfold phaseIncomplete ShutdownRecord.window
  simp [hstop]

def canAutomaticallyRetryCapture (state : ShutdownRecord) (provider : Provider)
    (row : Option SandboxRow) (now : Int) : Bool :=
  state.captureFailure && state.currentIn row && !state.recordedOnOtherProvider provider &&
    state.canRetryShutdown provider now

end ShutdownRecord

/-- What `decideCheckpointSettlement` has a drain do with a routine checkpoint. -/
inductive DrainSettlement where
  | wait (untilMs : Option Int)
  | handoff

/-- `decideCheckpointSettlement` in the phase `draining`. -/
def decideCheckpointSettlement (op : CaptureOperation) (owned : Bool) (now : Int) :
    DrainSettlement :=
  if now < op.settleAtMs then .wait (some op.settleAtMs)
  else if owned then .wait none
  else .handoff

end BackgroundAgents.Session.SandboxShutdown

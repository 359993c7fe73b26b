import BackgroundAgents.Lib.Coroutine
import BackgroundAgents.Session.BudgetService
import BackgroundAgents.Session.SessionStatus

/-!
# The prompt queue

`SessionMessageQueue` with the handlers that share its tables,
`ExecutionStopCoordinator` and `SandboxExecutionEventHandler`, as one coroutine
machine. A `Frame` is an await one of these functions can be suspended at, with
the locals it still needs; a `Call` is an entry point, or a change of the
surroundings (the sandbox's socket, its admission, the clock). `turn` runs the
code between two awaits.

What is awaited and not modelled (a projection to the index, the alarm, the
provider, the MCP gateway) answers whatever it likes, `Answer`. A function whose
last await is followed by nothing that touches the session waits in `trailing`.
Work submitted in the background touches no modelled state.

The `log` is a ghost: it keeps every commit with the storage before and after
it, and every command handed to the sandbox with the storage, the target and the
claim at that moment, so that what must hold "whenever" something happens can be
stated about the log. The `revision` a suspended claim carries is a ghost too:
it is the `mcp_revision` the claim gave to the message.
-/

namespace BackgroundAgents.Session

open BackgroundAgents.Coroutine

abbrev SocketId := Nat

/-- `getSandboxCommandTarget` -/
inductive CommandTarget where
  | unavailable
  | booting
  | dispatch (socket : SocketId)
  deriving DecidableEq, Repr

/-- The `prompt` command. -/
structure PromptCommand where
  messageId : MessageId
  content : String
  managedMcp : Bool
  deriving DecidableEq, Repr

/-- What the run has done, in order. -/
inductive Effect where
  /-- A transaction was committed. -/
  | wrote (before after : SessionDb)
  /-- A prompt command was handed to `socket`, for the claim `revision` of its message. -/
  | sentPrompt (command : PromptCommand) (revision : Nat) (socket : SocketId)
      (target : CommandTarget) (db : SessionDb)
  /-- A pump gave up the claim `revision` of `messageId` without sending. -/
  | unsent (messageId : MessageId) (revision : Nat) (db : SessionDb)
  | sentStop (socket : SocketId)
  deriving DecidableEq

/-- What the queue's functions share. -/
structure QueueState where
  now : Millis
  db : SessionDb
  /-- `mayDispatch()` -/
  mayDispatch : Bool := true
  /-- `getSandboxPromptBlockReason() !== null` -/
  promptBlocked : Bool := false
  target : CommandTarget := .unavailable
  /-- `getSandboxSocket()` -/
  sandboxSocket : Option SocketId := none
  /-- The sockets a `send` still reaches. -/
  openSockets : List SocketId := []
  /-- The message ids `generateId` has returned. -/
  issued : List MessageId := []
  log : List Effect := []
  deriving DecidableEq

/-- What is fixed when the session is created. -/
structure QueueConfig where
  /-- `checkHarnessPromptCompatibility`, of a message's model override. -/
  harnessIncompatibility : Option String → Option String := fun _ => none
  /-- Whether `prepareManagedMcp` is configured. -/
  managedMcp : Bool := false

inductive TerminationResult where
  | noAction
  | sandboxTerminated
  | heartbeatLost
  | abandoned (reason : String)
  deriving DecidableEq, Repr

/-- What an await answers. -/
inductive Answer where
  | resolved
  | rejected
  | authenticated (error : Option String)
  | prepared (managed : Bool)
  | contextChanged
  | terminated (result : TerminationResult)
  deriving DecidableEq, Repr

/-- An await, with the locals its function still needs. -/
inductive Frame where
  /-- `processMessageQueue` at `getProviderAuthenticationError`. -/
  | providerAuth (message : MessageRow) (now : Millis)
  /-- `processMessageQueue` at `prepareManagedMcp`, after the claim. -/
  | managedMcp (message : MessageRow) (now : Millis) (socket : SocketId) (revision : Nat)
  /-- An await followed by `processMessageQueue()`. -/
  | thenPump
  /-- `redrivePendingAutofix` at its transition. -/
  | redriven
  /-- The last await of a function. -/
  | trailing
  /-- `terminateUnresponsiveSandbox`, followed by `resumeAfterSandboxTermination()`. -/
  | terminating
  /-- `deliver` at the alarm and the status. -/
  | delivering (preparation : ExecutionStopPreparation) (stopSent : Bool)
  /-- `handleExecutionComplete` at `deliverTransition`. -/
  | completionDelivered (event : ExecutionCompleteEvent)
      (completion : Option RecordedMessageCompletion)
  /-- `handleExecutionComplete` at `projectTerminalMessage`. -/
  | completionProjected (event : ExecutionCompleteEvent)
  /-- `handleExecutionComplete` at `reconcileAfterExecution`. -/
  | completionReconciled
  /-- `updateLimit` at `deliverTransition`. -/
  | limitDelivered (exhausted : Bool)
  /-- `handleFatalSandboxFailure` at `failStuckProcessingMessage`. -/
  | fatalSettled (bootPrompt : Option MessageId)
  /-- `handleFatalSandboxFailure` at the termination. -/
  | fatalTerminated (bootPrompt : Option MessageId)
  deriving DecidableEq

abbrev QueueTurn := Turn QueueState Frame Unit

/-! ## Shared steps -/

/-- Commit a transaction. -/
def QueueState.commit (s : QueueState) (db : SessionDb) : QueueState :=
  { s with db := db, log := s.log ++ [.wrote s.db db] }

def QueueState.record (s : QueueState) (e : Effect) : QueueState :=
  { s with log := s.log ++ [e] }

/-- Await something that ends the function. -/
def finishing (s : QueueState) : QueueTurn := .await s .trailing

/-- `failMessage` -/
def failMessage (s : QueueState) (m : MessageId) (error : String) (completedAt : Millis)
    (expected : MessageStatus) : Bool × QueueState :=
  match recordFailure s.db m error completedAt expected with
  | (some _, db) => (true, s.commit db)
  | (none, _) => (false, s)

/-- `SessionStatusService.reconcileAfterExecution`, its local half. -/
def reconciled (s : QueueState) (success : Bool) : QueueState :=
  s.commit (reconcileAfterExecution s.db success s.now)

/-! ## `ExecutionStopCoordinator` -/

/-- `recoverStopConfirmationTimeout` -/
def recoverStopConfirmationTimeout (s : QueueState) : QueueTurn :=
  match getMessageAwaitingStopConfirmation s.db with
  | none => .return s ()
  | some (_, deadline) => if s.now < deadline then finishing s else .await s .terminating

/-- `deliver`, up to its await. -/
def deliver (s : QueueState) (preparation : ExecutionStopPreparation) : QueueTurn :=
  let stopSent := s.sandboxSocket.any s.openSockets.contains
  let told :=
    match s.sandboxSocket with
    | some socket => if stopSent then s.record (.sentStop socket) else s
    | none => s
  .await (reconciled told false) (.delivering preparation stopSent)

/-- `stop` -/
def stop (s : QueueState) (reason : String) : QueueTurn :=
  match prepare s.db reason s.now with
  | (none, _) => .return s ()
  | (some preparation, db) => deliver (s.commit db) preparation

/-! ## `processMessageQueue` -/

/-- The prompt cannot be authenticated, or its model cannot run: it fails. -/
def authenticationFailed (s : QueueState) (message : MessageRow) (error : String)
    (now : Millis) : QueueTurn :=
  match failMessage s message.id error now .pending with
  | (true, failed) => .await (reconciled failed false) .thenPump
  | (false, same) => .return same ()

/-- `processMessageQueue`, up to its first await. -/
def processMessageQueue (cfg : QueueConfig) (s : QueueState) : QueueTurn :=
  if !s.mayDispatch then .return s ()
  else if isSessionClosed s.db then .return s ()
  else
    match getMessageAwaitingStopConfirmation s.db with
    | some (_, deadline) =>
      if deadline ≤ s.now then recoverStopConfirmationTimeout s else finishing s
    | none =>
      if s.db.session.budgetExhausted then .return s ()
      else if (getProcessingMessage s.db).isSome then .return s ()
      else
        match getNextPendingMessage s.db with
        | none => .return s ()
        | some message =>
          match cfg.harnessIncompatibility message.model with
          | some error => authenticationFailed s message error s.now
          | none => .await s (.providerAuth message s.now)

/-- `isPromptStillDispatchable` -/
def isPromptStillDispatchable (s : QueueState) (m : MessageId) : Bool :=
  isSessionPromptable s.db.session.status && s.db.messageStatus? m = some .pending

/-- The pump gives the claim back unsent. -/
def giveBack (s : QueueState) (m : MessageId) (revision : Nat) : QueueState :=
  let reverted := s.commit (updateMessageToPending s.db m)
  reverted.record (.unsent m revision reverted.db)

/-- Send the claimed prompt. -/
def sendPrompt (s : QueueState) (message : MessageRow) (socket : SocketId) (revision : Nat)
    (managed : Bool) : QueueTurn :=
  if s.openSockets.contains socket then
    finishing <| s.record <|
      .sentPrompt ⟨message.id, message.content, managed⟩ revision socket s.target s.db
  else .await (giveBack s message.id revision) .terminating

/-- `processMessageQueue` after the provider's answer. -/
def afterProviderAuth (cfg : QueueConfig) (s : QueueState) (message : MessageRow) (now : Millis)
    (error : Option String) : QueueTurn :=
  if !s.mayDispatch then .return s ()
  else if s.db.session.budgetExhausted then .return s ()
  else
    match error with
    | some error => authenticationFailed s message error now
    | none =>
      match s.target with
      | .booting => .return s ()
      | .unavailable =>
        -- no claim guards this path: it re-reads what it acts on, and pumps again
        if !isPromptStillDispatchable s message.id then processMessageQueue cfg s
        else .return s ()
      | .dispatch socket =>
        match startMessageProcessing s.db message.id now
            (.userMessage message.id message.content) with
        | none => .raise s
        | some (false, _) => .return s ()
        | some (true, db) =>
          let claimed := s.commit db
          let revision := ((db.message? message.id).map MessageRow.mcpRevision).getD 0
          if cfg.managedMcp then .await claimed (.managedMcp message now socket revision)
          else sendPrompt claimed message socket revision false

/-- `processMessageQueue` after the MCP gateway's answer. -/
def afterManagedMcp (cfg : QueueConfig) (s : QueueState) (message : MessageRow)
    (socket : SocketId) (revision : Nat) : Answer → Option QueueTurn
  | .prepared managed =>
    some <|
      if s.db.messageStatus? message.id ≠ some .processing then
        .return (s.record (.unsent message.id revision s.db)) ()
      else if !s.mayDispatch || s.target ≠ .dispatch socket then
        processMessageQueue cfg (giveBack s message.id revision)
      else sendPrompt s message socket revision managed
  | .contextChanged =>
    some <|
      if s.db.messageStatus? message.id = some .processing then
        processMessageQueue cfg (giveBack s message.id revision)
      else .return (s.record (.unsent message.id revision s.db)) ()
  | .rejected =>
    some <|
      match failMessage s message.id "Managed MCP preparation unavailable" s.now .processing with
      | (true, failed) =>
        .await (reconciled (failed.record (.unsent message.id revision failed.db)) false) .thenPump
      | (false, same) => .return (same.record (.unsent message.id revision same.db)) ()
  | _ => none

/-- `resumeAfterSandboxTermination` -/
def resumeAfterSandboxTermination (cfg : QueueConfig) (s : QueueState) : QueueTurn :=
  match getMessageAwaitingStopConfirmation s.db with
  | none => processMessageQueue cfg s
  | some (m, _) =>
    processMessageQueue cfg (s.commit (clearMessageAwaitingStopConfirmation s.db m))

/-- `deliver` after its await; `alarmed` says whether the alarm was set. -/
def afterDelivery (s : QueueState) (preparation : ExecutionStopPreparation)
    (stopSent alarmed : Bool) : QueueTurn :=
  if stopSent && alarmed then .return s ()
  else if getMessageAwaitingStopConfirmation s.db ≠
      some (preparation.failure.messageId, preparation.stopConfirmationDeadline) then
    .return s ()
  else .await s .terminating

/-! ## Entry points -/

/-- A prompt as a client or the API sends it. `messageId` is what `generateId` returns. -/
structure PromptRequest where
  messageId : MessageId
  authorId : Nat := 0
  content : String
  source : MessageSource := .web
  model : Option String := none
  callbackContext : Option String := none
  clientRequestId : Option Nat := none
  requestFingerprint : Option Nat := none
  attachmentIds : List Nat := []
  deriving DecidableEq

def PromptRequest.create (r : PromptRequest) (now : Millis) : CreateMessageData where
  id := r.messageId
  authorId := r.authorId
  content := r.content
  source := r.source
  model := r.model
  callbackContext := r.callbackContext
  clientRequestId := r.clientRequestId
  requestFingerprint := r.requestFingerprint
  createdAt := now

/-- `findDuplicatePrompt`: `none` for new work, otherwise whether the retry is the
request it names. -/
def findDuplicatePrompt (s : QueueState) (r : PromptRequest) : Option Bool := do
  let existing ← r.clientRequestId.bind (getMessageByClientRequestId s.db)
  some (existing.authorId = r.authorId && existing.requestFingerprint = r.requestFingerprint)

/-- The synchronous core of an enqueue: checks, idempotency lookup and insert. -/
def enqueuePrompt (cfg : QueueConfig) (s : QueueState) (r : PromptRequest) : QueueTurn :=
  if isSessionClosed s.db || s.promptBlocked then .raise s
  else
    match findDuplicatePrompt s r with
    | some true => .await s .thenPump
    | some false => .raise s
    | none =>
      if s.db.session.budgetExhausted then .raise s
      else if maxUnfinishedPrompts ≤ getPendingOrProcessingCount s.db then .raise s
      else if (cfg.harnessIncompatibility r.model).isSome then .raise s
      else
        match createMessageWithAttachments s.db (r.create s.now) r.attachmentIds with
        | none => .raise s
        | some db =>
          let inserted := s.commit db
          .await (inserted.commit (beginTransition inserted.db .active s.now)) .thenPump

/-- `redrivePendingAutofix` -/
def redrivePendingAutofix (s : QueueState) (m : MessageId) : QueueTurn :=
  if s.db.messageStatus? m ≠ some .pending || isSessionClosed s.db then .return s ()
  else .await (s.commit (beginTransition s.db .active s.now)) .redriven

/-- Review feedback relayed from GitHub. -/
structure AutofixRequest where
  messageId : MessageId
  authorId : Nat := 0
  content : String
  feedbackKey : Nat
  pullRequestKey : Nat
  attemptLimit : Option Nat := none
  deriving DecidableEq

/-- `AUTOFIX_ATTEMPT_WINDOW_MS` -/
def autofixAttemptWindowMs : Millis := 24 * 60 * 60 * 1000

def AutofixRequest.admission (r : AutofixRequest) (s : QueueState) : AdmitAutofixMessageData where
  message :=
    { id := r.messageId
      authorId := r.authorId
      content := r.content
      source := .github
      createdAt := s.now }
  feedbackKey := r.feedbackKey
  pullRequestKey := r.pullRequestKey
  attemptLimit := r.attemptLimit
  windowStart := s.now - autofixAttemptWindowMs
  sessionClosed := isSessionClosed s.db

/-- `enqueueAutofix`, after its policy await. -/
def enqueueAutofix (s : QueueState) (r : AutofixRequest) : QueueTurn :=
  match admitAutofixMessage s.db (r.admission s) with
  | none => .raise s
  | some (.rejected _, _) => .return s ()
  | some (.duplicate m, _) => redrivePendingAutofix s m
  | some (.enqueued m, db) => redrivePendingAutofix (s.commit db) m

def lookupAutofix (s : QueueState) (feedbackKey : Nat) : QueueTurn :=
  match getAutofixMessageId s.db feedbackKey with
  | none => .return s ()
  | some m => redrivePendingAutofix s m

def cancelQueuedPrompt (s : QueueState) (m : MessageId) : QueueTurn :=
  match cancelPendingMessage s.db m with
  | (false, _) => .return s ()
  | (true, db) =>
    let removed := s.commit db
    finishing (removed.commit (reconcileAfterQueueRemoval removed.db s.now))

def failPendingMessage (s : QueueState) (m : MessageId) (error : String) : QueueTurn :=
  match failMessage s m error s.now .pending with
  | (true, failed) => finishing (reconciled failed false)
  | (false, same) => .return same ()

def failStuckProcessingMessage (s : QueueState) (error : String) : QueueTurn :=
  match getProcessingMessage s.db with
  | none => .return s ()
  | some processing =>
    match failMessage s processing.id error s.now .processing with
    | (true, failed) => finishing (reconciled failed false)
    | (false, same) => .return same ()

/-- A shutdown or a replacement of the sandbox fails the running turn, and has the
status follow the messages. -/
def interrupt (s : QueueState) (error : String) : QueueState :=
  let failed :=
    match getProcessingMessage s.db with
    | none => s
    | some processing => (failMessage s processing.id error s.now .processing).2
  failed.commit (reconcileFromMessageState failed.db s.now)

/-- `handleFatalSandboxFailure`. The termination it starts may interrupt the running
turn before it yields. -/
def handleFatalSandboxFailure (s : QueueState) (reason : String) (interrupts : Bool) :
    QueueTurn :=
  let serving :=
    (getProcessingMessage s.db).isSome || (getMessageAwaitingStopConfirmation s.db).isSome
  let bootPrompt := if serving then none else (getNextPendingMessage s.db).map MessageRow.id
  let terminating := if interrupts then interrupt s reason else s
  (failStuckProcessingMessage terminating reason).awaitedBy (.fatalSettled bootPrompt)

/-- `deliverTransition`, as far as it awaits. -/
def deliverTransition (s : QueueState) (transition : BudgetTransition) : QueueTurn :=
  match transition.stopPreparation with
  | none => .return s ()
  | some preparation => deliver s preparation

/-- `handleStep` of a `step_finish` event. -/
def handleStepFinish (s : QueueState) (event : StepFinishEvent) : QueueTurn :=
  match ingestStepFinish s.db event (some event.messageId) s.now with
  | none => .raise s
  | some (transition, db) => deliverTransition (s.commit db) transition

/-- `handleExecutionComplete`, up to its first await. -/
def handleExecutionComplete (s : QueueState) (event : ExecutionCompleteEvent) : QueueTurn :=
  match completeExecution s.db event ((getProcessingMessage s.db).map MessageRow.id) s.now with
  | none => .raise s
  | some (completion, transition, db) =>
    (deliverTransition (s.commit db) transition).awaitedBy (.completionDelivered event completion)

def updateLimit (s : QueueState) (maxCostUsd : Option ℚ) : QueueTurn :=
  if s.db.session.maxCostUsd = maxCostUsd then .return s ()
  else
    match commitLimit s.db maxCostUsd s.now with
    | none => .raise s
    | some (transition, db) =>
      let exhausted := maxCostUsd.any fun limit => limit ≤ s.db.session.totalCost
      (deliverTransition (s.commit db) transition).awaitedBy (.limitDelivered exhausted)

/-- `SessionStatusService.cancel` with `cancelExecution`: the session is closed, and
every unfinished message fails, in one turn. -/
def cancel (s : QueueState) : QueueTurn :=
  let closed := s.commit
    { s.db with
      session :=
        { s.db.session with
          status := .cancelled
          updatedAt := max s.now (s.db.session.updatedAt + 1)
          statusRevision := s.db.session.statusRevision + 1 } }
  let drained := (listPendingMessagesWithCreatedAt closed.db).foldl (fun s' message =>
    (failMessage s' message.id "Execution was cancelled before it started" s.now .pending).2) closed
  let ended :=
    match getProcessingMessage drained.db with
    | none => drained
    | some processing =>
      (failMessage drained processing.id "Execution was cancelled" s.now .processing).2
  finishing <|
    match s.sandboxSocket with
    | some socket => if s.openSockets.contains socket then ended.record (.sentStop socket) else ended
    | none => ended

/-- Archiving is refused while work is queued. -/
def archive (s : QueueState) : QueueTurn :=
  if s.db.session.status = .cancelled || 0 < getPendingOrProcessingCount s.db then .return s ()
  else finishing (s.commit (beginTransition s.db .archived s.now))

def unarchive (s : QueueState) : QueueTurn :=
  if s.db.session.status ≠ .archived then .return s ()
  else finishing (s.commit (settleFromMessageState s.db s.now))

/-- `applySandboxRecovery` -/
def applySandboxRecovery (cfg : QueueConfig) (s : QueueState) (bootPrompt : Option MessageId) :
    TerminationResult → QueueTurn
  | .sandboxTerminated => resumeAfterSandboxTermination cfg s
  | .abandoned reason =>
    match bootPrompt with
    | none => .return s ()
    | some m => failPendingMessage s m reason
  | .noAction | .heartbeatLost => .return s ()

/-! ## The machine -/

/-- Who starts a turn: a caller of the session, or its surroundings. -/
inductive Call where
  | enqueuePrompt (request : PromptRequest)
  | enqueueAutofix (request : AutofixRequest)
  | lookupAutofix (feedbackKey : Nat)
  | cancelQueuedPrompt (m : MessageId)
  | processMessageQueue
  | stop (reason : String)
  | recoverStopConfirmationTimeout
  | resumeAfterSandboxTermination
  | failPendingMessage (m : MessageId) (error : String)
  | failStuckProcessingMessage (error : String)
  | handleFatalSandboxFailure (reason : String) (interrupts : Bool)
  | interrupt (error : String)
  | stepFinish (event : StepFinishEvent)
  | executionComplete (event : ExecutionCompleteEvent)
  | updateLimit (maxCostUsd : Option ℚ)
  | cancel
  | archive
  | unarchive
  | setMayDispatch (allowed : Bool)
  | setPromptBlocked (blocked : Bool)
  | setSandbox (target : CommandTarget) (socket : Option SocketId) (openSockets : List SocketId)
  | tick (elapsed : Millis)
  deriving DecidableEq

/-- The message id a call generates, if it generates one. -/
def Call.generates : Call → Option MessageId
  | .enqueuePrompt r => some r.messageId
  | .enqueueAutofix r => some r.messageId
  | _ => none

def QueueState.issue (s : QueueState) : Option MessageId → QueueState
  | none => s
  | some m => { s with issued := m :: s.issued }

/-- The turn of a call, over the state in which its id has been generated. -/
def enter (cfg : QueueConfig) (s : QueueState) : Call → QueueTurn
  | .enqueuePrompt r => Session.enqueuePrompt cfg s r
  | .enqueueAutofix r => Session.enqueueAutofix s r
  | .lookupAutofix key => Session.lookupAutofix s key
  | .cancelQueuedPrompt m => Session.cancelQueuedPrompt s m
  | .processMessageQueue => Session.processMessageQueue cfg s
  | .stop reason => Session.stop s reason
  | .recoverStopConfirmationTimeout => Session.recoverStopConfirmationTimeout s
  | .resumeAfterSandboxTermination => Session.resumeAfterSandboxTermination cfg s
  | .failPendingMessage m error => Session.failPendingMessage s m error
  | .failStuckProcessingMessage error => Session.failStuckProcessingMessage s error
  | .handleFatalSandboxFailure reason interrupts =>
    Session.handleFatalSandboxFailure s reason interrupts
  | .interrupt error => .return (Session.interrupt s error) ()
  | .stepFinish event => handleStepFinish s event
  | .executionComplete event => handleExecutionComplete s event
  | .updateLimit maxCostUsd => Session.updateLimit s maxCostUsd
  | .cancel => Session.cancel s
  | .archive => Session.archive s
  | .unarchive => Session.unarchive s
  | .setMayDispatch allowed => .return { s with mayDispatch := allowed } ()
  | .setPromptBlocked blocked => .return { s with promptBlocked := blocked } ()
  | .setSandbox target socket openSockets =>
    .return { s with target := target, sandboxSocket := socket, openSockets := openSockets } ()
  | .tick elapsed => .return { s with now := s.now + elapsed } ()

/-- The turn of a frame that an await has answered. -/
def answered (cfg : QueueConfig) (s : QueueState) : Frame → Answer → Option QueueTurn
  | .providerAuth message now, .authenticated error =>
    some (afterProviderAuth cfg s message now error)
  | .managedMcp message _ socket revision, answer =>
    afterManagedMcp cfg s message socket revision answer
  | .thenPump, .resolved => some (processMessageQueue cfg s)
  | .redriven, .resolved =>
    some (if s.promptBlocked then .return s () else processMessageQueue cfg s)
  | .trailing, .resolved => some (.return s ())
  | .terminating, .resolved => some (resumeAfterSandboxTermination cfg s)
  | .delivering preparation stopSent, .resolved =>
    some (afterDelivery s preparation stopSent true)
  | .delivering preparation stopSent, .rejected =>
    some (afterDelivery s preparation stopSent false)
  | .completionProjected event, .resolved =>
    some (.await (reconciled s event.outcome.success) .completionReconciled)
  | .completionReconciled, .resolved => some (.await s .thenPump)
  | .fatalTerminated bootPrompt, .terminated result =>
    some (applySandboxRecovery cfg s bootPrompt result)
  | .providerAuth _ _, .rejected | .thenPump, .rejected | .redriven, .rejected
  | .trailing, .rejected | .terminating, .rejected | .completionReconciled, .rejected
  | .fatalTerminated _, .rejected => some (.raise s)
  -- `recordTerminalMessage` never fails its caller: a failed projection is retried later
  | _, _ => none

/-- The turn of a frame whose callee has ended. -/
def ended (cfg : QueueConfig) (s : QueueState) : Frame → Outcome Unit → Option QueueTurn
  | .completionDelivered event (some _), .returned _ =>
    some (.await s (.completionProjected event))
  | .completionDelivered _ none, .returned _ => some (.await s .thenPump)
  | .limitDelivered exhausted, .returned _ =>
    some (if exhausted then .return s () else processMessageQueue cfg s)
  | .fatalSettled bootPrompt, .returned _ => some (.await s (.fatalTerminated bootPrompt))
  | .completionDelivered _ _, .raised | .limitDelivered _, .raised
  | .fatalSettled _, .raised => some (.raise s)
  | _, _ => none

/-- One turn. `generateId` never returns the same id twice. -/
def queueTurn (cfg : QueueConfig) (s : QueueState) :
    Event Call Frame Answer Unit → Option QueueTurn
  | .enter call =>
    if call.generates.any s.issued.contains then none
    else some (enter cfg (s.issue call.generates) call)
  | .resume frame (.answered answer) => answered cfg s frame answer
  | .resume frame (.ended outcome) => ended cfg s frame outcome

def queueMachine (cfg : QueueConfig) : Machine QueueState Call Frame Answer Unit where
  turn := queueTurn cfg

abbrev QueuePool := Pool QueueState Frame Unit

/-- A session with nothing queued and nothing in flight. -/
def QueuePool.idle (s : QueueState) : QueuePool where
  shared := s
  tasks := []

end BackgroundAgents.Session

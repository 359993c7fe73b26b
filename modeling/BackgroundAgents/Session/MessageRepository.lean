import BackgroundAgents.Session.EventRepository

/-!
# `MessageRepository`

The statements and transactions the session runs on `messages`, one definition
for each method, under its name. A transaction that throws rolls back, which is
`none`; a transaction that answers returns its answer and the new storage.

The proofs read a message through `SessionDb.message?`. For each method one
lemma says which rows and which events it touches (`message?_…`, `event?_…`)
and one when it answers what (`…_cases`), so that nothing later unfolds it.
-/

namespace BackgroundAgents.Session

/-! ## Queries -/

/-- `getMessageById` -/
def SessionDb.message? (db : SessionDb) (m : MessageId) : Option MessageRow :=
  db.messages.get? m

/-- `getMessageStatus` -/
def SessionDb.messageStatus? (db : SessionDb) (m : MessageId) : Option MessageStatus :=
  (db.message? m).map MessageRow.status

def getPendingOrProcessingCount (db : SessionDb) : Nat :=
  db.messages.count fun r => r.status.unfinished

def getProcessingMessage (db : SessionDb) : Option MessageRow :=
  db.messages.find? fun r => r.status = .processing

def getMessageAwaitingStopConfirmation (db : SessionDb) : Option (MessageId × Millis) := do
  let row ← db.messages.find? fun r => r.stopConfirmationDeadline.isSome
  let deadline ← row.stopConfirmationDeadline
  some (row.id, deadline)

/-- `ORDER BY created_at ASC, rowid ASC LIMIT 1` over the pending messages. -/
def getNextPendingMessage (db : SessionDb) : Option MessageRow :=
  db.messages.first (fun r => r.status = .pending) MessageRow.queueKey

def getMessageByClientRequestId (db : SessionDb) (clientRequestId : Nat) : Option MessageRow :=
  db.messages.find? fun r => r.clientRequestId = some clientRequestId

def getAutofixMessageId (db : SessionDb) (feedbackKey : Nat) : Option MessageId :=
  (db.messages.find? fun r => r.autofixFeedbackKey = some feedbackKey).map MessageRow.id

def listPendingMessagesWithCreatedAt (db : SessionDb) : List MessageRow :=
  (db.messages.rows.filter fun r => r.status = .pending).mergeSort
    fun r r' => r.queueKey ≤ r'.queueKey

/-- The message that ended last. -/
def getLatestTerminalMessage (db : SessionDb) : Option MessageRow :=
  db.messages.last (fun r => r.status.terminal) MessageRow.terminalKey

/-! ## Statements -/

/-- The row of a message that fences the queue until its stop is confirmed. -/
def MessageRow.fence (row : MessageRow) (deadline : Millis) : MessageRow :=
  { row with stopConfirmationDeadline := some deadline }

def MessageRow.unfence (row : MessageRow) : MessageRow :=
  { row with stopConfirmationDeadline := none }

/-- The row of a message with a higher report. -/
def MessageRow.report (row : MessageRow) (reportedCostUsd : ℚ) : MessageRow :=
  { row with reportedCostUsd := reportedCostUsd }

/-- Rewrite the row with one id. -/
def SessionDb.updateMessage (db : SessionDb) (m : MessageId) (f : MessageRow → MessageRow)
    (hf : ∀ r, (f r).id = r.id := by intro _; rfl) : SessionDb :=
  { db with messages := db.messages.update (fun r => r.id = m) f hf }

def markMessageAwaitingStopConfirmation (db : SessionDb) (m : MessageId) (deadline : Millis) :
    SessionDb :=
  db.updateMessage m fun r => r.fence deadline

def clearMessageAwaitingStopConfirmation (db : SessionDb) (m : MessageId) : SessionDb :=
  db.updateMessage m fun r => r.unfence

/-- Record the runtime's cumulative cost report for a turn; the amount by which it
exceeds the highest one stored, `0` for a resent or late one and for an unknown message. -/
def raiseReportedCost (db : SessionDb) (m : MessageId) (reportedCostUsd : ℚ) : ℚ × SessionDb :=
  if reportedCostUsd ≤ 0 then (0, db)
  else
    match db.message? m with
    | none => (0, db)
    | some row =>
      let previous := row.reportedCostUsd
      if reportedCostUsd ≤ previous then (0, db)
      else
        (reportedCostUsd - previous,
          db.updateMessage m fun r => r.report reportedCostUsd)

/-- Data for creating a message. -/
structure CreateMessageData where
  id : MessageId
  authorId : Nat := 0
  content : String
  source : MessageSource
  model : Option String := none
  callbackContext : Option String := none
  clientRequestId : Option Nat := none
  requestFingerprint : Option Nat := none
  autofixFeedbackKey : Option Nat := none
  autofixPrKey : Option Nat := none
  status : MessageStatus := .pending
  createdAt : Millis
  deriving DecidableEq

/-- The `rowid` SQLite gives to an inserted row. -/
def nextRowid (messages : MessageTable) : Nat :=
  (messages.rows.map MessageRow.rowid).foldr max 0 + 1

def CreateMessageData.row (d : CreateMessageData) (rowid : Nat) : MessageRow where
  id := d.id
  rowid := rowid
  authorId := d.authorId
  content := d.content
  source := d.source
  model := d.model
  callbackContext := d.callbackContext
  clientRequestId := d.clientRequestId
  requestFingerprint := d.requestFingerprint
  autofixFeedbackKey := d.autofixFeedbackKey
  autofixPrKey := d.autofixPrKey
  status := d.status
  createdAt := d.createdAt

/-- The unique indexes of `messages` beside its primary key: one processing
message, one message per client request and per piece of feedback. -/
def violatesUniqueIndex (messages : MessageTable) (r : MessageRow) : Bool :=
  (messages.find? fun x =>
    (r.status = .processing && x.status = .processing) ||
    (r.clientRequestId.isSome && x.clientRequestId = r.clientRequestId) ||
    (r.autofixFeedbackKey.isSome && x.autofixFeedbackKey = r.autofixFeedbackKey)).isSome

def createMessage (db : SessionDb) (d : CreateMessageData) : Option SessionDb :=
  let row := d.row (nextRowid db.messages)
  if violatesUniqueIndex db.messages row then none
  else do
    let messages ← db.messages.insert? row
    some { db with messages := messages }

/-- Attach the files; throws unless every one of them was free. -/
def claimForMessage (db : SessionDb) (m : MessageId) (attachmentIds : List Nat) :
    Option SessionDb :=
  if attachmentIds.isEmpty then some db
  else
    let free : AttachmentRow → Bool := fun a =>
      attachmentIds.contains a.id && a.messageId.isNone && a.cleanupClaimedAt.isNone
    if db.attachments.count free ≠ attachmentIds.length then none
    else
      some
        { db with
          attachments := db.attachments.update free fun a => { a with messageId := some m } }

def releaseForMessage (db : SessionDb) (m : MessageId) : SessionDb :=
  { db with
    attachments := db.attachments.update (fun a => a.messageId = some m)
      fun a => { a with messageId := none } }

/-- What an `execution_complete` event says of its turn. -/
structure ExecutionOutcome where
  success : Bool
  error : Option String := none
  deriving DecidableEq, Repr

def ExecutionOutcome.status (o : ExecutionOutcome) : MessageStatus :=
  if o.success then .completed else .failed

/-- The row of a claimed message. -/
def MessageRow.claim (row : MessageRow) (startedAt : Millis) : MessageRow :=
  { row with
    status := .processing
    startedAt := some startedAt
    mcpRevision := row.mcpRevision + 1 }

/-- The row of a message whose claim was given back. -/
def MessageRow.revert (row : MessageRow) : MessageRow :=
  { row with status := .pending, startedAt := none }

/-- The row of a message that has ended. -/
def MessageRow.finish (row : MessageRow) (o : ExecutionOutcome) (completedAt : Millis) :
    MessageRow :=
  { row with
    status := o.status
    completedAt := some completedAt
    errorMessage := if o.success then none else o.error }

/-! ## Transactions -/

/-- Persist a message and its attachments atomically. -/
def createMessageWithAttachments (db : SessionDb) (d : CreateMessageData)
    (attachmentIds : List Nat) : Option SessionDb := do
  let claimed ← claimForMessage db d.id attachmentIds
  createMessage claimed d

inductive AutofixRejection where
  | sessionClosed
  | budgetExhausted
  | queueFull
  | attemptLimit
  deriving DecidableEq, Repr

inductive AutofixMessageAdmission where
  | enqueued (messageId : MessageId)
  | duplicate (messageId : MessageId)
  | rejected (reason : AutofixRejection)
  deriving DecidableEq, Repr

structure AdmitAutofixMessageData where
  message : CreateMessageData
  feedbackKey : Nat
  pullRequestKey : Nat
  attemptLimit : Option Nat
  windowStart : Millis
  sessionClosed : Bool
  deriving DecidableEq

def AdmitAutofixMessageData.create (d : AdmitAutofixMessageData) : CreateMessageData :=
  { d.message with
    autofixFeedbackKey := some d.feedbackKey
    autofixPrKey := some d.pullRequestKey }

def AdmitAutofixMessageData.attempts (d : AdmitAutofixMessageData) (db : SessionDb) : Nat :=
  db.messages.count fun r =>
    r.autofixPrKey = some d.pullRequestKey && decide (d.windowStart ≤ r.createdAt)

def admitAutofixMessage (db : SessionDb) (d : AdmitAutofixMessageData) :
    Option (AutofixMessageAdmission × SessionDb) :=
  match getAutofixMessageId db d.feedbackKey with
  | some existing => some (.duplicate existing, db)
  | none =>
    if db.session.budgetExhausted then some (.rejected .budgetExhausted, db)
    else if d.sessionClosed then some (.rejected .sessionClosed, db)
    else if maxUnfinishedPrompts ≤ getPendingOrProcessingCount db then
      some (.rejected .queueFull, db)
    else if d.attemptLimit.any (fun limit => limit ≤ d.attempts db) then
      some (.rejected .attemptLimit, db)
    else do
      let created ← createMessage db d.create
      some (.enqueued d.message.id, created)

/-- Remove a pending web prompt that nothing else waits for. -/
def cancelPendingMessage (db : SessionDb) (m : MessageId) : Bool × SessionDb :=
  match db.message? m with
  | none => (false, db)
  | some row =>
    if row.status ≠ .pending ∨ row.source ≠ .web ∨ row.callbackContext ≠ none then (false, db)
    else
      let released := releaseForMessage db m
      let mine : MessageRow → Bool := fun r => r.id = m && r.status = .pending
      (released.messages.count mine = 1,
        { released with messages := released.messages.delete mine })

/-- Claim a pending message for dispatch, while no other is being processed. -/
def startMessageProcessing (db : SessionDb) (m : MessageId) (startedAt : Millis)
    (userMessageEvent : EventData) : Option (Bool × SessionDb) :=
  match db.message? m with
  | none => some (false, db)
  | some row =>
    if row.status ≠ .pending ∨ (getProcessingMessage db).isSome then some (false, db)
    else do
      let claimed := db.updateMessage m fun r => r.claim startedAt
      let recorded ← createEvent claimed
        { id := .userMessage m
          data := userMessageEvent
          messageId := some m
          createdAt := startedAt }
      some (true, recorded)

/-- Give an unsent claim back. -/
def updateMessageToPending (db : SessionDb) (m : MessageId) : SessionDb :=
  match db.message? m with
  | none => db
  | some row =>
    if row.status ≠ .processing then db
    else
      let reverted := db.updateMessage m fun r => r.revert
      { reverted with events := reverted.events.delete fun e => e.id = .userMessage m }

structure RecordedMessageCompletion where
  messageId : MessageId
  messageCreatedAt : Millis
  messageStartedAt : Option Millis
  completedAt : Millis
  status : MessageStatus
  deriving DecidableEq, Repr

def recordMessageCompletion (db : SessionDb) (m : MessageId) (o : ExecutionOutcome)
    (completedAt : Millis) (expectedStatus : MessageStatus) :
    Option RecordedMessageCompletion × SessionDb :=
  match db.message? m with
  | none => (none, db)
  | some row =>
    if row.status ≠ expectedStatus then (none, db)
    else
      let ended := db.updateMessage m fun r => r.finish o completedAt
      (some
        { messageId := m
          messageCreatedAt := row.createdAt
          messageStartedAt := row.startedAt
          completedAt := completedAt
          status := o.status },
        upsertExecutionCompleteEvent ended m o.success o.error completedAt)

/-! ## What the queries answer -/

variable {db : SessionDb}

variable {row : MessageRow} {m : MessageId}

theorem SessionDb.id_of_message? (h : db.message? m = some row) :
    row.id = m :=
  Table.key_of_get? h

theorem getProcessingMessage_some (h : getProcessingMessage db = some row) :
    db.message? row.id = some row ∧ row.status = .processing := by
  obtain ⟨hrow, hp⟩ := Table.find?_some h
  exact ⟨hrow, by simpa using hp⟩

theorem getProcessingMessage_none :
    getProcessingMessage db = none ↔
      ∀ m row, db.message? m = some row → row.status ≠ .processing := by
  rw [getProcessingMessage, Table.find?_none]
  simp only [decide_eq_false_iff_not, SessionDb.message?, ne_eq]

theorem getMessageAwaitingStopConfirmation_none :
    getMessageAwaitingStopConfirmation db = none ↔
      ∀ m row, db.message? m = some row → row.stopConfirmationDeadline = none := by
  constructor
  · intro h m row hrow
    cases hf : db.messages.find? fun r => r.stopConfirmationDeadline.isSome with
    | none => simpa using Table.find?_none.mp hf m row hrow
    | some x =>
      obtain ⟨d, hd⟩ := Option.isSome_iff_exists.mp (Table.find?_some hf).2
      simp [getMessageAwaitingStopConfirmation, hf, hd] at h
  · intro h
    have hf : db.messages.find? (fun r => r.stopConfirmationDeadline.isSome) = none := by
      refine Table.find?_none.mpr ?_
      intro m row hrow
      rw [h m row hrow]
      rfl
    simp [getMessageAwaitingStopConfirmation, hf]

theorem getNextPendingMessage_some (h : getNextPendingMessage db = some row) :
    db.message? row.id = some row ∧ row.status = .pending ∧
      ∀ m x, db.message? m = some x → x.status = .pending → row.queueKey ≤ x.queueKey := by
  obtain ⟨hrow, hp, hmin⟩ := Table.first_some h
  refine ⟨hrow, by simpa using hp, ?_⟩
  intro m x hx hpx
  exact hmin m x hx (by simpa using hpx)

theorem getNextPendingMessage_none :
    getNextPendingMessage db = none ↔
      ∀ m row, db.message? m = some row → row.status ≠ .pending := by
  rw [getNextPendingMessage, Table.first_none]
  simp only [decide_eq_false_iff_not, SessionDb.message?, ne_eq]

theorem getPendingOrProcessingCount_eq_zero :
    getPendingOrProcessingCount db = 0 ↔
      ∀ m row, db.message? m = some row → row.status.unfinished = false :=
  Table.count_eq_zero

theorem getLatestTerminalMessage_some (h : getLatestTerminalMessage db = some row) :
    db.message? row.id = some row ∧ row.status.terminal = true ∧
      ∀ m x, db.message? m = some x → x.status.terminal = true →
        x.terminalKey ≤ row.terminalKey :=
  Table.last_some h

theorem getLatestTerminalMessage_none :
    getLatestTerminalMessage db = none ↔
      ∀ m row, db.message? m = some row → row.status.terminal = false :=
  Table.last_none

/-! ## What the statements do -/

theorem message?_updateMessage (db : SessionDb) (m : MessageId) (f : MessageRow → MessageRow)
    (hf : ∀ r, (f r).id = r.id) (k : MessageId) :
    (db.updateMessage m f hf).message? k =
      if k = m then (db.message? k).map f else db.message? k := by
  rw [SessionDb.message?, SessionDb.updateMessage, Table.get?_update]
  cases hk : db.messages.get? k with
  | none => simp [SessionDb.message?, hk]
  | some r =>
    have hid : r.id = k := Table.key_of_get? hk
    simp only [Option.map_some, hid, decide_eq_true_eq, SessionDb.message?, hk]
    split <;> rfl

theorem raiseReportedCost_cases (db : SessionDb) (m : MessageId) (cost : ℚ) :
    (raiseReportedCost db m cost = (0, db) ∧
      (cost ≤ 0 ∨ db.message? m = none ∨
        ∃ row, db.message? m = some row ∧ cost ≤ row.reportedCostUsd)) ∨
    ∃ row, db.message? m = some row ∧ 0 < cost ∧ row.reportedCostUsd < cost ∧
      raiseReportedCost db m cost =
        (cost - row.reportedCostUsd,
          db.updateMessage m fun r => r.report cost) := by
  unfold raiseReportedCost
  split
  next h => exact .inl ⟨rfl, .inl h⟩
  next h =>
    split
    next hm => exact .inl ⟨rfl, .inr (.inl hm)⟩
    next row hm =>
      dsimp only
      split
      next hle => exact .inl ⟨rfl, .inr (.inr ⟨row, hm, hle⟩)⟩
      next hle => exact .inr ⟨row, hm, not_le.mp h, not_le.mp hle, rfl⟩

variable {db db' : SessionDb}

theorem createMessage_some {d : CreateMessageData} (h : createMessage db d = some db') :
    db' = { db with messages := db'.messages } ∧ db.message? d.id = none ∧
      ∀ k, db'.message? k =
        if d.id = k then some (d.row (nextRowid db.messages)) else db.message? k := by
  unfold createMessage at h
  dsimp only at h
  split at h
  next => cases h
  next =>
    simp only [Option.bind_eq_bind, Option.bind_eq_some_iff] at h
    obtain ⟨messages, hins, hdb⟩ := h
    cases hdb
    exact ⟨rfl, Table.get?_of_insert? hins, Table.get?_insert? hins⟩

/-- The attachments `claimForMessage` moves are the free ones, and it moves them to `m`. -/
theorem claimForMessage_some {ids : List Nat} (h : claimForMessage db m ids = some db') :
    db' = { db with attachments := db'.attachments } ∧
      ∀ a row, db'.attachments.get? a = some row →
        row.messageId = some m ∨ db.attachments.get? a = some row := by
  unfold claimForMessage at h
  split at h
  next =>
    cases h
    exact ⟨rfl, fun a row hrow => .inr hrow⟩
  next =>
    dsimp only at h
    split at h
    next => cases h
    next =>
      cases h
      refine ⟨rfl, ?_⟩
      intro a row hrow
      rw [Table.get?_update, Option.map_eq_some_iff] at hrow
      obtain ⟨old, hold, hrow⟩ := hrow
      split at hrow
      next =>
        cases hrow
        exact .inl rfl
      next =>
        cases hrow
        exact .inr hold

/-- No attachment is left with a released message, and the others keep theirs. -/
theorem releaseForMessage_attachments (db : SessionDb) (m : MessageId) {a : Nat}
    {row : AttachmentRow} (h : (releaseForMessage db m).attachments.get? a = some row) :
    row.messageId ≠ some m ∧
      (row.messageId = none ∨ db.attachments.get? a = some row) := by
  rw [releaseForMessage, Table.get?_update, Option.map_eq_some_iff] at h
  obtain ⟨old, hold, hrow⟩ := h
  split at hrow
  next =>
    cases hrow
    exact ⟨nofun, .inl rfl⟩
  next hne =>
    cases hrow
    exact ⟨by simpa using hne, .inr hold⟩

/-! ## What the transactions do -/

theorem createMessageWithAttachments_some {d : CreateMessageData} {ids : List Nat}
    (h : createMessageWithAttachments db d ids = some db') :
    db' = { db with messages := db'.messages, attachments := db'.attachments } ∧
      db.message? d.id = none ∧
      (∀ k, db'.message? k =
        if d.id = k then some (d.row (nextRowid db.messages)) else db.message? k) ∧
      ∀ a row, db'.attachments.get? a = some row →
        row.messageId = some d.id ∨ db.attachments.get? a = some row := by
  simp only [createMessageWithAttachments, Option.bind_eq_bind, Option.bind_eq_some_iff] at h
  obtain ⟨claimed, hclaim, hcreate⟩ := h
  obtain ⟨hc, hatt⟩ := claimForMessage_some hclaim
  obtain ⟨hd, hnone, hmsg⟩ := createMessage_some hcreate
  have hmessages : claimed.messages = db.messages := by rw [hc]
  have hread : claimed.message? = db.message? := by
    funext k
    rw [SessionDb.message?, SessionDb.message?, hmessages]
  have hatt' : db'.attachments = claimed.attachments := by rw [hd]
  refine ⟨?_, by rw [← hread]; exact hnone, ?_, ?_⟩
  · rw [hd, hc]
  · intro k
    rw [hmsg k, hread, hmessages]
  · rw [hatt']
    exact hatt

theorem admitAutofixMessage_some {d : AdmitAutofixMessageData} {a : AutofixMessageAdmission}
    (h : admitAutofixMessage db d = some (a, db')) :
    (db' = db ∧ a ≠ .enqueued d.message.id) ∨
      (a = .enqueued d.message.id ∧ createMessage db d.create = some db') := by
  unfold admitAutofixMessage at h
  split at h
  next =>
    cases h
    exact .inl ⟨rfl, nofun⟩
  next =>
    split at h
    next => cases h; exact .inl ⟨rfl, nofun⟩
    next =>
    split at h
    next => cases h; exact .inl ⟨rfl, nofun⟩
    next =>
    split at h
    next => cases h; exact .inl ⟨rfl, nofun⟩
    next =>
    split at h
    next => cases h; exact .inl ⟨rfl, nofun⟩
    next =>
      simp only [Option.bind_eq_bind, Option.bind_eq_some_iff, Option.some.injEq,
        Prod.mk.injEq] at h
      obtain ⟨created, hcreate, rfl, rfl⟩ := h
      exact .inr ⟨rfl, hcreate⟩

/-- A cancellation removes one pending message with its attachment claims, or does nothing. -/
theorem cancelPendingMessage_cases (db : SessionDb) (m : MessageId) :
    cancelPendingMessage db m = (false, db) ∨
    ∃ row db', cancelPendingMessage db m = (true, db') ∧
      db.message? m = some row ∧ row.status = .pending ∧ row.source = .web ∧
      row.callbackContext = none ∧
      db' = { db with messages := db'.messages, attachments := db'.attachments } ∧
      (∀ k, db'.message? k = if k = m then none else db.message? k) ∧
      db'.attachments = (releaseForMessage db m).attachments := by
  unfold cancelPendingMessage
  split
  next => exact .inl rfl
  next row hrow =>
    split
    next => exact .inl rfl
    next hok =>
      simp only [ne_eq, not_or, not_not] at hok
      obtain ⟨hpending, hsource, hcallback⟩ := hok
      dsimp only
      have hone := Table.count_key hrow fun r => decide (r.status = .pending)
      rw [if_pos (by simpa using hpending)] at hone
      refine .inr ⟨row, _, Prod.ext (decide_eq_true hone) rfl, hrow, hpending, hsource,
        hcallback, rfl, ?_, rfl⟩
      intro k
      rw [SessionDb.message?, Table.get?_delete]
      by_cases hk : k = m
      · subst hk
        have hget : db.messages.get? k = some row := hrow
        have hid : row.id = k := Table.key_of_get? hget
        simp [releaseForMessage, hget, hid, hpending]
      · rw [if_neg hk]
        cases hg : db.messages.get? k with
        | none => simp [releaseForMessage, SessionDb.message?, hg]
        | some x =>
          have hid : x.id = k := Table.key_of_get? hg
          simp [releaseForMessage, SessionDb.message?, hg, hid, hk]

/-- A claim takes a pending message while nothing is processing, or changes nothing. -/
theorem startMessageProcessing_some {t : Millis} {ev : EventData} {claimed : Bool}
    (h : startMessageProcessing db m t ev = some (claimed, db')) :
    (claimed = false ∧ db' = db ∧
      ∀ row, db.message? m = some row → row.status = .pending →
        getProcessingMessage db ≠ none) ∨
    ∃ row, claimed = true ∧ db.message? m = some row ∧ row.status = .pending ∧
      getProcessingMessage db = none ∧
      db' = { db with messages := db'.messages, events := db'.events } ∧
      (∀ k, db'.message? k = if k = m then some (row.claim t) else db.message? k) ∧
      db.event? (.userMessage m) = none ∧
      ∃ e, e.data = ev ∧
        ∀ id, db'.event? id = if EventId.userMessage m = id then some e else db.event? id := by
  unfold startMessageProcessing at h
  split at h
  next hnone =>
    cases h
    refine .inl ⟨rfl, rfl, ?_⟩
    intro row hrow
    rw [hnone] at hrow
    cases hrow
  next row hrow =>
    split at h
    next hbusy =>
      cases h
      refine .inl ⟨rfl, rfl, ?_⟩
      intro x hx hpending hidle
      rw [hrow] at hx
      cases hx
      simp [hpending, hidle] at hbusy
    next hfree =>
      simp only [ne_eq, not_or, not_not, Option.not_isSome_iff_eq_none] at hfree
      obtain ⟨hpending, hidle⟩ := hfree
      simp only [Option.bind_eq_bind, Option.bind_eq_some_iff, Option.some.injEq,
        Prod.mk.injEq] at h
      obtain ⟨recorded, hev, rfl, rfl⟩ := h
      obtain ⟨hdb, hfresh, hevents⟩ := createEvent_some hev
      refine .inr ⟨row, rfl, hrow, hpending, hidle, ?_, ?_, hfresh, _, ?_, hevents⟩
      · rw [hdb]
        rfl
      · intro k
        have hmsg : recorded.message? k = (db.updateMessage m fun r => r.claim t).message? k := by
          rw [hdb]
          rfl
        rw [hmsg, message?_updateMessage db m (fun r => r.claim t) (fun _ => rfl) k]
        by_cases hk : k = m
        · rw [if_pos hk, if_pos hk, hk, hrow]
          rfl
        · rw [if_neg hk, if_neg hk]
      · rfl

/-- A claim throws only over a `user_message` event that is already there. -/
theorem startMessageProcessing_none {t : Millis} {ev : EventData}
    (h : startMessageProcessing db m t ev = none) :
    ∃ row, db.message? m = some row ∧ row.status = .pending ∧
      db.event? (.userMessage m) ≠ none := by
  unfold startMessageProcessing at h
  split at h
  next => cases h
  next row hrow =>
    split at h
    next => cases h
    next hfree =>
      simp only [ne_eq, not_or, not_not] at hfree
      refine ⟨row, hrow, hfree.1, ?_⟩
      intro hfresh
      have hfresh' : (db.updateMessage m fun r => r.claim t).event? (.userMessage m) = none := hfresh
      obtain ⟨db', hdb'⟩ := createEvent_isSome (d := ⟨.userMessage m, ev, some m, t⟩) hfresh'
      simp [hdb'] at h

/-- A revert gives a processing message back with its `user_message` event gone, or
changes nothing. -/
theorem updateMessageToPending_cases (db : SessionDb) (m : MessageId) :
    (updateMessageToPending db m = db ∧
      ∀ row, db.message? m = some row → row.status ≠ .processing) ∨
    ∃ row db', updateMessageToPending db m = db' ∧
      db.message? m = some row ∧ row.status = .processing ∧
      db' = { db with messages := db'.messages, events := db'.events } ∧
      (∀ k, db'.message? k = if k = m then some row.revert else db.message? k) ∧
      ∀ id, db'.event? id = if id = .userMessage m then none else db.event? id := by
  unfold updateMessageToPending
  split
  next hnone =>
    refine .inl ⟨rfl, ?_⟩
    intro row hrow
    rw [hnone] at hrow
    cases hrow
  next row hrow =>
    split
    next hother =>
      refine .inl ⟨rfl, ?_⟩
      intro x hx
      rw [hrow] at hx
      cases hx
      exact hother
    next hprocessing =>
      rw [ne_eq, not_not] at hprocessing
      refine .inr ⟨row, _, rfl, hrow, hprocessing, rfl, ?_, ?_⟩
      · intro k
        have hmsg := message?_updateMessage db m MessageRow.revert (fun _ => rfl) k
        by_cases hk : k = m
        · rw [if_pos hk, hk, hrow] at hmsg
          rw [if_pos hk, hk]
          exact hmsg
        · rw [if_neg hk] at hmsg
          rw [if_neg hk]
          exact hmsg
      · intro id
        rw [SessionDb.event?, Table.get?_delete]
        show ((db.event? id).filter fun e => !decide (e.id = .userMessage m)) = _
        cases hg : db.event? id with
        | none => simp
        | some e =>
          have hid : e.id = id := Table.key_of_get? hg
          by_cases he : id = .userMessage m <;> simp [hid, he]

/-- A completion ends a message that is in the expected status, and records it, or
changes nothing. -/
theorem recordMessageCompletion_cases (db : SessionDb) (m : MessageId) (o : ExecutionOutcome)
    (t : Millis) (expected : MessageStatus) :
    (recordMessageCompletion db m o t expected = (none, db) ∧
      ∀ row, db.message? m = some row → row.status ≠ expected) ∨
    ∃ row db', recordMessageCompletion db m o t expected =
        (some ⟨m, row.createdAt, row.startedAt, t, o.status⟩, db') ∧
      db.message? m = some row ∧ row.status = expected ∧
      db' = { db with messages := db'.messages, events := db'.events } ∧
      (∀ k, db'.message? k = if k = m then some (row.finish o t) else db.message? k) ∧
      ∃ e, e.data = .executionComplete m o.success o.error ∧
        ∀ id, db'.event? id =
          if EventId.executionComplete m = id then some e else db.event? id := by
  unfold recordMessageCompletion
  split
  next hnone =>
    refine .inl ⟨rfl, ?_⟩
    intro row hrow
    rw [hnone] at hrow
    cases hrow
  next row hrow =>
    split
    next hother =>
      refine .inl ⟨rfl, ?_⟩
      intro x hx
      rw [hrow] at hx
      cases hx
      exact hother
    next hexpected =>
      rw [ne_eq, not_not] at hexpected
      refine .inr ⟨row, _, rfl, hrow, hexpected, rfl, ?_, _, ?_,
        event?_upsertExecutionCompleteEvent _ m o.success o.error t⟩
      · intro k
        have hmsg := message?_updateMessage db m (fun r => r.finish o t) (fun _ => rfl) k
        by_cases hk : k = m
        · rw [if_pos hk, hk, hrow] at hmsg
          rw [if_pos hk, hk]
          exact hmsg
        · rw [if_neg hk] at hmsg
          rw [if_neg hk]
          exact hmsg
      · rfl

end BackgroundAgents.Session

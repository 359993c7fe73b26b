import BackgroundAgents.Session.MessageRepository

/-!
# Failures, stops and the session budget

`MessageFailureService.record`, `ExecutionStopCoordinator.prepare` and
`SessionBudgetService`, as far as they touch the storage: each definition here
is (a part of) one transaction. What they publish after the commit is returned
as data (`ExecutionStopPreparation`, `BudgetTransition`) and delivered by the
queue.

The runtime reports the cumulative cost of the current turn on every step and
on `execution_complete`; the session total only ever moves by the amount that a
report exceeds the highest one already recorded for the message. Runtimes that
predate the cumulative field still report a per-step `cost`, which is added
directly.
-/

namespace BackgroundAgents.Session

/-! ## `MessageFailureService` -/

structure RecordedMessageFailure where
  messageId : MessageId
  error : String
  completion : RecordedMessageCompletion
  deriving DecidableEq, Repr

/-- `MessageFailureService.record` -/
def recordFailure (db : SessionDb) (m : MessageId) (error : String) (completedAt : Millis)
    (expectedStatus : MessageStatus) : Option RecordedMessageFailure × SessionDb :=
  let (completion, db') :=
    recordMessageCompletion db m { success := false, error := some error } completedAt
      expectedStatus
  (completion.map fun c => { messageId := m, error := error, completion := c }, db')

/-! ## `ExecutionStopCoordinator.prepare` -/

structure ExecutionStopPreparation where
  stopConfirmationDeadline : Millis
  failure : RecordedMessageFailure
  deriving DecidableEq, Repr

/-- `AlarmDeadlineStore.setPendingEarliest` -/
def setPendingEarliest (db : SessionDb) (deadline : Millis) : SessionDb :=
  { db with
    pendingDeadline :=
      match db.pendingDeadline with
      | none => some deadline
      | some pending => some (min pending deadline) }

/-- Fail the running message and fence the queue until the sandbox confirms. -/
def prepare (db : SessionDb) (reason : String) (now : Millis) :
    Option ExecutionStopPreparation × SessionDb :=
  match getProcessingMessage db with
  | none => (none, db)
  | some processing =>
    let deadline := now + stopConfirmationTimeoutMs
    match recordFailure db processing.id reason now .processing with
    | (none, db') => (none, db')
    | (some failure, db') =>
      let fenced := markMessageAwaitingStopConfirmation db' processing.id deadline
      (some { stopConfirmationDeadline := deadline, failure := failure },
        setPendingEarliest fenced deadline)

/-! ## The session row -/

def addSessionCost (db : SessionDb) (cost : ℚ) (updatedAt : Millis) : ℚ × SessionDb :=
  let totalCost := db.session.totalCost + cost
  (totalCost,
    { db with session := { db.session with totalCost := totalCost, updatedAt := updatedAt } })

def setSessionBudget (db : SessionDb) (maxCostUsd : Option ℚ) (exhausted : Bool)
    (updatedAt : Millis) : SessionDb :=
  { db with
    session :=
      { db.session with
        maxCostUsd := maxCostUsd
        budgetExhausted := exhausted
        updatedAt := updatedAt } }

def markBudgetExhausted (db : SessionDb) (updatedAt : Millis) : SessionDb :=
  { db with session := { db.session with budgetExhausted := true, updatedAt := updatedAt } }

/-! ## `SessionBudgetService` -/

structure BudgetTransition where
  warningEvent : Option String
  stopPreparation : Option ExecutionStopPreparation
  statusChanged : Bool
  deriving DecidableEq, Repr

/-- `NO_BUDGET_TRANSITION` -/
def noBudgetTransition : BudgetTransition where
  warningEvent := none
  stopPreparation := none
  statusChanged := false

/-- An identifier that no event of the timeline holds: what `generateId` returns. -/
def freshEventId (db : SessionDb) : EventId :=
  .generated <| (db.events.rows.map fun e =>
    match e.id with
    | .generated n => n
    | _ => 0).foldr max 0 + 1

/-- Persist a budget warning under a generated id. -/
def persistWarning (db : SessionDb) (message : String) (m : Option MessageId) (now : Millis) :
    Option SessionDb :=
  createEvent db
    { id := freshEventId db
      data := .budgetWarning message
      messageId := m
      createdAt := now }

/-- The exhaustion effects shared by cost reports and live limit edits. -/
def prepareExhaustion (db : SessionDb) (totalCost limit : ℚ) (m : Option MessageId)
    (now : Millis) : Option (BudgetTransition × SessionDb) := do
  let reason :=
    "Session cost limit reached: " ++ formatCost totalCost ++ " of " ++ formatCost limit
  let (stopPreparation, stopped) := prepare db reason now
  let warning :=
    reason ++ ". " ++ (if stopPreparation.isSome then "Execution stopped." else "Work paused.")
  let warned ← persistWarning stopped warning m now
  some
    ({ warningEvent := some warning
       stopPreparation := stopPreparation
       statusChanged := true }, warned)

def applyObservedCost (db : SessionDb) (totalCost : ℚ) (m : Option MessageId) (now : Millis) :
    Option (BudgetTransition × SessionDb) :=
  match db.session.maxCostUsd with
  | none => some (noBudgetTransition, db)
  | some limit =>
    if db.session.budgetExhausted ∨ totalCost < limit then some (noBudgetTransition, db)
    else prepareExhaustion (markBudgetExhausted db now) totalCost limit m now

/-- A `step_finish` event. -/
structure StepFinishEvent where
  messageId : MessageId
  messageCostUsd : Option ℚ := none
  cost : Option ℚ := none
  deriving DecidableEq

/-- Amount the session total should grow by for this step; `0` for resends. -/
def observeReportedCost (db : SessionDb) (event : StepFinishEvent) (m : Option MessageId) :
    ℚ × SessionDb :=
  match event.messageCostUsd with
  | some cost => raiseReportedCost db (m.getD event.messageId) cost
  | none =>
    match event.cost with
    | some cost => if 0 < cost then (cost, db) else (0, db)
    | none => (0, db)

/-- The transaction of `ingestStepFinish`. -/
def ingestStepFinish (db : SessionDb) (event : StepFinishEvent) (m : Option MessageId)
    (now : Millis) : Option (BudgetTransition × SessionDb) :=
  let (delta, observed) := observeReportedCost db event m
  if 0 < delta then do
    let (totalCost, charged) := addSessionCost observed delta now
    let (transition, settled) ← applyObservedCost charged totalCost m now
    some ({ transition with statusChanged := true }, settled)
  else some (noBudgetTransition, observed)

/-- An `execution_complete` event. -/
structure ExecutionCompleteEvent where
  messageId : MessageId
  outcome : ExecutionOutcome
  messageCostUsd : Option ℚ := none
  deriving DecidableEq

def observeExecutionCost (db : SessionDb) (event : ExecutionCompleteEvent) (now : Millis) :
    Option (BudgetTransition × SessionDb) :=
  match event.messageCostUsd with
  | none => some (noBudgetTransition, db)
  | some cost =>
    let (delta, raised) := raiseReportedCost db event.messageId cost
    if delta ≤ 0 then some (noBudgetTransition, raised)
    else do
      let (totalCost, charged) := addSessionCost raised delta now
      let (transition, settled) ← applyObservedCost charged totalCost (some event.messageId) now
      some ({ transition with statusChanged := true }, settled)

/-- The transaction of `updateLimit`, over the session it read before it in the
same turn. -/
def commitLimit (db : SessionDb) (maxCostUsd : Option ℚ) (now : Millis) :
    Option (BudgetTransition × SessionDb) :=
  let exhausted := maxCostUsd.any fun limit => limit ≤ db.session.totalCost
  let edited := setSessionBudget db maxCostUsd exhausted now
  if exhausted ∧ ¬db.session.budgetExhausted then
    prepareExhaustion edited db.session.totalCost (maxCostUsd.getD 0) none now
  else some ({ noBudgetTransition with statusChanged := true }, edited)

/-- The transaction of `handleExecutionComplete`: release the processing message
or the stop fence, and settle the final cost, in one commit. `processing` is the
message that was processing when the event arrived. -/
def completeExecution (db : SessionDb) (event : ExecutionCompleteEvent)
    (processing : Option MessageId) (now : Millis) :
    Option (Option RecordedMessageCompletion × BudgetTransition × SessionDb) := do
  let (completion, recorded) :=
    if processing = some event.messageId then
      recordMessageCompletion db event.messageId event.outcome now .processing
    else (none, db)
  let released :=
    if completion.isNone then clearMessageAwaitingStopConfirmation recorded event.messageId
    else recorded
  let (transition, settled) ← observeExecutionCost released event now
  some (completion, transition, settled)

/-! ## What they do

A stop is described once (`prepare_none`, `prepare_some`) and an exhaustion in
terms of it (`prepareExhaustion_some`). The two columns that the accounting
reads, `SessionDb.costs` and the number of budget warnings, are followed
through each step. -/

/-- What has been reported for each message. -/
def SessionDb.costs (db : SessionDb) : List (MessageId × ℚ) :=
  db.messages.rows.map fun r => (r.id, r.reportedCostUsd)

/-- A budget warning of the session: under a generated id, as `persistWarning` stores it. -/
def EventRow.isBudgetWarning (e : EventRow) : Bool :=
  match e.id, e.data with
  | .generated _, .budgetWarning _ => true
  | _, _ => false

def SessionDb.warningCount (db : SessionDb) : Nat :=
  db.events.count EventRow.isBudgetWarning

theorem costs_updateMessage (db : SessionDb) (m : MessageId) (f : MessageRow → MessageRow)
    (hf : ∀ r, (f r).id = r.id) (hcost : ∀ r, (f r).reportedCostUsd = r.reportedCostUsd) :
    (db.updateMessage m f hf).costs = db.costs := by
  refine Table.map_rows_update db.messages _ f hf _ ?_
  intro r
  rw [hf, hcost]

theorem recordMessageCompletion_costs (db : SessionDb) (m : MessageId) (o : ExecutionOutcome)
    (t : Millis) (expected : MessageStatus) :
    (recordMessageCompletion db m o t expected).2.costs = db.costs := by
  unfold recordMessageCompletion
  split
  next => rfl
  next =>
    split
    next => rfl
    next => exact costs_updateMessage db m (fun r => r.finish o t) (fun _ => rfl) fun _ => rfl

theorem recordMessageCompletion_warningCount (db : SessionDb) (m : MessageId)
    (o : ExecutionOutcome) (t : Millis) (expected : MessageStatus) :
    (recordMessageCompletion db m o t expected).2.warningCount = db.warningCount := by
  unfold recordMessageCompletion
  split
  next => rfl
  next =>
    split
    next => rfl
    next =>
      refine Table.count_upsert _ _ _ _ _ ?_
      intro e he
      simp only at he
      simp only [EventRow.isBudgetWarning, he]

theorem freshEventId_fresh (db : SessionDb) : db.event? (freshEventId db) = none := by
  refine Table.get?_eq_none.mpr ?_
  intro e he hid
  have hle := List.le_max_of_le' 0 (List.mem_map_of_mem (f := fun e : EventRow =>
    match e.id with
    | .generated n => n
    | _ => 0) he) le_rfl
  rw [hid] at hle
  simp only [freshEventId] at hle
  omega

theorem persistWarning_some (db : SessionDb) (message : String) (m : Option MessageId)
    (now : Millis) :
    ∃ db', persistWarning db message m now = some db' ∧
      db' = { db with events := db'.events } ∧ db'.warningCount = db.warningCount + 1 ∧
      ∀ id, (∀ n, id ≠ .generated n) → db'.event? id = db.event? id := by
  obtain ⟨db', h⟩ := createEvent_isSome
    (d := ⟨freshEventId db, .budgetWarning message, m, now⟩) (freshEventId_fresh db)
  obtain ⟨hdb, -, hev⟩ := createEvent_some h
  refine ⟨db', h, hdb, ?_, ?_⟩
  · simp only [createEvent, Option.bind_eq_bind, Option.bind_eq_some_iff] at h
    obtain ⟨events, hins, hdb⟩ := h
    cases hdb
    exact Table.count_insert? hins _
  · intro id hid
    rw [hev, if_neg]
    exact fun he => hid _ he.symm

/-- The row of a message stopped at `now`: failed, and fencing the queue. -/
def MessageRow.stop (row : MessageRow) (reason : String) (now : Millis) : MessageRow :=
  (row.finish { success := false, error := some reason } now).fence
    (now + stopConfirmationTimeoutMs)

/-- `db'` is `db` after a stop: the processing message, if there was one, is
stopped, and no other row moved. -/
structure Stopped (db db' : SessionDb) (reason : String) (now : Millis) : Prop where
  costs : db'.costs = db.costs
  attachments : db'.attachments = db.attachments
  userEvents : ∀ m, db'.event? (.userMessage m) = db.event? (.userMessage m)
  idle : getProcessingMessage db = none → ∀ k, db'.message? k = db.message? k
  stopped : ∀ p, getProcessingMessage db = some p →
    ∀ k, db'.message? k = if k = p.id then some (p.stop reason now) else db.message? k

theorem prepare_none {db : SessionDb} {reason : String} {now : Millis}
    (h : getProcessingMessage db = none) : prepare db reason now = (none, db) := by
  rw [prepare, h]

theorem prepare_some {db : SessionDb} {reason : String} {now : Millis} {p : MessageRow}
    (h : getProcessingMessage db = some p) :
    ∃ preparation db', prepare db reason now = (some preparation, db') ∧
      preparation.failure.messageId = p.id ∧
      preparation.stopConfirmationDeadline = now + stopConfirmationTimeoutMs ∧
      db'.session = db.session ∧ db'.warningCount = db.warningCount ∧
      Stopped db db' reason now := by
  obtain ⟨hrow, hprocessing⟩ := getProcessingMessage_some h
  have hcosts := recordMessageCompletion_costs db p.id ⟨false, some reason⟩ now .processing
  have hwarn := recordMessageCompletion_warningCount db p.id ⟨false, some reason⟩ now .processing
  rcases recordMessageCompletion_cases db p.id ⟨false, some reason⟩ now .processing with
    ⟨-, hne⟩ | ⟨row, recorded, hrec, hget, -, hdb, hmsg, _, -, hevents⟩
  · exact absurd hprocessing (hne p hrow)
  · rw [hrow] at hget
    cases hget
    rw [hrec] at hcosts hwarn
    simp only [prepare, h, recordFailure, hrec, Option.map_some]
    refine ⟨_, _, rfl, rfl, rfl, by rw [hdb]; rfl, hwarn, ?_, ?_, ?_, ?_, ?_⟩
    · exact (costs_updateMessage recorded p.id (·.fence (now + stopConfirmationTimeoutMs))
        (fun _ => rfl) fun _ => rfl).trans hcosts
    · rw [hdb]
      rfl
    · intro k
      exact (hevents (.userMessage k)).trans (if_neg nofun)
    · intro hidle
      rw [h] at hidle
      cases hidle
    · intro q hq k
      rw [h] at hq
      cases hq
      have hfence := message?_updateMessage recorded p.id
        (·.fence (now + stopConfirmationTimeoutMs)) (fun _ => rfl) k
      refine Eq.trans hfence ?_
      rw [hmsg]
      split
      · rfl
      · rfl

/-- A stop leaves the session row and the warnings, and stops what was processing. -/
theorem prepare_spec (db : SessionDb) (reason : String) (now : Millis) :
    (prepare db reason now).2.session = db.session ∧
      (prepare db reason now).2.warningCount = db.warningCount ∧
      Stopped db (prepare db reason now).2 reason now := by
  cases h : getProcessingMessage db with
  | none =>
    rw [prepare_none h]
    refine ⟨rfl, rfl, rfl, rfl, fun _ => rfl, fun _ _ => rfl, ?_⟩
    intro p hp
    rw [h] at hp
    cases hp
  | some p =>
    obtain ⟨preparation, db', he, -, -, hsession, hwarn, hstop⟩ := @prepare_some db reason now p h
    rw [he]
    exact ⟨hsession, hwarn, hstop⟩

/-- An exhaustion never throws; it stops what was processing and persists one warning. -/
theorem prepareExhaustion_some (db : SessionDb) (totalCost limit : ℚ) (m : Option MessageId)
    (now : Millis) :
    ∃ reason transition db',
      prepareExhaustion db totalCost limit m now = some (transition, db') ∧
      transition.stopPreparation = (prepare db reason now).1 ∧
      db'.session = db.session ∧ db'.warningCount = db.warningCount + 1 ∧
      Stopped db db' reason now := by
  unfold prepareExhaustion
  obtain ⟨hsession, hwarn, hstop⟩ := prepare_spec db
    ("Session cost limit reached: " ++ formatCost totalCost ++ " of " ++ formatCost limit) now
  obtain ⟨db', he, hdb, hcount, hevents⟩ := persistWarning_some (prepare db
    ("Session cost limit reached: " ++ formatCost totalCost ++ " of " ++ formatCost limit) now).2
    ("Session cost limit reached: " ++ formatCost totalCost ++ " of " ++ formatCost limit ++ ". " ++
      (if (prepare db ("Session cost limit reached: " ++ formatCost totalCost ++ " of " ++
        formatCost limit) now).1.isSome then "Execution stopped." else "Work paused.")) m now
  refine ⟨_, _, db', by simp only [he, Option.bind_eq_bind, Option.bind_some]; rfl, rfl, ?_, ?_, ?_⟩
  · rw [hdb]
    exact hsession
  · rw [hcount, hwarn]
  · have hmessages : db'.messages = _ := congrArg SessionDb.messages hdb
    refine ⟨?_, ?_, ?_, ?_, ?_⟩
    · rw [SessionDb.costs, hmessages]
      exact hstop.costs
    · rw [hdb]
      exact hstop.attachments
    · intro k
      have hkept := hevents (.userMessage k) (fun n he => by cases he)
      rw [hkept]
      exact hstop.userEvents k
    · intro hidle k
      rw [SessionDb.message?, hmessages]
      exact hstop.idle hidle k
    · intro p hp k
      rw [SessionDb.message?, hmessages]
      exact hstop.stopped p hp k

end BackgroundAgents.Session

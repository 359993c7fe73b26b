import BackgroundAgents.Session.MessageRepository

/-!
# `SessionStatusService`

The local half of the status service. A transition writes the session row in the
turn it is called in; what it awaits afterwards is the projection to the index,
which reads nothing back. So each method here is a pure step of the storage, and
the queue models the projection as an await of its own.
-/

namespace BackgroundAgents.Session

/-- Commit a status, with a new revision; a status the session already has is only
projected again. -/
def beginTransition (db : SessionDb) (status : SessionStatus) (now : Millis) : SessionDb :=
  if db.session.status = status then db
  else
    { db with
      session :=
        { db.session with
          status := status
          updatedAt := max now (db.session.updatedAt + 1)
          statusRevision := db.session.statusRevision + 1 } }

/-- Whether the session has been cancelled or archived. -/
def isSessionClosed (db : SessionDb) : Bool :=
  !isSessionPromptable db.session.status

/-- The status an idle session should hold, read off its finished messages. -/
def getIdleStatusFromTerminalMessages (db : SessionDb) : SessionStatus :=
  match getLatestTerminalMessage db with
  | none => .created
  | some latest => if latest.status = .failed then .failed else .completed

/-- After an execution finished with `success`: back to active when more prompts are
queued, otherwise completed or failed by that outcome. -/
def reconcileAfterExecution (db : SessionDb) (success : Bool) (now : Millis) : SessionDb :=
  if isSessionClosed db then db
  else
    beginTransition db
      (if 0 < getPendingOrProcessingCount db then .active
       else if success then .completed else .failed) now

def settleFromMessageState (db : SessionDb) (now : Millis) : SessionDb :=
  beginTransition db
    (if 0 < getPendingOrProcessingCount db then .active
     else getIdleStatusFromTerminalMessages db) now

def reconcileAfterQueueRemoval (db : SessionDb) (now : Millis) : SessionDb :=
  if isSessionClosed db then db
  else if 0 < getPendingOrProcessingCount db then db
  else beginTransition db (getIdleStatusFromTerminalMessages db) now

/-- Re-derive the status after an external lifecycle boundary, without overriding one
the user chose. -/
def reconcileFromMessageState (db : SessionDb) (now : Millis) : SessionDb :=
  if isSessionClosed db then db else settleFromMessageState db now

/-! ## What they leave alone -/

/-- A step that at most moves the session row. -/
def SessionOnly (db db' : SessionDb) : Prop :=
  db' = { db with session := db'.session }

theorem SessionOnly.messages {db db' : SessionDb} (h : SessionOnly db db') :
    db'.messages = db.messages := by
  rw [h]

theorem beginTransition_sessionOnly (db : SessionDb) (status : SessionStatus) (now : Millis) :
    SessionOnly db (beginTransition db status now) := by
  unfold beginTransition
  split <;> rfl

theorem beginTransition_status (db : SessionDb) (status : SessionStatus) (now : Millis) :
    (beginTransition db status now).session.status = status := by
  unfold beginTransition
  split
  next h => exact h
  next => rfl

theorem reconcileAfterExecution_sessionOnly (db : SessionDb) (success : Bool) (now : Millis) :
    SessionOnly db (reconcileAfterExecution db success now) := by
  unfold reconcileAfterExecution
  split
  · rfl
  · exact beginTransition_sessionOnly _ _ _

theorem settleFromMessageState_sessionOnly (db : SessionDb) (now : Millis) :
    SessionOnly db (settleFromMessageState db now) :=
  beginTransition_sessionOnly _ _ _

theorem reconcileAfterQueueRemoval_sessionOnly (db : SessionDb) (now : Millis) :
    SessionOnly db (reconcileAfterQueueRemoval db now) := by
  unfold reconcileAfterQueueRemoval
  split
  · rfl
  · split
    · rfl
    · exact beginTransition_sessionOnly _ _ _

theorem reconcileFromMessageState_sessionOnly (db : SessionDb) (now : Millis) :
    SessionOnly db (reconcileFromMessageState db now) := by
  unfold reconcileFromMessageState
  split
  · rfl
  · exact settleFromMessageState_sessionOnly _ _

end BackgroundAgents.Session

import BackgroundAgents.Lib.Table
import Mathlib.Data.Rat.Floor
import Mathlib.Data.Prod.Lex

/-!
# The session's rows

The tables of one session that the prompt queue, the budget and the timeline
read and write: the session row, `messages`, `events`, `attachments` and the
pending alarm deadline, gathered in `SessionDb`. Only the columns that some
modelled function reads or writes are kept.

Identifiers stand for generated strings: nothing is used of them but equality
and, in `getLatestTerminalMessage`, a total order. Times are milliseconds of
the host's clock, and amounts of money are exact rationals.

The identifiers of the events that are recorded once per message
(`user_message:<id>`, `execution_complete:<id>`) are the constructors of
`EventId`, next to the generated ones.
-/

namespace BackgroundAgents.Session

/-- Milliseconds on the host's clock. -/
abbrev Millis := Nat

abbrev MessageId := Nat

inductive MessageStatus where
  | pending
  | processing
  | completed
  | failed
  deriving DecidableEq, Repr

inductive MessageSource where
  | web
  | slack
  | linear
  | extension
  | github
  | automation
  | agent
  deriving DecidableEq, Repr

inductive SessionStatus where
  | created
  | active
  | completed
  | failed
  | archived
  | cancelled
  deriving DecidableEq, Repr

/-- Whether a session accepts follow-up work and the sandbox needed to run it. -/
def isSessionPromptable : SessionStatus → Bool
  | .created | .active | .completed | .failed => true
  | .archived | .cancelled => false

/-- A row of `messages`. -/
structure MessageRow where
  id : MessageId
  /-- SQLite's implicit insertion order. -/
  rowid : Nat
  authorId : Nat := 0
  content : String
  source : MessageSource
  model : Option String := none
  callbackContext : Option String := none
  clientRequestId : Option Nat := none
  requestFingerprint : Option Nat := none
  autofixFeedbackKey : Option Nat := none
  autofixPrKey : Option Nat := none
  status : MessageStatus
  errorMessage : Option String := none
  stopConfirmationDeadline : Option Millis := none
  reportedCostUsd : ℚ := 0
  createdAt : Millis
  startedAt : Option Millis := none
  completedAt : Option Millis := none
  /-- Counts the claims of the message; its MCP context is the current claim's. -/
  mcpRevision : Nat := 0
  deriving DecidableEq

/-- Whether a message still has work to do. -/
def MessageStatus.unfinished : MessageStatus → Bool
  | .pending | .processing => true
  | .completed | .failed => false

/-- Whether a message has ended. -/
def MessageStatus.terminal (s : MessageStatus) : Bool :=
  !s.unfinished

inductive EventId where
  | userMessage (messageId : MessageId)
  | executionComplete (messageId : MessageId)
  | generated (n : Nat)
  deriving DecidableEq, Repr

/-- The payload of a timeline event. `other` is any event a sandbox reports that
the session only records. -/
inductive EventData where
  | userMessage (messageId : MessageId) (content : String)
  | executionComplete (messageId : MessageId) (success : Bool) (error : Option String)
  | budgetWarning (message : String)
  | other (type : String)
  deriving DecidableEq, Repr

/-- A row of `events`. -/
structure EventRow where
  id : EventId
  data : EventData
  messageId : Option MessageId
  createdAt : Millis
  timelineSequence : Nat
  deriving DecidableEq, Repr

/-- A row of `attachments`. -/
structure AttachmentRow where
  id : Nat
  messageId : Option MessageId := none
  cleanupClaimedAt : Option Millis := none
  deriving DecidableEq, Repr

/-- The session's single row. -/
structure SessionRow where
  status : SessionStatus := .created
  statusRevision : Nat := 0
  updatedAt : Millis := 0
  totalCost : ℚ := 0
  maxCostUsd : Option ℚ := none
  budgetExhausted : Bool := false
  deriving DecidableEq

abbrev MessageTable := Table MessageRow.id
abbrev EventTable := Table EventRow.id
abbrev AttachmentTable := Table AttachmentRow.id

/-- The storage of one session. -/
structure SessionDb where
  session : SessionRow
  messages : MessageTable
  events : EventTable
  attachments : AttachmentTable
  /-- `session_alarm_state.pending_deadline` -/
  pendingDeadline : Option Millis := none
  deriving DecidableEq

/-- The storage of a session just created. -/
def SessionDb.fresh (session : SessionRow) : SessionDb where
  session := session
  messages := Table.empty
  events := Table.empty
  attachments := Table.empty

/-- The order in which prompts are dispatched. -/
def MessageRow.queueKey (r : MessageRow) : Millis ×ₗ Nat :=
  toLex (r.createdAt, r.rowid)

/-- The order in which finished messages are compared: by the time they ended,
then by the time they were queued, then by id. -/
def MessageRow.terminalKey (r : MessageRow) : Millis ×ₗ Millis ×ₗ MessageId :=
  toLex ((r.completedAt <|> r.startedAt).getD r.createdAt, toLex (r.createdAt, r.id))

/-- `MAX_UNFINISHED_PROMPTS` -/
def maxUnfinishedPrompts : Nat := 50

/-- `STOP_CONFIRMATION_TIMEOUT_MS` -/
def stopConfirmationTimeoutMs : Millis := 15000

/-- `$` and two decimals, ties away from zero on the amounts in use. -/
def formatCost (value : ℚ) : String :=
  let cents := ⌊value * 100 + 1 / 2⌋
  let fraction := (cents % 100).toNat
  "$" ++ toString (cents / 100) ++ "." ++ (if fraction < 10 then "0" else "") ++ toString fraction

end BackgroundAgents.Session

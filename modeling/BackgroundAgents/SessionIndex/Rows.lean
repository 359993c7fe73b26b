import BackgroundAgents.Session.Types
import Mathlib.Data.List.Lex
import Mathlib.Data.Char

/-!
# Rows of the session index

The `sessions` table of the control plane's database, the index that every
session of a workspace is listed, counted and searched through, apart from the
session's own store. Only the columns that some modelled function reads or
writes are kept.

Texts are the lists of their characters, which order them as the database's
binary collation does. The three columns of the latest terminal message are
null together or not at all (a `CHECK` of the table), so they are one optional
`TerminalMessage`.
-/

namespace BackgroundAgents.SessionIndex

export Session (Millis SessionStatus)

/-- A SQL `TEXT` under the binary collation. -/
abbrev Text := List Char

abbrev SessionId := Text
abbrev UserId := Text
abbrev TeamId := Text
abbrev MessageId := Text

inductive SessionVisibility where
  | team
  | workspace
  | private_
  deriving DecidableEq, Repr

inductive SpawnSource where
  | user
  | agent
  | automation
  | githubBot
  | linearBot
  | slackBot
  deriving DecidableEq, Repr

/-- The columns `latest_terminal_message_*`. -/
structure TerminalMessage where
  id : MessageId
  createdAt : Millis
  completedAt : Millis
  deriving DecidableEq, Repr

/-- A row of `sessions`. -/
structure SessionRow where
  id : SessionId
  title : Option Text := none
  repoOwner : Option Text := none
  repoName : Option Text := none
  status : SessionStatus
  statusRevision : Nat := 0
  parentSessionId : Option SessionId := none
  rootSessionId : Option SessionId := none
  spawnSource : SpawnSource := .user
  automationId : Option Text := none
  userId : Option UserId := none
  ownerTeamId : Option TeamId := none
  visibility : SessionVisibility := .workspace
  environmentId : Option Text := none
  latestTerminalMessage : Option TerminalMessage := none
  updatedAt : Millis := 0
  deriving DecidableEq, Repr

abbrev SessionTable := Table SessionRow.id

/-- `INACTIVE_SESSION_STATUSES`: a session that is no longer live work. -/
def isSessionInactive : SessionStatus → Bool
  | .completed | .failed | .archived | .cancelled => true
  | .created | .active => false

end BackgroundAgents.SessionIndex

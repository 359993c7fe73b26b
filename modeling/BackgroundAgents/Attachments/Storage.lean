import BackgroundAgents.Attachments.Registry
import BackgroundAgents.Lib.Transition
import BackgroundAgents.Lib.Workers

/-!
# Uploads against one session's registry

Any number of `SessionAttachmentStorageService.store` calls with the session's
messages between them. The registry's commands execute one at a time; the object
deletes of a cleanup settle one by one, and one that is rejected may have taken
effect all the same. A `complete_cleanup` command that was sent may execute at
any later time and any number of times.
-/

namespace BackgroundAgents.Attachments

open Transition

def MAX_REGISTRATION_ATTEMPTS : Nat := 3

/-- One delete of a cleanup, and whether it was fulfilled once it has settled. -/
structure Deletion where
  attachmentId : Text
  objectKey : Text
  settled : Option Bool
  deriving DecidableEq, Repr

inductive DeleteOutcome where
  | fulfilled
  | rejected
  | rejectedAfterEffect
  deriving DecidableEq, Repr

def DeleteOutcome.tookEffect : DeleteOutcome → Bool
  | .fulfilled => true
  | .rejected => false
  | .rejectedAfterEffect => true

/-- Where a `store` call waits. -/
inductive Stage where
  | registering (attempt : Nat)
  | cleaning (attempt : Nat) (cleanupClaimedAt : Int) (deletions : List Deletion)
  | completing (attempt : Nat) (command : CompleteCleanupCommand)
  | putting
  deriving DecidableEq, Repr

/-- A `store` call. Of one that has crashed only the deletes in flight may still settle. -/
structure Upload where
  record : RecordAttachmentCommand
  stage : Stage
  live : Bool
  deriving DecidableEq, Repr

/-- The claim under which an upload is cleaning up. -/
def Upload.claim (u : Upload) : Option Int :=
  match u.stage with
  | .cleaning _ cleanupClaimedAt _ => some cleanupClaimedAt
  | .completing _ command => some command.cleanupClaimedAt
  | .registering _ => none
  | .putting => none

/-- The upload has a delete for this attachment in flight. -/
def Upload.deleting (u : Upload) (attachmentId : Text) : Bool :=
  match u.stage with
  | .cleaning _ _ deletions =>
    deletions.any fun d => d.attachmentId = attachmentId ∧ d.settled = none
  | .completing _ _ => false
  | .registering _ => false
  | .putting => false

structure State where
  attachments : AttachmentTable
  now : Int
  uploads : List Upload
  /-- the `complete_cleanup` commands sent so far -/
  sent : List CompleteCleanupCommand
  /-- the keys of the objects that a cleanup has deleted -/
  deleted : List Text
  /-- the deletions that were acknowledged, with the claim they were made under -/
  acknowledged : List (Text × Int)
  /-- the attachment ids generated so far, and those among them that were recorded -/
  drawn : List Text
  registered : List Text

inductive Act where
  | start (record : RecordAttachmentCommand)
  /-- The record command of an upload executes and is answered. -/
  | register (upload : Nat)
  | delete (upload deletion : Nat) (outcome : DeleteOutcome)
  /-- All deletes have settled: `complete_cleanup` is sent. -/
  | sendCompletion (upload : Nat)
  /-- The command executes and the upload gets its answer. -/
  | completed (upload : Nat)
  /-- A command that was sent executes, once more or for a caller that is gone. -/
  | repeated (command : Nat)
  /-- `storage.put` has ended, one way or the other. -/
  | put (upload : Nat)
  | crash (upload : Nat)
  | createMessage (messageId : Text) (attachmentIds : List Text)
  | cancelMessage (messageId : Text)
  | tick (now : Int)
  deriving DecidableEq, Repr

/-- The outcome of `deleteClaimedObjects`. -/
def completionCommand (cleanupClaimedAt : Int) (deletions : List Deletion) :
    CompleteCleanupCommand where
  cleanupClaimedAt
  acknowledgedAttachmentIds := (deletions.filter (·.settled = some true)).map (·.attachmentId)
  releasedAttachmentIds := (deletions.filter (·.settled = some false)).map (·.attachmentId)

/-- What `register` does with the registry's answer. -/
def afterRecord (u : Upload) (attempt : Nat) : RecordResponse → Option Upload
  | .ok => some { u with stage := .putting }
  | .cleanup_required cleanupClaimedAt staleAttachments =>
    some
      { u with
        stage := .cleaning attempt cleanupClaimedAt (staleAttachments.map fun stale =>
          { attachmentId := stale.attachmentId, objectKey := stale.objectKey, settled := none }) }
  | .limit_exceeded => none
  | .failed => none

/-- The loop of `register` after a cleanup: it throws when a delete failed or the attempts are used
up. -/
def afterCompletion (u : Upload) (attempt : Nat) (command : CompleteCleanupCommand) :
    Option Upload :=
  if command.releasedAttachmentIds ≠ [] then none
  else if attempt + 1 < MAX_REGISTRATION_ATTEMPTS then
    some { u with stage := .registering (attempt + 1) }
  else none

def State.step (sessionId : Text) (s : State) : Act → Option State
  | .start record =>
    if record.attachmentId ∈ s.drawn then none
    else
      some
        { s with
          uploads := s.uploads ++ [{ record, stage := .registering 0, live := true }]
          drawn := record.attachmentId :: s.drawn }
  | .register i =>
    match s.uploads[i]? with
    | some u =>
      match u.live, u.stage with
      | true, .registering attempt =>
        let answer := recordAttachment sessionId s.attachments u.record s.now
        some
          { s with
            attachments := answer.2
            uploads := advance s.uploads i (afterRecord u attempt answer.1)
            registered :=
              if answer.1 = .ok then u.record.attachmentId :: s.registered else s.registered }
      | _, _ => none
    | none => none
  | .delete i k outcome =>
    match s.uploads[i]? with
    | some u =>
      match u.stage with
      | .cleaning attempt cleanupClaimedAt deletions =>
        match deletions[k]? with
        | some d =>
          if d.settled = none then
            some
              { s with
                uploads := advance s.uploads i
                  (some
                    { u with
                      stage := .cleaning attempt cleanupClaimedAt
                        (deletions.set k { d with settled := some (outcome = .fulfilled) }) })
                deleted := if outcome.tookEffect then d.objectKey :: s.deleted else s.deleted
                acknowledged :=
                  if outcome = .fulfilled ∧ u.live then
                    (d.attachmentId, cleanupClaimedAt) :: s.acknowledged
                  else s.acknowledged }
          else none
        | none => none
      | _ => none
    | none => none
  | .sendCompletion i =>
    match s.uploads[i]? with
    | some u =>
      match u.live, u.stage with
      | true, .cleaning attempt cleanupClaimedAt deletions =>
        if deletions.all (·.settled.isSome) then
          let command := completionCommand cleanupClaimedAt deletions
          some
            { s with
              uploads := advance s.uploads i (some { u with stage := .completing attempt command })
              sent := s.sent ++ [command] }
        else none
      | _, _ => none
    | none => none
  | .completed i =>
    match s.uploads[i]? with
    | some u =>
      match u.live, u.stage with
      | true, .completing attempt command =>
        some
          { s with
            attachments := completeCleanup s.attachments command
            uploads := advance s.uploads i (afterCompletion u attempt command) }
      | _, _ => none
    | none => none
  | .repeated k =>
    (s.sent[k]?).map fun command =>
      { s with attachments := completeCleanup s.attachments command }
  | .put i =>
    match s.uploads[i]? with
    | some u =>
      if u.live ∧ u.stage = .putting then some { s with uploads := advance s.uploads i none }
      else none
    | none => none
  | .crash i =>
    (s.uploads[i]?).map fun u =>
      { s with uploads := advance s.uploads i (some { u with live := false }) }
  | .createMessage messageId attachmentIds =>
    -- a claim that throws is rolled back with its transaction
    some
      { s with
        attachments := (claimForMessage s.attachments messageId attachmentIds).getD s.attachments }
  | .cancelMessage messageId =>
    some { s with attachments := releaseForMessage s.attachments messageId }
  | .tick now => if s.now ≤ now then some { s with now } else none

def storageSystem (sessionId : Text) : System State Act where
  step := State.step sessionId

/-- A new session. -/
def State.initial (now : Int) : State where
  attachments := Table.empty
  now
  uploads := []
  sent := []
  deleted := []
  acknowledged := []
  drawn := []
  registered := []

/-! ## What the runs are assumed to meet -/

/-- A live upload finishes its cleanup before its claim expires: the clock does not pass the claim
while the upload holds it. -/
def Timely (s : State) : Act → Prop
  | .tick now =>
    ∀ u ∈ s.uploads, u.live = true → ∀ cleanupClaimedAt ∈ u.claim,
      now ≤ cleanupClaimedAt + SESSION_ATTACHMENT_CLEANUP_CLAIM_TTL_MS
  | _ => True

/-- The `complete_cleanup` command that a step executes. -/
def State.executes (s : State) : Act → Option CompleteCleanupCommand
  | .completed i =>
    (s.uploads[i]?).bind fun u =>
      match u.stage with
      | .completing _ command => some command
      | _ => none
  | .repeated k => s.sent[k]?
  | _ => none

/-- No claim is released on a row whose object a cleanup has deleted, or has a delete in flight
for. -/
def ReleasesKept (s : State) (a : Act) : Prop :=
  ∀ command ∈ s.executes a, ∀ row ∈ s.attachments.rows,
    releasesClaim command.releasedAttachmentIds command.cleanupClaimedAt row = true →
      row.object_key ∉ s.deleted ∧ ∀ u ∈ s.uploads, u.deleting row.id = false

instance (s : State) (a : Act) : Decidable (Timely s a) := by
  cases a <;> unfold Timely <;> infer_instance

instance (s : State) (a : Act) : Decidable (ReleasesKept s a) := by
  unfold ReleasesKept
  infer_instance

end BackgroundAgents.Attachments

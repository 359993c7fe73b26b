import BackgroundAgents.Workspace.Rbac
import BackgroundAgents.Lib.Table
import BackgroundAgents.Lib.Transition
import BackgroundAgents.Lib.Workers

/-!
# Members of a workspace

Who holds which role and who is suspended, and the three mutations of it:
`replaceMemberRole` and `replaceMemberStatus` of the authorization store, and
`mergeUsers`, which folds one user into another. Each is one atomic batch that
opens with an audit row recording a decision; every later statement of the
batch is gated on that row being `applied`.

A merge reads the two users, their roles and their identities first, each read
at a time of its own, and carries what it read into its batch. `Members` is the
system of all these calls.

The tables that the users' records live in and no decision reads (sessions,
teams, skills, memories, provider accounts, …) are one component, `Records`,
and what the batch of a merge does to them is a parameter, as is the text
`toLowerCase` of the runtime.
-/

namespace BackgroundAgents.Workspace

open Transition

/-- A row of `users`. -/
structure UserRow where
  id : UserId
  email : Option Text := none
  emailVerified : Bool := false
  suspendedAt : Option Millis := none
  updatedAt : Millis := 0
  deriving DecidableEq, Repr

/-- A row of `user_role_assignments`: each user has at most one role. -/
structure RoleAssignment where
  userId : UserId
  roleId : RoleId
  deriving DecidableEq, Repr

/-- A row of `user_identities`. -/
structure UserIdentity where
  id : Text
  provider : Text
  providerUserId : Text
  userId : UserId
  deriving DecidableEq, Repr

/-- A row of `auth_sessions`, a signed-in browser. -/
structure AuthSession where
  id : Text
  userId : UserId
  deriving DecidableEq, Repr

/-! ## Audit rows -/

inductive OperationResult where
  | applied
  | noOp
  | denied
  | rejected
  deriving DecidableEq, Repr

inductive AuditAction where
  | memberRoleUpdated
  | memberStatusUpdated
  | userMerged
  deriving DecidableEq, Repr

inductive ReasonCode where
  | memberRoleUpdated
  | memberRoleUnchanged
  | memberStatusUpdated
  | memberStatusUnchanged
  | memberMerge
  | operatorMerge
  | actorAuthorizationChanged
  | roleNotFound
  | memberNotFound
  | ownerConflict
  | preconditionsChanged
  | sourceChanged
  | identityConflict
  deriving DecidableEq, Repr

/-- What the metadata says of a user: `suspended` is null where there is no such user. -/
structure MemberStatus where
  suspended : Option Bool
  suspendedAt : Option Millis
  deriving DecidableEq, Repr

/-- What the metadata of a merge says of one of its users. -/
structure MergeParty where
  userId : UserId
  roleId : Option RoleId
  suspendedAt : Option Millis
  deriving DecidableEq, Repr

/-- `metadata_json`, with its `before`, `requested` and `after`. -/
inductive AuditMetadata where
  | role (before : Option RoleId) (requested : RoleId) (after : Option RoleId)
  | status (before : MemberStatus) (requested : Bool) (after : MemberStatus)
  | merge (survivor loser : MergeParty) (survivorAfter : MergeParty)
    (loserAfter : Option MergeParty)
  deriving DecidableEq, Repr

/-- A row of `authorization_audit_events`. The principal is a user where `actorUserId` is set
and a service otherwise. -/
structure AuditEvent where
  id : Text
  occurredAt : Millis
  requestId : Text
  actorUserId : Option UserId
  actorService : Option Text
  action : AuditAction
  resourceId : UserId
  targetUserId : UserId
  reasonCode : ReasonCode
  operationResult : OperationResult
  metadata : AuditMetadata
  deriving DecidableEq, Repr

structure WorkspaceDb (Records : Type) where
  users : Table UserRow.id
  roles : Table RoleRow.id
  rolePermissions : List RolePermission
  assignments : Table RoleAssignment.userId
  identities : Table UserIdentity.id
  authSessions : Table AuthSession.id
  audit : Table AuditEvent.id
  records : Records

def ownerRoleId : RoleId := BuiltInRoleKey.owner.id

namespace WorkspaceDb

variable {Records : Type}

def roleId (db : WorkspaceDb Records) (userId : UserId) : Option RoleId :=
  (db.assignments.get? userId).map (·.roleId)

def suspendedAt (db : WorkspaceDb Records) (userId : UserId) : Option Millis :=
  (db.users.get? userId).bind (·.suspendedAt)

/-- The role a user is assigned, by the join of the assignments with the roles. -/
def role (db : WorkspaceDb Records) (userId : UserId) : Option RoleRow :=
  (db.roleId userId).bind db.roles.get?

/-- An unsuspended user whose role meets `p`. -/
def activeWith (db : WorkspaceDb Records) (userId : UserId) (p : RoleRow → Bool) : Bool :=
  (db.users.get? userId).any (·.suspendedAt.isNone) && (db.role userId).any p

def grants (db : WorkspaceDb Records) (permission : PermissionId) (r : RoleRow) : Bool :=
  rolePermissionPredicate db.rolePermissions permission r

def userIsOwner (db : WorkspaceDb Records) (userId : UserId) : Bool :=
  db.roleId userId = some ownerRoleId

def anotherUnsuspendedOwner (db : WorkspaceDb Records) (targetUserId : UserId) : Bool :=
  db.users.rows.any fun u =>
    db.roleId u.id = some ownerRoleId && u.suspendedAt.isNone && u.id ≠ targetUserId

/-- Whether a later statement of the batch runs: its audit row says `applied`. -/
def gate (db : WorkspaceDb Records) (auditId : Text) : Bool :=
  (db.audit.get? auditId).any fun e => e.operationResult = .applied

end WorkspaceDb

/-! ## The mutations of the authorization store -/

inductive AuthorizationMutationOutcome where
  | applied
  | noOp
  | actorAuthorizationChanged
  | roleNotFound
  | memberNotFound
  | conflict
  deriving DecidableEq, Repr

/-- The conditions of `mutationConditions`, as they stand when the batch runs. -/
structure MutationConditions where
  /-- The actor may make this change. -/
  actor : Bool
  notFound : List (AuthorizationMutationOutcome × Bool)
  resource : Bool
  stateChanged : Bool

/-- `outcomeExpression` -/
def MutationConditions.outcome (c : MutationConditions) : AuthorizationMutationOutcome :=
  if !c.actor then .actorAuthorizationChanged
  else
    match c.notFound.find? (·.2) with
    | some missing => missing.1
    | none =>
      if !c.resource then .conflict
      else if !c.stateChanged then .noOp
      else .applied

/-- What an audited mutation writes besides its decision. -/
structure AuditInput where
  requestId : Text
  actorUserId : UserId
  action : AuditAction
  targetUserId : UserId
  reasonCode : ReasonCode
  noOpReasonCode : ReasonCode
  occurredAt : Millis
  /-- The metadata, given whether the mutation is applied. -/
  metadata : Bool → AuditMetadata

namespace AuditInput

def reason (input : AuditInput) : AuthorizationMutationOutcome → ReasonCode
  | .applied => input.reasonCode
  | .noOp => input.noOpReasonCode
  | .actorAuthorizationChanged => .actorAuthorizationChanged
  | .roleNotFound => .roleNotFound
  | .memberNotFound => .memberNotFound
  | .conflict => .ownerConflict

/-- The status that `RETURNING` reads back from the reason. -/
def returned (input : AuditInput) (reason : ReasonCode) : AuthorizationMutationOutcome :=
  if reason = input.reasonCode then .applied
  else if reason = input.noOpReasonCode then .noOp
  else
    match reason with
    | .actorAuthorizationChanged => .actorAuthorizationChanged
    | .roleNotFound => .roleNotFound
    | .memberNotFound => .memberNotFound
    | _ => .conflict

end AuditInput

def AuthorizationMutationOutcome.result : AuthorizationMutationOutcome → OperationResult
  | .applied => .applied
  | .noOp => .noOp
  | .actorAuthorizationChanged => .denied
  | .roleNotFound | .memberNotFound | .conflict => .rejected

/-- `auditStatement`: the row that records the decision. -/
def auditStatement (input : AuditInput) (outcome : AuthorizationMutationOutcome)
    (auditId : Text) : AuditEvent where
  id := auditId
  occurredAt := input.occurredAt
  requestId := input.requestId
  actorUserId := some input.actorUserId
  actorService := none
  action := input.action
  resourceId := input.targetUserId
  targetUserId := input.targetUserId
  reasonCode := input.reason outcome
  operationResult := outcome.result
  metadata := input.metadata (outcome = .applied)

structure ReplaceMemberRole where
  targetUserId : UserId
  roleId : RoleId
  actorUserId : UserId
  requestId : Text
  now : Millis
  deriving DecidableEq, Repr

structure ReplaceMemberStatus where
  targetUserId : UserId
  suspended : Bool
  actorUserId : UserId
  requestId : Text
  now : Millis
  deriving DecidableEq, Repr

namespace WorkspaceDb

variable {Records : Type}

/-- Runs a batch: the audit row, and then the writes where it is `applied`. The whole batch
fails where the id of the audit row is taken. -/
def audited (db : WorkspaceDb Records) (row : AuditEvent)
    (writes : WorkspaceDb Records → WorkspaceDb Records) : Option (WorkspaceDb Records) :=
  (db.audit.insert? row).map fun audit =>
    let decided := { db with audit }
    if decided.gate row.id then writes decided else decided

/-- The conditions of `replaceMemberRole`. -/
def roleConditions (db : WorkspaceDb Records) (input : ReplaceMemberRole) :
    MutationConditions where
  actor :=
    db.activeWith input.actorUserId fun r =>
      db.grants .workspaceMembersManage r &&
        (!roleStateChanged
          || (input.roleId ≠ ownerRoleId && !db.userIsOwner input.targetUserId)
          || db.grants .workspaceTransferOwnership r)
  notFound :=
    [(.roleNotFound, (db.roles.get? input.roleId).isNone),
      (.memberNotFound, (db.assignments.get? input.targetUserId).isNone)]
  resource :=
    (db.roles.get? input.roleId).isSome && (db.assignments.get? input.targetUserId).isSome &&
      (!roleStateChanged
        || input.roleId = ownerRoleId
        || !db.userIsOwner input.targetUserId
        || db.anotherUnsuspendedOwner input.targetUserId)
  stateChanged := roleStateChanged
where
  roleStateChanged : Bool := (db.roleId input.targetUserId).any fun roleId => roleId ≠ input.roleId

def roleAudit (db : WorkspaceDb Records) (input : ReplaceMemberRole) : AuditInput where
  requestId := input.requestId
  actorUserId := input.actorUserId
  action := .memberRoleUpdated
  targetUserId := input.targetUserId
  reasonCode := .memberRoleUpdated
  noOpReasonCode := .memberRoleUnchanged
  occurredAt := input.now
  metadata applied :=
    .role (db.roleId input.targetUserId) input.roleId
      (if applied then some input.roleId else db.roleId input.targetUserId)

/-- The gated statements of `replaceMemberRole`. -/
def setRole (input : ReplaceMemberRole) (db : WorkspaceDb Records) : WorkspaceDb Records :=
  { db with
    users := db.users.update (fun u => u.id = input.targetUserId) fun u =>
      { u with updatedAt := input.now }
    assignments := db.assignments.update (fun a => a.userId = input.targetUserId) fun a =>
      { a with roleId := input.roleId } }

/-- Atomically revalidates the actor, preserves owner invariants, updates the role, and
audits. -/
def replaceMemberRole (db : WorkspaceDb Records) (auditId : Text) (input : ReplaceMemberRole) :
    Option (WorkspaceDb Records × AuthorizationMutationOutcome) :=
  let audit := db.roleAudit input
  let row := auditStatement audit (db.roleConditions input).outcome auditId
  (db.audited row (setRole input)).map fun after => (after, audit.returned row.reasonCode)

/-- The conditions of `replaceMemberStatus`. -/
def statusConditions (db : WorkspaceDb Records) (input : ReplaceMemberStatus) :
    MutationConditions where
  actor :=
    db.activeWith input.actorUserId fun r =>
      db.grants .workspaceMembersManage r &&
        (!statusStateChanged
          || !db.userIsOwner input.targetUserId
          || db.grants .workspaceTransferOwnership r)
  notFound := [(.memberNotFound, !isMember)]
  resource :=
    isMember &&
      (!statusStateChanged
        || !input.suspended
        || !db.userIsOwner input.targetUserId
        || db.anotherUnsuspendedOwner input.targetUserId)
  stateChanged := statusStateChanged
where
  statusStateChanged : Bool :=
    (db.users.get? input.targetUserId).any fun u => u.suspendedAt.isSome ≠ input.suspended
  isMember : Bool :=
    (db.users.get? input.targetUserId).isSome && (db.assignments.get? input.targetUserId).isSome

def statusAudit (db : WorkspaceDb Records) (input : ReplaceMemberStatus) : AuditInput where
  requestId := input.requestId
  actorUserId := input.actorUserId
  action := .memberStatusUpdated
  targetUserId := input.targetUserId
  reasonCode := .memberStatusUpdated
  noOpReasonCode := .memberStatusUnchanged
  occurredAt := input.now
  metadata applied :=
    .status before input.suspended
      (if applied then
        { suspended := some input.suspended
          suspendedAt := if input.suspended then some input.now else none }
      else before)
where
  before : MemberStatus :=
    { suspended := (db.users.get? input.targetUserId).map (·.suspendedAt.isSome)
      suspendedAt := db.suspendedAt input.targetUserId }

/-- The gated statements of `replaceMemberStatus`: a suspension also signs the user out. -/
def setStatus (input : ReplaceMemberStatus) (db : WorkspaceDb Records) : WorkspaceDb Records :=
  { db with
    authSessions :=
      if input.suspended then db.authSessions.delete fun a => a.userId = input.targetUserId
      else db.authSessions
    users := db.users.update (fun u => u.id = input.targetUserId) fun u =>
      { u with
        suspendedAt := if input.suspended then some input.now else none
        updatedAt := input.now } }

/-- Atomically revalidates the actor, preserves owner invariants, changes status, and audits. -/
def replaceMemberStatus (db : WorkspaceDb Records) (auditId : Text)
    (input : ReplaceMemberStatus) :
    Option (WorkspaceDb Records × AuthorizationMutationOutcome) :=
  let audit := db.statusAudit input
  let row := auditStatement audit (db.statusConditions input).outcome auditId
  (db.audited row (setStatus input)).map fun after => (after, audit.returned row.reasonCode)

/-! The status that the caller is given is the decision. -/

end WorkspaceDb

end BackgroundAgents.Workspace

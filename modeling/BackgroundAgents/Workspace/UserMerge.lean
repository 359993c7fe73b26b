import BackgroundAgents.Workspace.Members
import BackgroundAgents.Lib.Strings

/-!
# Merging two users

`mergeUsers` folds the records of one user, the loser, into another, the
survivor. `MergeCall` is a call by the reads it has made: each is a statement
of its own, so that the database may change between any two of them and before
the batch. The batch decides again from the state it finds (`decision`) and
moves nothing unless its audit row says `applied`.

`members` is the system of the three mutations.
-/

namespace BackgroundAgents.Workspace

open Transition

inductive UserMergeErrorCode where
  | selfMerge
  | survivorNotFound
  | roleAssignmentMissing
  | roleConflict
  | suspensionConflict
  | ownerSuspended
  | actorAuthorizationChanged
  | preconditionsChanged
  | sourceChanged
  | identityConflict
  deriving DecidableEq, Repr

structure UserMergeError where
  code : UserMergeErrorCode
  message : Text
  deriving DecidableEq, Repr

/-- The error that a merge of two users is refused with. -/
def userMergeError (code : UserMergeErrorCode) (survivorId : UserId) : UserMergeError where
  code := code
  message :=
    match code with
    | .selfMerge => "Survivor and loser must be different users".toList
    | .survivorNotFound => "Survivor user ".toList ++ survivorId ++ " not found".toList
    | .roleAssignmentMissing =>
      "Both users must have explicit role assignments before merging".toList
    | .roleConflict => "Resolve conflicting user roles before merging".toList
    | .suspensionConflict =>
      "Resolve conflicting user suspension states before merging".toList
    | .ownerSuspended => "The surviving Owner must be active before merging".toList
    | .actorAuthorizationChanged =>
      "The acting user's authorization changed; nothing was merged".toList
    | .preconditionsChanged => "User roles or suspension changed; nothing was merged".toList
    | .sourceChanged => "The merged-in user's email changed; nothing was merged".toList
    | .identityConflict => "Both users have a GitHub identity; nothing was merged".toList

/-- Who performs a merge; the guard of a user must still hold when the batch runs. -/
inductive UserMergeActor (Records : Type) where
  | operator
  | user (userId : UserId) (requestId : Text) (guard : WorkspaceDb Records → Bool)

structure UserMergeOptions (Records : Type) where
  survivorId : UserId
  loserId : UserId
  dryRun : Bool := false
  actor : UserMergeActor Records := .operator

/-- What a merge takes from its runtime. -/
structure MergeRuntime (Records : Type) where
  toLowerCase : Text → Text
  /-- The statements of the batch on the records of the survivor and the loser, `none` where
  a constraint or a trigger of the database refuses one of them. -/
  moveRecords : UserId → UserId → Records → Option Records

def normalizeEmail (toLowerCase : Text → Text) (email : Option Text) : Option Text :=
  (email.map fun e => toLowerCase (Strings.trim e)).filter (· ≠ [])

namespace WorkspaceDb

variable {Records : Type}

def github : Text := "github".toList

/-- `GITHUB_IDENTITY_CONFLICT_SQL`: merging would leave the survivor with two GitHub
identities. -/
def githubIdentityConflict (db : WorkspaceDb Records) (survivorId loserId : UserId) : Bool :=
  db.identities.rows.any (fun i => i.userId = survivorId && i.provider = github) &&
    db.identities.rows.any (fun i => i.userId = loserId && i.provider = github)

/-- The roles and suspensions under which the batch merges. -/
def mergePreconditions (db : WorkspaceDb Records) (survivorId loserId : UserId) : Bool :=
  (db.users.get? survivorId).any fun survivor =>
    (db.users.get? loserId).any fun loser =>
      (db.role loserId).any fun role =>
        db.roleId survivorId = some role.id
          && survivor.suspendedAt.isNone = loser.suspendedAt.isNone
          && (role.key ≠ some .owner || survivor.suspendedAt.isNone)

def mergeParty (db : WorkspaceDb Records) (userId : UserId) : MergeParty where
  userId := userId
  roleId := db.roleId userId
  suspendedAt := db.suspendedAt userId

end WorkspaceDb

/-- A call of `mergeUsers`, by what it does next and what it read. -/
inductive MergeCall (Records : Type) where
  | readingSurvivor (options : UserMergeOptions Records)
  | readingLoser (options : UserMergeOptions Records) (survivor : UserRow)
  | readingRoles (options : UserMergeOptions Records) (survivor loser : UserRow)
  | readingIdentities (options : UserMergeOptions Records) (survivor loser : UserRow)
  | writing (options : UserMergeOptions Records) (survivor loser : UserRow)

namespace MergeCall

variable {Records : Type}

/-- The start of a call: a user is not merged into itself. -/
def start (options : UserMergeOptions Records) : Except UserMergeError (MergeCall Records) :=
  if options.survivorId = options.loserId then
    .error (userMergeError .selfMerge options.survivorId)
  else .ok (.readingSurvivor options)

/-- The next read of a call. `none` is a call that returns without a batch: its loser is gone,
so that an earlier merge completed, or it is a dry run. -/
def read (db : WorkspaceDb Records) :
    MergeCall Records → Except UserMergeError (Option (MergeCall Records))
  | readingSurvivor options =>
    match db.users.get? options.survivorId with
    | some survivor => .ok (some (readingLoser options survivor))
    | none => .error (userMergeError .survivorNotFound options.survivorId)
  | readingLoser options survivor =>
    .ok ((db.users.get? options.loserId).map (readingRoles options survivor))
  | readingRoles options survivor loser =>
    match db.role options.survivorId, db.role options.loserId with
    | some survivorRole, some loserRole =>
      if survivorRole.id ≠ loserRole.id then
        .error (userMergeError .roleConflict options.survivorId)
      else if survivor.suspendedAt.isNone ≠ loser.suspendedAt.isNone then
        .error (userMergeError .suspensionConflict options.survivorId)
      else if loserRole.key = some .owner ∧ survivor.suspendedAt.isSome then
        .error (userMergeError .ownerSuspended options.survivorId)
      else .ok (some (readingIdentities options survivor loser))
    | _, _ => .error (userMergeError .roleAssignmentMissing options.survivorId)
  | readingIdentities options survivor loser =>
    if db.githubIdentityConflict options.survivorId options.loserId then
      .error (userMergeError .identityConflict options.survivorId)
    else .ok (if options.dryRun then none else some (writing options survivor loser))
  | writing options survivor loser => .ok (some (writing options survivor loser))

end MergeCall

/-! ## The batch -/

/-- The decision of the batch, `none` where it applies. -/
def mergeDecision {Records : Type} (db : WorkspaceDb Records)
    (options : UserMergeOptions Records) (loser : UserRow) : Option ReasonCode :=
  if !guarded then some .actorAuthorizationChanged
  else if !db.mergePreconditions options.survivorId options.loserId then
    some .preconditionsChanged
  else if !(db.users.get? options.loserId).any fun u =>
      u.email = loser.email && u.emailVerified = loser.emailVerified then
    some .sourceChanged
  else if db.githubIdentityConflict options.survivorId options.loserId then
    some .identityConflict
  else none
where
  guarded : Bool :=
    match options.actor with
    | .operator => true
    | .user _ _ guard => guard db

def mergeReason {Records : Type} (actor : UserMergeActor Records) : ReasonCode :=
  match actor with
  | .operator => .operatorMerge
  | .user .. => .memberMerge

def mergeAudit {Records : Type} (db : WorkspaceDb Records) (options : UserMergeOptions Records)
    (loser : UserRow) (auditId : Text) (now : Millis) : AuditEvent where
  id := auditId
  occurredAt := now
  requestId :=
    match options.actor with
    | .operator => "operator-cli:".toList ++ auditId
    | .user _ requestId _ => requestId
  actorUserId :=
    match options.actor with
    | .operator => none
    | .user userId _ _ => some userId
  actorService :=
    match options.actor with
    | .operator => some "operator-cli".toList
    | .user .. => none
  action := .userMerged
  resourceId := options.survivorId
  targetUserId := options.loserId
  reasonCode := (mergeDecision db options loser).getD (mergeReason options.actor)
  operationResult :=
    match mergeDecision db options loser with
    | none => .applied
    | some .actorAuthorizationChanged => .denied
    | some _ => .rejected
  metadata :=
    .merge (db.mergeParty options.survivorId) (db.mergeParty options.loserId)
      (db.mergeParty options.survivorId)
      (if (mergeDecision db options loser).isNone then none
        else some (db.mergeParty options.loserId))

namespace WorkspaceDb

variable {Records : Type}

/-- The loser's identities become the survivor's, save where the survivor has the same one. -/
def moveIdentities (db : WorkspaceDb Records) (survivorId loserId : UserId) :
    WorkspaceDb Records :=
  let kept := db.identities.delete fun i =>
    i.userId = loserId && db.identities.rows.any fun s =>
      s.userId = survivorId && s.provider = i.provider && s.providerUserId = i.providerUserId
  { db with
    identities := kept.update (fun i => i.userId = loserId) fun i =>
      { i with userId := survivorId } }

/-- The loser's sign-ins, role and row go. -/
def removeUser (db : WorkspaceDb Records) (loserId : UserId) : WorkspaceDb Records :=
  { db with
    authSessions := db.authSessions.delete fun a => a.userId = loserId
    assignments := db.assignments.delete fun a => a.userId = loserId
    users := db.users.delete fun u => u.id = loserId }

/-- The statement that gives a survivor without an email the loser's. Its guard against other
owners of the email is stricter than the unique index on it. -/
def fillEmail (db : WorkspaceDb Records) (survivorId : UserId) (email : Text)
    (emailVerified : Bool) (now : Millis) : WorkspaceDb Records :=
  { db with
    users := db.users.update
      (fun u =>
        u.id = survivorId && u.email.all (fun e => Strings.sqlTrim e = []) &&
          !db.users.rows.any fun other =>
            other.id ≠ u.id && other.email.any fun e => Strings.sqlLower (Strings.sqlTrim e) = email)
      fun u => { u with email := some email, emailVerified, updatedAt := now } }

end WorkspaceDb

/-- The address that a survivor without one takes over. -/
def backfillEmail (toLowerCase : Text → Text) (survivor loser : UserRow) : Option Text :=
  match normalizeEmail toLowerCase survivor.email with
  | some _ => none
  | none => normalizeEmail toLowerCase loser.email

variable {Records : Type}

/-- The gated statements of the batch. -/
def mergeWrites (runtime : MergeRuntime Records) (db : WorkspaceDb Records)
    (options : UserMergeOptions Records) (survivor loser : UserRow) (now : Millis) :
    Option (WorkspaceDb Records) :=
  (runtime.moveRecords options.survivorId options.loserId db.records).map fun records =>
    let moved := (({ db with records }).moveIdentities options.survivorId
      options.loserId).removeUser options.loserId
    match backfillEmail runtime.toLowerCase survivor loser with
    | some email => moved.fillEmail options.survivorId email loser.emailVerified now
    | none => moved

/-- The batch of a merge; `none` where it fails as a whole. -/
def mergeBatch (runtime : MergeRuntime Records) (db : WorkspaceDb Records)
    (options : UserMergeOptions Records) (survivor loser : UserRow) (auditId : Text)
    (now : Millis) : Option (WorkspaceDb Records) :=
  (db.audit.insert? (mergeAudit db options loser auditId now)).bind fun audit =>
    let decided := { db with audit }
    if decided.gate auditId then mergeWrites runtime decided options survivor loser now
    else some decided

/-! ## The system -/

structure MembersState (Records : Type) where
  db : WorkspaceDb Records
  merges : List (MergeCall Records) := []

/-- A `crypto.randomUUID()` names each audit row: it is an id that no row has yet, or the
batch fails. -/
inductive MembersStep (Records : Type) where
  | replaceMemberRole (auditId : Text) (input : ReplaceMemberRole)
  | replaceMemberStatus (auditId : Text) (input : ReplaceMemberStatus)
  | mergeUsers (options : UserMergeOptions Records)
  | readMerge (i : Nat)
  | writeMerge (i : Nat) (auditId : Text) (now : Millis)

namespace MembersState

def setMerge (s : MembersState Records) (i : Nat) (next : Option (MergeCall Records)) :
    MembersState Records :=
  { s with merges := advance s.merges i next }

/-- A call that throws, returns or whose batch fails is over. -/
def step (runtime : MergeRuntime Records) (s : MembersState Records) :
    MembersStep Records → Option (MembersState Records)
  | .replaceMemberRole auditId input =>
    (s.db.replaceMemberRole auditId input).map fun result => { s with db := result.1 }
  | .replaceMemberStatus auditId input =>
    (s.db.replaceMemberStatus auditId input).map fun result => { s with db := result.1 }
  | .mergeUsers options =>
    match MergeCall.start options with
    | .ok call => some { s with merges := s.merges ++ [call] }
    | .error _ => some s
  | .readMerge i =>
    match s.merges[i]? with
    | some call =>
      match call.read s.db with
      | .ok next => some (s.setMerge i next)
      | .error _ => some (s.setMerge i none)
    | none => none
  | .writeMerge i auditId now =>
    match s.merges[i]? with
    | some (.writing options survivor loser) =>
      match mergeBatch runtime s.db options survivor loser auditId now with
      | some db => some (({ s with db }).setMerge i none)
      | none => some (s.setMerge i none)
    | _ => none

end MembersState

/-- The system of all calls that change members. -/
def members (runtime : MergeRuntime Records) :
    System (MembersState Records) (MembersStep Records) where
  step := MembersState.step runtime

end BackgroundAgents.Workspace

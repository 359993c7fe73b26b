import BackgroundAgents.Lib.Table
import Mathlib.Data.Prod.Lex

/-!
# The image-build store

The table `image_builds` and the statements `ImageBuildStore` and
`ImageBuildFinalizationStore` issue on it. A `Write` is what one atomic statement
(or one atomic batch) does: the rows it touches and how it rewrites them, the rows
it then removes, and the row it adds. Every writing statement of the source is one
definition under the source's name, and `StoreOp` lists them all.

`tryMarkImageBuildReady` is five statements with other requests in between, so it
is a small program of its own: `MarkReady.step` executes the next one.

Build ids, session ids, artifact ids, operation references, hashes and lease tokens
stand for non-empty generated strings, of which only equality is used (and, of the
build ids, the order); times are milliseconds. `repository_shas` is only ever
written by `JSON.stringify`, so it is kept as the list it encodes.
-/

namespace BackgroundAgents.ImageBuilds

abbrev Millis := Nat

abbrev BuildId := Nat

abbrev SessionId := Nat

abbrev ArtifactId := Nat

abbrev OperationRef := Nat

abbrev CompletionHash := Nat

abbrev TokenHash := Nat

abbrev LeaseToken := Nat

inductive ImageBuildScopeKind where
  | repo
  | environment
  deriving DecidableEq, Repr

/-- What an image bakes. -/
structure ImageBuildScope where
  kind : ImageBuildScopeKind
  id : String
  deriving DecidableEq, Repr

inductive ImageBuildProvider where
  | modal
  | modalVm
  | vercel
  | e2b
  | daytona
  | boat
  deriving DecidableEq, Repr

inductive ImageBuildStatus where
  | building
  | ready
  | failed
  | superseded
  deriving DecidableEq, Repr

structure RepositoryShaEntry where
  repoOwner : String
  repoName : String
  baseSha : String
  deriving DecidableEq, Repr

/-- A row of `image_builds`. -/
structure ImageBuildRow where
  id : BuildId
  scope : ImageBuildScope
  provider : ImageBuildProvider
  status : ImageBuildStatus := .building
  repositoriesFingerprint : String
  repositoryShas : List RepositoryShaEntry := []
  runtimeVersion : String := ""
  buildDurationSeconds : Option Nat := none
  errorMessage : Option String := none
  createdAt : Millis
  providerImageId : Option ArtifactId := none
  providerSessionId : Option SessionId := none
  providerOperationRef : Option OperationRef := none
  providerOperationDeadlineAt : Option Millis := none
  completionHash : Option CompletionHash := none
  finalizationLeaseToken : Option LeaseToken := none
  finalizationLeaseExpiresAt : Option Millis := none
  providerSessionCleanupPending : Option Bool := none
  callbackTokenHash : Option TokenHash := none
  callbackTokenExpiresAt : Option Millis := none
  callbackTokenUsedAt : Option Millis := none
  deriving DecidableEq, Repr

abbrev ImageBuildTable := Table ImageBuildRow.id

/-- `NO_PROVIDER_SESSION_OBLIGATION_SQL`. -/
def ImageBuildRow.noProviderSessionObligation (r : ImageBuildRow) : Bool :=
  r.providerSessionCleanupPending = some false ∨
    (r.providerSessionCleanupPending = none ∧ r.providerSessionId = none)

/-- `status IN ('failed', 'superseded')`. -/
def ImageBuildStatus.discarded : ImageBuildStatus → Bool
  | .failed | .superseded => true
  | _ => false

/-- `status IN ('building', 'ready')`. -/
def ImageBuildStatus.active : ImageBuildStatus → Bool
  | .building | .ready => true
  | _ => false

/-- The row belongs to this scope and provider. -/
def ImageBuildRow.ofScope (r : ImageBuildRow) (scope : ImageBuildScope)
    (provider : ImageBuildProvider) : Bool :=
  r.scope = scope ∧ r.provider = provider

/-- `created_at > ? OR (created_at = ? AND id > ?)`. -/
def ImageBuildRow.newerThan (r : ImageBuildRow) (createdAt : Millis) (id : BuildId) : Bool :=
  r.createdAt > createdAt ∨ (r.createdAt = createdAt ∧ r.id > id)

/-- `created_at < ? OR (created_at = ? AND id < ?)`. -/
def ImageBuildRow.olderThan (r : ImageBuildRow) (createdAt : Millis) (id : BuildId) : Bool :=
  r.createdAt < createdAt ∨ (r.createdAt = createdAt ∧ r.id < id)

/-! ## Writes -/

/-- What one atomic statement does. -/
structure Write where
  touches : ImageBuildTable → ImageBuildRow → Bool := fun _ _ => false
  set : ImageBuildRow → ImageBuildRow := id
  removes : ImageBuildRow → Bool := fun _ => false
  adds : ImageBuildTable → Option ImageBuildRow := fun _ => none
  keeps : ∀ r, (set r).id = r.id := by intro _; rfl

/-- The row a write leaves of `r`. -/
def Write.row (w : Write) (t : ImageBuildTable) (r : ImageBuildRow) : Option ImageBuildRow :=
  let r' := if w.touches t r then w.set r else r
  if w.removes r' then none else some r'

/-- The table after a write; an insertion under an id that is taken is refused. -/
def Write.run (w : Write) (t : ImageBuildTable) : ImageBuildTable :=
  let t' := (t.update (w.touches t) w.set w.keeps).delete w.removes
  match w.adds t with
  | none => t'
  | some row => (t'.insert? row).getD t'

/-- `(result.meta?.changes ?? 0) > 0`. -/
def Write.changes (w : Write) (t : ImageBuildTable) : Bool :=
  (w.adds t).isSome || t.rows.any fun r => w.touches t r || w.removes r

/-- Registration input for a new building row. -/
structure ImageBuildRegistration where
  id : BuildId
  scope : ImageBuildScope
  provider : ImageBuildProvider
  repositoriesFingerprint : String
  callbackTokenHash : Option TokenHash
  callbackTokenExpiresAt : Option Millis
  deriving DecidableEq, Repr

/-- `registerBuild`: the `NOT EXISTS` guard is the concurrency gate. -/
def registerBuild (build : ImageBuildRegistration) (now : Millis) : Write where
  adds t :=
    if t.rows.any fun r => r.ofScope build.scope build.provider && r.status = .building then none
    else some
      { id := build.id
        scope := build.scope
        provider := build.provider
        repositoriesFingerprint := build.repositoriesFingerprint
        callbackTokenHash := build.callbackTokenHash
        callbackTokenExpiresAt := build.callbackTokenExpiresAt
        createdAt := now }

def bindProviderSession (buildId : BuildId) (provider : ImageBuildProvider)
    (providerSessionId : SessionId) : Write where
  touches _ r := r.id = buildId ∧ r.provider = provider ∧ r.status = .building ∧
    (r.providerSessionId = none ∨ r.providerSessionId = some providerSessionId)
  set r := { r with
    providerSessionId := some providerSessionId, providerSessionCleanupPending := some true }

def markSourceCreateIntent (buildId : BuildId) (provider : ImageBuildProvider) : Write where
  touches _ r := r.id = buildId ∧ r.provider = provider ∧ r.status = .building ∧
    r.providerSessionId = none
  set r := { r with providerSessionCleanupPending := some true }

def attachRecoveredProviderSession (buildId : BuildId) (provider : ImageBuildProvider)
    (providerSessionId : SessionId) : Write where
  touches _ r := r.id = buildId ∧ r.provider = provider ∧ r.status.discarded ∧
    r.providerSessionId = none
  set r := { r with
    providerSessionId := some providerSessionId, providerSessionCleanupPending := some true }

def clearUnboundSourceIntent (buildId : BuildId) : Write where
  touches _ r := r.id = buildId ∧ r.providerSessionId = none ∧
    r.providerSessionCleanupPending = some true
  set r := { r with providerSessionCleanupPending := some false }

def clearProviderOperation (buildId : BuildId) (operationRef : OperationRef) : Write where
  touches _ r := r.id = buildId ∧ r.providerOperationRef = some operationRef ∧
    r.status.discarded ∧ r.providerImageId = none
  set r := { r with providerOperationRef := none, providerOperationDeadlineAt := none }

/-- `deleteSupersededImage`: with a reaped artifact its column is cleared first, in one batch. -/
def deleteSupersededImage (imageBuildId : BuildId) (reapedProviderImageId : Option ArtifactId) :
    Write where
  touches _ r := r.id = imageBuildId ∧ r.status = .superseded ∧
    reapedProviderImageId ≠ none ∧ r.providerImageId = reapedProviderImageId ∧
    r.noProviderSessionObligation
  set r := { r with providerImageId := none }
  removes r := r.id = imageBuildId ∧ r.status = .superseded ∧ r.providerImageId = none ∧
    r.noProviderSessionObligation ∧ r.providerOperationRef = none

/-- Fail a trigger only before a callback hands the build to finalization. -/
def markBuildFailed (buildId : BuildId) (provider : ImageBuildProvider) (error : String) :
    Write where
  touches _ r := r.id = buildId ∧ r.provider = provider ∧ r.status = .building ∧
    r.callbackTokenUsedAt = none
  set r := { r with status := .failed, errorMessage := some error }

def markRestoreFailed (imageBuildId : BuildId) (error : String) : Write where
  touches _ r := r.id = imageBuildId ∧ r.status = .ready
  set r := { r with status := .failed, errorMessage := some error }

/-- Secret-change invalidation: every live image of the scope, in-flight builds included. -/
def supersedeActiveImages (scope : ImageBuildScope) : Write where
  touches _ r := r.scope = scope ∧ r.status.active
  set r := { r with status := .superseded }

def clearFailedImageArtifact (imageBuildId : BuildId)
    (reapedProviderImageId : Option ArtifactId) : Write where
  touches _ r := r.id = imageBuildId ∧ r.status = .failed ∧
    reapedProviderImageId ≠ none ∧ r.providerImageId = reapedProviderImageId ∧
    r.noProviderSessionObligation
  set r := { r with providerImageId := none, providerSessionId := none }

def staleBuildTimeoutMessage : String := "build timed out (no callback received)"

/-- A building row that no callback and no finalization has reached. -/
def ImageBuildRow.stale (r : ImageBuildRow) (cutoff : Millis) : Bool :=
  r.status = .building ∧ r.createdAt < cutoff ∧ r.providerImageId = none ∧
    r.callbackTokenUsedAt = none ∧ r.completionHash = none ∧ r.finalizationLeaseToken = none

def ImageBuildRow.timedOut (r : ImageBuildRow) : ImageBuildRow :=
  { r with
    status := .failed, errorMessage := some staleBuildTimeoutMessage
    finalizationLeaseToken := none, finalizationLeaseExpiresAt := none }

def markStaleBuildsAsFailed (cutoff : Millis) : Write where
  touches _ r := r.stale cutoff
  set r := r.timedOut

/-- The scoped twin: the oldest stale row only (`ORDER BY created_at, id LIMIT 1`). -/
def markScopeStaleBuildFailed (scope : ImageBuildScope) (provider : ImageBuildProvider)
    (cutoff : Millis) : Write where
  touches t r := r.ofScope scope provider ∧ r.stale cutoff ∧
    (t.first (fun x => x.ofScope scope provider ∧ x.stale cutoff)
      fun x => toLex (x.createdAt, x.id)).map ImageBuildRow.id = some r.id
  set r := r.timedOut

def deleteOldFailedBuilds (cutoff : Millis) : Write where
  removes r := r.status = .failed ∧ r.providerImageId = none ∧ r.noProviderSessionObligation ∧
    r.providerOperationRef = none ∧ r.createdAt < cutoff

/-! ## Callback acceptance -/

/-- What the two accepting statements check: the callback's identity and its payload's hash. -/
structure CompletionCallback where
  buildId : BuildId
  provider : ImageBuildProvider
  providerSessionId : SessionId
  tokenHash : TokenHash
  completionHash : CompletionHash
  now : Millis
  deriving DecidableEq, Repr

/-- The row is building and the callback's token is its own, fresh and unused. -/
def ImageBuildRow.accepts (r : ImageBuildRow) (c : CompletionCallback) : Bool :=
  r.id = c.buildId ∧ r.provider = c.provider ∧ r.providerSessionId = some c.providerSessionId ∧
    r.status = .building ∧ r.callbackTokenHash = some c.tokenHash ∧
    (∃ expiresAt, r.callbackTokenExpiresAt = some expiresAt ∧ expiresAt ≥ c.now) ∧
    r.callbackTokenUsedAt = none

/-- The `UPDATE` of `acceptSuccessfulCompletion`. -/
def acceptSuccessfulCompletion (c : CompletionCallback) (repositoryShas : List RepositoryShaEntry)
    (runtimeVersion : String) (buildDurationSeconds : Nat) : Write where
  touches _ r := r.accepts c
  set r := { r with
    completionHash := some c.completionHash, repositoryShas, runtimeVersion
    buildDurationSeconds := some buildDurationSeconds, callbackTokenUsedAt := some c.now }

/-- The `UPDATE` of `acceptFailedCompletion`. -/
def acceptFailedCompletion (c : CompletionCallback) (errorMessage : String) : Write where
  touches _ r := r.accepts c
  set r := { r with
    status := .failed, completionHash := some c.completionHash
    errorMessage := some errorMessage, callbackTokenUsedAt := some c.now }

/-- The row that `readReplayAcceptance` looks for. -/
def ImageBuildRow.replays (r : ImageBuildRow) (c : CompletionCallback) : Bool :=
  r.id = c.buildId ∧ r.provider = c.provider ∧ r.providerSessionId = some c.providerSessionId ∧
    r.callbackTokenHash = some c.tokenHash ∧ r.callbackTokenUsedAt ≠ none ∧
    r.completionHash = some c.completionHash

inductive ImageBuildCompletionAcceptance where
  | accepted
  | replayed
  | rejected
  deriving DecidableEq, Repr

/-- `readReplayAcceptance`, the statement that follows an accepting `UPDATE` without effect. -/
def readReplayAcceptance (t : ImageBuildTable) (c : CompletionCallback) :
    ImageBuildCompletionAcceptance :=
  if t.rows.any fun r => r.replays c then .replayed else .rejected

/-! ## Finalization -/

def claimLease (buildId : BuildId) (completionHash : CompletionHash) (leaseToken : LeaseToken)
    (now expiresAt : Millis) : Write where
  touches _ r := r.id = buildId ∧ r.status = .building ∧ r.completionHash = some completionHash ∧
    r.callbackTokenUsedAt ≠ none ∧ r.providerSessionId ≠ none ∧
    (r.finalizationLeaseToken = none ∨ r.finalizationLeaseExpiresAt = none ∨
      ∃ leaseEnd, r.finalizationLeaseExpiresAt = some leaseEnd ∧ leaseEnd ≤ now)
  set r := { r with
    finalizationLeaseToken := some leaseToken, finalizationLeaseExpiresAt := some expiresAt }

/-- Who acts on a leased build: the build, completion and session a delivery works on. -/
structure FinalizationKey where
  buildId : BuildId
  provider : ImageBuildProvider
  providerSessionId : SessionId
  completionHash : CompletionHash
  deriving DecidableEq, Repr

/-- The row is the build, completion and session of `k`. -/
def ImageBuildRow.names (r : ImageBuildRow) (k : FinalizationKey) : Bool :=
  r.id = k.buildId ∧ r.provider = k.provider ∧
    r.providerSessionId = some k.providerSessionId ∧ r.completionHash = some k.completionHash

def recordArtifact (k : FinalizationKey) (leaseToken : LeaseToken)
    (providerImageId : ArtifactId) : Write where
  touches _ r := r.names k ∧ r.status = .building ∧
    r.finalizationLeaseToken = some leaseToken ∧ r.providerImageId = none
  set r := { r with
    providerImageId := some providerImageId
    providerOperationRef := none, providerOperationDeadlineAt := none }

def reserveProviderOperation (k : FinalizationKey) (leaseToken : LeaseToken)
    (ref : OperationRef) (deadlineAt : Millis) : Write where
  touches _ r := r.names k ∧ r.status = .building ∧
    r.finalizationLeaseToken = some leaseToken ∧
    r.providerOperationRef = none ∧ r.providerImageId = none
  set r := { r with
    providerOperationRef := some ref, providerOperationDeadlineAt := some deadlineAt }

/-- Releases a retryable attempt only when the caller still owns its lease. -/
def clearLease (buildId : BuildId) (leaseToken : LeaseToken) : Write where
  touches _ r := r.id = buildId ∧ r.finalizationLeaseToken = some leaseToken
  set r := { r with finalizationLeaseToken := none, finalizationLeaseExpiresAt := none }

/-- Terminalizes an ambiguous attempt only when the caller owns the lease. -/
def markFailed (buildId : BuildId) (leaseToken : LeaseToken) (error : String) : Write where
  touches _ r := r.id = buildId ∧ r.status = .building ∧
    r.finalizationLeaseToken = some leaseToken
  set r := { r with
    status := .failed, errorMessage := some error
    finalizationLeaseToken := none, finalizationLeaseExpiresAt := none }

/-- Preserve an artifact whose compensating deletion failed. -/
def quarantineArtifact (k : FinalizationKey) (providerImageId : ArtifactId) (error : String) :
    Write where
  touches _ r := r.names k ∧ r.providerImageId = none ∧
    (r.status = .building ∨ r.status.discarded)
  set r := { r with
    providerImageId := some providerImageId
    status := if r.status = .building then .failed else r.status
    errorMessage := if r.status = .building then some error else r.errorMessage
    finalizationLeaseToken := none, finalizationLeaseExpiresAt := none
    providerOperationRef := none, providerOperationDeadlineAt := none }

/-- Clears the teardown obligation; the session id stays while an artifact or an
operation still needs it. -/
def clearSessionCleanup (buildId : BuildId) (provider : ImageBuildProvider)
    (providerSessionId : SessionId) : Write where
  touches _ r := r.id = buildId ∧ r.provider = provider ∧
    r.providerSessionId = some providerSessionId ∧ r.status ≠ .building ∧
    r.providerSessionCleanupPending ≠ some false
  set r := { r with
    providerSessionCleanupPending := some false
    providerSessionId :=
      if r.providerImageId = none ∧ r.providerOperationRef = none then none
      else r.providerSessionId }

/-! ## Marking a build ready -/

/-- The arguments of `tryMarkImageBuildReady`. -/
structure MarkReady where
  buildId : BuildId
  provider : ImageBuildProvider
  providerImageId : ArtifactId
  repositoryShas : List RepositoryShaEntry
  runtimeVersion : String
  buildDurationSeconds : Nat
  finalizationLeaseToken : Option LeaseToken
  deriving DecidableEq, Repr

/-- What the first `SELECT` reads. -/
structure SelectedBuild where
  scope : ImageBuildScope
  providerSessionId : Option SessionId
  createdAt : Millis
  deriving DecidableEq, Repr

structure SupersededImageBuild where
  imageBuildId : BuildId
  providerImageId : Option ArtifactId
  providerSessionId : Option SessionId
  deriving DecidableEq, Repr

inductive MarkImageBuildReadyResult where
  | markedReady (supersededImages : List SupersededImageBuild)
  | supersededByNewerReady (supersededImage : SupersededImageBuild)
  | notAcceptingCompletion
  deriving DecidableEq, Repr

/-- The next statement of a call. -/
inductive MarkReadyStage where
  | selecting
  | updating (build : SelectedBuild)
  | supersedingBuild (build : SelectedBuild)
  | selectingOlder (build : SelectedBuild)
  | supersedingOlder (older : List SupersededImageBuild)
  deriving DecidableEq, Repr

namespace MarkReady

/-- The row is still this call's: building, and under its lease when it has one. -/
def owns (c : MarkReady) (r : ImageBuildRow) : Bool :=
  r.id = c.buildId ∧ r.provider = c.provider ∧ r.status = .building ∧
    (c.finalizationLeaseToken = none ∨ r.finalizationLeaseToken = c.finalizationLeaseToken)

/-- `SELECT 1 FROM image_builds newer …`. -/
def newerReady (c : MarkReady) (build : SelectedBuild) (t : ImageBuildTable) : Bool :=
  t.rows.any fun r => r.ofScope build.scope c.provider && r.status = .ready &&
    r.newerThan build.createdAt c.buildId

/-- The columns both outcomes write. -/
def settled (c : MarkReady) (status : ImageBuildStatus) (r : ImageBuildRow) : ImageBuildRow :=
  { r with
    status, providerImageId := some c.providerImageId
    repositoryShas := c.repositoryShas, runtimeVersion := c.runtimeVersion
    buildDurationSeconds := some c.buildDurationSeconds
    finalizationLeaseToken :=
      if c.finalizationLeaseToken = none then r.finalizationLeaseToken else none
    finalizationLeaseExpiresAt :=
      if c.finalizationLeaseToken = none then r.finalizationLeaseExpiresAt else none }

/-- `SET status = 'ready' … WHERE … AND NOT EXISTS (newer ready)`. -/
def markReady (c : MarkReady) (build : SelectedBuild) : Write where
  touches t r := c.owns r && !c.newerReady build t
  set r := c.settled .ready r

/-- `tryMarkBuildingBuildSuperseded`. -/
def tryMarkBuildingBuildSuperseded (c : MarkReady) (build : SelectedBuild) : Write where
  touches t r := c.owns r && c.newerReady build t
  set r := c.settled .superseded r

/-- The older ready rows a marked build replaces. -/
def selectOlder (c : MarkReady) (build : SelectedBuild) (t : ImageBuildTable) :
    List SupersededImageBuild :=
  (t.rows.filter fun r => r.ofScope build.scope c.provider && r.status = .ready &&
    r.id ≠ c.buildId && r.olderThan build.createdAt c.buildId).map fun r =>
      ⟨r.id, r.providerImageId, r.providerSessionId⟩

/-- The batch of one `UPDATE … WHERE id = ? AND status = 'ready'` for each replaced row. -/
def supersedeOlder (older : List SupersededImageBuild) : Write where
  touches _ r := r.id ∈ older.map SupersededImageBuild.imageBuildId ∧ r.status = .ready
  set r := { r with status := .superseded }

/-- The `SELECT` a call begins with. -/
def select (c : MarkReady) (t : ImageBuildTable) : Option SelectedBuild :=
  (t.find? fun r => r.id = c.buildId ∧ r.provider = c.provider ∧ r.status = .building).map
    fun r => ⟨r.scope, r.providerSessionId, r.createdAt⟩

/-- The write a stage issues; the selecting stages issue none. -/
def write (c : MarkReady) : MarkReadyStage → Write
  | .selecting | .selectingOlder _ => {}
  | .updating build => c.markReady build
  | .supersedingBuild build => c.tryMarkBuildingBuildSuperseded build
  | .supersedingOlder older => supersedeOlder older

/-- Where a call goes once the statement of its stage has been executed on `t`. -/
def next (c : MarkReady) (t : ImageBuildTable) :
    MarkReadyStage → MarkReadyStage ⊕ MarkImageBuildReadyResult
  | .selecting =>
    match c.select t with
    | none => .inr .notAcceptingCompletion
    | some build => .inl (.updating build)
  | .updating build =>
    if (c.markReady build).changes t then .inl (.selectingOlder build)
    else .inl (.supersedingBuild build)
  | .supersedingBuild build =>
    if (c.tryMarkBuildingBuildSuperseded build).changes t then
      .inr (.supersededByNewerReady ⟨c.buildId, some c.providerImageId, build.providerSessionId⟩)
    else .inr .notAcceptingCompletion
  | .selectingOlder build =>
    match c.selectOlder build t with
    | [] => .inr (.markedReady [])
    | older => .inl (.supersedingOlder older)
  | .supersedingOlder older => .inr (.markedReady older)

end MarkReady

/-- Spawn-time selection: the latest ready image of a scope. -/
def getLatestReadyForSpawn (t : ImageBuildTable) (scope : ImageBuildScope)
    (provider : ImageBuildProvider) : Option ImageBuildRow :=
  t.last (fun r => r.ofScope scope provider ∧ r.status = .ready) ImageBuildRow.createdAt

/-! ## All writes -/

/-- Every write of the store that is one statement on its own. -/
inductive StoreOp where
  | registerBuild (build : ImageBuildRegistration) (now : Millis)
  | bindProviderSession (buildId : BuildId) (provider : ImageBuildProvider)
      (providerSessionId : SessionId)
  | markSourceCreateIntent (buildId : BuildId) (provider : ImageBuildProvider)
  | attachRecoveredProviderSession (buildId : BuildId) (provider : ImageBuildProvider)
      (providerSessionId : SessionId)
  | clearUnboundSourceIntent (buildId : BuildId)
  | clearProviderOperation (buildId : BuildId) (operationRef : OperationRef)
  | deleteSupersededImage (imageBuildId : BuildId) (reapedProviderImageId : Option ArtifactId)
  | markBuildFailed (buildId : BuildId) (provider : ImageBuildProvider) (error : String)
  | markRestoreFailed (imageBuildId : BuildId) (error : String)
  | supersedeActiveImages (scope : ImageBuildScope)
  | clearFailedImageArtifact (imageBuildId : BuildId) (reapedProviderImageId : Option ArtifactId)
  | markStaleBuildsAsFailed (cutoff : Millis)
  | markScopeStaleBuildFailed (scope : ImageBuildScope) (provider : ImageBuildProvider)
      (cutoff : Millis)
  | deleteOldFailedBuilds (cutoff : Millis)
  | acceptSuccessfulCompletion (callback : CompletionCallback)
      (repositoryShas : List RepositoryShaEntry) (runtimeVersion : String)
      (buildDurationSeconds : Nat)
  | acceptFailedCompletion (callback : CompletionCallback) (errorMessage : String)
  | claimLease (buildId : BuildId) (completionHash : CompletionHash) (leaseToken : LeaseToken)
      (now expiresAt : Millis)
  | recordArtifact (key : FinalizationKey) (leaseToken : LeaseToken)
      (providerImageId : ArtifactId)
  | reserveProviderOperation (key : FinalizationKey) (leaseToken : LeaseToken)
      (ref : OperationRef) (deadlineAt : Millis)
  | clearLease (buildId : BuildId) (leaseToken : LeaseToken)
  | markFailed (buildId : BuildId) (leaseToken : LeaseToken) (error : String)
  | quarantineArtifact (key : FinalizationKey) (providerImageId : ArtifactId) (error : String)
  | clearSessionCleanup (buildId : BuildId) (provider : ImageBuildProvider)
      (providerSessionId : SessionId)
  | markReady (call : MarkReady) (stage : MarkReadyStage)
  deriving DecidableEq

def StoreOp.write : StoreOp → Write
  | .registerBuild build now => ImageBuilds.registerBuild build now
  | .bindProviderSession id p s => ImageBuilds.bindProviderSession id p s
  | .markSourceCreateIntent id p => ImageBuilds.markSourceCreateIntent id p
  | .attachRecoveredProviderSession id p s => ImageBuilds.attachRecoveredProviderSession id p s
  | .clearUnboundSourceIntent id => ImageBuilds.clearUnboundSourceIntent id
  | .clearProviderOperation id ref => ImageBuilds.clearProviderOperation id ref
  | .deleteSupersededImage id image => ImageBuilds.deleteSupersededImage id image
  | .markBuildFailed id p e => ImageBuilds.markBuildFailed id p e
  | .markRestoreFailed id e => ImageBuilds.markRestoreFailed id e
  | .supersedeActiveImages scope => ImageBuilds.supersedeActiveImages scope
  | .clearFailedImageArtifact id image => ImageBuilds.clearFailedImageArtifact id image
  | .markStaleBuildsAsFailed cutoff => ImageBuilds.markStaleBuildsAsFailed cutoff
  | .markScopeStaleBuildFailed scope p cutoff =>
    ImageBuilds.markScopeStaleBuildFailed scope p cutoff
  | .deleteOldFailedBuilds cutoff => ImageBuilds.deleteOldFailedBuilds cutoff
  | .acceptSuccessfulCompletion c shas version duration =>
    ImageBuilds.acceptSuccessfulCompletion c shas version duration
  | .acceptFailedCompletion c e => ImageBuilds.acceptFailedCompletion c e
  | .claimLease id hash token now expiresAt => ImageBuilds.claimLease id hash token now expiresAt
  | .recordArtifact k token image => ImageBuilds.recordArtifact k token image
  | .reserveProviderOperation k token ref deadlineAt =>
    ImageBuilds.reserveProviderOperation k token ref deadlineAt
  | .clearLease id token => ImageBuilds.clearLease id token
  | .markFailed id token e => ImageBuilds.markFailed id token e
  | .quarantineArtifact k image e => ImageBuilds.quarantineArtifact k image e
  | .clearSessionCleanup id p s => ImageBuilds.clearSessionCleanup id p s
  | .markReady call stage => call.write stage

end BackgroundAgents.ImageBuilds

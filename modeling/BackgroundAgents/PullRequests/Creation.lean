import BackgroundAgents.Lib.Programs
import BackgroundAgents.PullRequests.Branches

/-!
# Pull request calls

`SessionPullRequestService.createPullRequest`: a call claims its repository,
resolves base and head, looks for an open pull request on the head, pushes with
force, and opens a pull request unless it found one. The calls of an instance
share its rows and its claims.

A push and the opening of a pull request are noted where they are asked for, with
the stored artifacts, the provider's answers and the claim of that moment.
Credentials, logs and broadcasts are left out. An operation carries the local
variables that its call has by then. Between calls the session and its artifacts
may change at will (`Call.rest`).
-/

namespace BackgroundAgents.PullRequests.Creation

open Programs

structure CreatePullRequestInput where
  title : String
  body : String
  baseBranch : Option String
  headBranch : Option String
  repo : RepoIdentity
  sessionUrl : String
  draft : Option Bool
  deriving DecidableEq

inductive CreatePullRequestResult where
  | created (prNumber : Int) (prUrl state headBranch baseBranch : String) (updated : Bool)
  | error (status : Nat) (error : String)
  deriving DecidableEq

structure ExistingOpenPullRequest where
  prNumber : Int
  prUrl : String
  state : String
  baseBranch : String
  deriving DecidableEq

/-- What a call throws: a `PullRequestCreationError`, a `SourceControlProviderError`, or anything
else with the message it has if it is an `Error`. -/
inductive Failure where
  | creation (status : Nat) (message : String)
  | provider (httpStatus : Option Nat) (message : String)
  | other (message : Option String)

/-- The `catch` of `createPullRequest`. -/
def Failure.result : Failure → CreatePullRequestResult
  | .creation status message => .error status message
  | .provider httpStatus message => .error ((httpStatus.filter (· ≠ 0)).getD 500) message
  | .other message => .error 500 (message.getD "Failed to create PR")

/-- The `catch` behind `generatePushAuth`. -/
def Failure.pushAuth : Failure → CreatePullRequestResult
  | .provider _ message => .error 500 message
  | _ => .error 500 "Failed to generate push authentication"

/-! ## What a call goes by -/

structure Setup where
  text : Text
  appName : String
  generateId : Nat → String

structure ScmSettings where
  alwaysUseDraftMode : Option Bool
  pullRequestLabel : Option String
  deriving DecidableEq

structure RepositoryInfo where
  owner : String
  name : String
  defaultBranch : String
  deriving DecidableEq

/-- A call that has its target. -/
structure Request where
  input : CreatePullRequestInput
  session : SessionRow
  target : SessionRepositoryEntry
  deriving DecidableEq

namespace Request

/-- `session.session_name || session.id` -/
def sessionId (request : Request) : String :=
  (request.session.session_name.filter (· ≠ "")).getD request.session.id

def targetBranchName (request : Request) : Option String :=
  (request.target.row.bind (·.branch_name)).or
    (if request.target.isPrimary then request.session.branch_name else none)

/-- `input.baseBranch || target.baseBranch || repoInfo.defaultBranch` -/
def baseBranch (request : Request) (repoInfo : RepositoryInfo) : String :=
  ((request.input.baseBranch.filter (· ≠ "")).or
    (request.target.baseBranch.filter (· ≠ ""))).getD repoInfo.defaultBranch

def headParams (text : Text) (request : Request) (repoInfo : RepositoryInfo) :
    ResolveHeadBranchForPrInput where
  requestedHeadBranch := request.input.headBranch
  sessionBranchName := request.targetBranchName
  generatedBranchName := text.generateBranchName request.sessionId
  baseBranch := request.baseBranch repoInfo

end Request

/-- A call that has its branches. -/
structure Plan where
  request : Request
  repoInfo : RepositoryInfo
  sanitizedHeadBranch : String
  generatedHeadBranch : String
  source : HeadSource
  baseBranch : String
  deriving DecidableEq

/-- The plan of a call, unless its head is no branch name. -/
def Request.plan (text : Text) (request : Request) (repoInfo : RepositoryInfo) : Option Plan :=
  let params := request.headParams text repoInfo
  let resolution := text.resolveHeadBranchForPr params
  (text.sanitizeBranchName (some resolution.headBranch)).filter (· ≠ "") |>.map fun sanitized =>
    { request
      repoInfo
      sanitizedHeadBranch := sanitized
      generatedHeadBranch := params.generatedBranchName
      source := resolution.source
      baseBranch := params.baseBranch }

namespace Plan

def targetRepo (plan : Plan) : RepoIdentity := plan.request.target.repo

def branches (plan : Plan) : HeadBranch where
  targetRepo := plan.targetRepo
  isPrimary := plan.request.target.isPrimary
  headBranch := plan.sanitizedHeadBranch
  generatedHeadBranch := plan.generatedHeadBranch

def headIsCheckout (text : Text) (plan : Plan) : Bool :=
  plan.source = .request ||
    text.normalizeBranchName plan.sanitizedHeadBranch =
      text.normalizeBranchName plan.generatedHeadBranch

/-- The requested base is given and another one than the known base. -/
def separateBase (text : Text) (plan : Plan) (knownBase : Option String) : Bool :=
  plan.request.input.baseBranch.any fun requested =>
    knownBase.any fun known =>
      text.normalizeBranchName requested ≠ text.normalizeBranchName known

end Plan

/-- `live?.baseBranch ?? candidate.baseBranch` -/
def knownBase (candidate : PrArtifactHeadMatch) (live : Option PullRequestSnapshotInput) :
    Option String :=
  (live.map (·.baseBranch)).or candidate.baseBranch

def viable (candidate : PrArtifactHeadMatch) : Bool :=
  candidate.lifecycleState.all (· = .opened)

def verifiable (candidate : PrArtifactHeadMatch) : Bool :=
  candidate.prNumber.isSome && candidate.artifact.url.isSome

/-- A live read that is not open. -/
def released (live : Option PullRequestSnapshotInput) : Bool :=
  live.any (·.lifecycleState ≠ .opened)

structure GitPushSpec where
  repo : RepoIdentity
  targetBranch : String
  force : Bool
  deriving DecidableEq

structure CreatePullRequestConfig where
  repository : RepositoryInfo
  title : String
  body : String
  sourceBranch : String
  targetBranch : String
  draft : Bool
  labels : Option (List String)
  deriving DecidableEq

/-- The provider's result of opening a pull request. -/
structure PullRequestOpened where
  id : Nat
  webUrl : String
  lifecycleState : LifecycleState
  isDraft : Bool
  headSha : Option String
  repositoryExternalId : Option String
  providerUpdatedAt : Option Int
  draft_open : isDraft = true → lifecycleState = .opened

/-! ## The state -/

/-- A claim, by the call that has acquired it. -/
structure Claim where
  call : Nat
  key : String
  deriving DecidableEq

/-- How `getPullRequest` ended; a read that failed has no answer. -/
structure LiveRead where
  call : Nat
  artifact : StoredArtifact
  live : Option PullRequestSnapshotInput
  deriving DecidableEq

/-- What is known when a call asks for a push, or for a pull request to be opened. -/
structure Moment where
  call : Nat
  plan : Plan
  stored : List StoredArtifact
  reads : List LiveRead
  claims : List Claim
  deriving DecidableEq

structure Push extends Moment where
  spec : GitPushSpec
  existing : Option ExistingOpenPullRequest
  deriving DecidableEq

structure State where
  session : Option SessionRow
  repositories : List SessionRepositoryRow
  artifacts : List StoredArtifact
  inFlight : List String
  now : Int
  -- what happened so far
  calls : Nat
  claims : List Claim
  ended : List Nat
  reads : List LiveRead
  pushes : List Push
  openings : List Moment

inductive CreationOp where
  | resolveScmSettings (repo : RepoIdentity)
  | resolveCredentialScope (sessionId : String)
  | generatePushAuth
  | getRepository (request : Request)
  | getPullRequest (plan : Plan) (candidate : PrArtifactHeadMatch)
  | upsert (record : SessionPullRequestRecord)
  | pushBranchToRemote (spec : GitPushSpec)
  | resolvePromptingAuth
  | createPullRequest (config : CreatePullRequestConfig)
  deriving DecidableEq

def CreationOp.Answer : CreationOp → Type
  | .resolveScmSettings _ => ScmSettings
  | .getRepository _ => RepositoryInfo
  | .getPullRequest _ _ => PullRequestSnapshotInput
  | .upsert _ => Bool
  | .pushBranchToRemote _ => Except String Unit
  | .resolvePromptingAuth => Except (Nat × String) Unit
  | .createPullRequest _ => PullRequestOpened
  | _ => Unit

abbrev Creating := Program State CreationOp CreationOp.Answer Failure

def await (o : CreationOp) : Creating o.Answer := Program.perform o

namespace State

/-! ### Claims -/

/-- `claims.claim(repo)`, where the key is not in flight. -/
def claim (s : State) (call : Nat) (key : String) : State :=
  { s with inFlight := s.inFlight ++ [key], claims := s.claims ++ [{ call, key }] }

/-- `claims.release(repo)` -/
def release (s : State) (call : Nat) (key : String) : State :=
  { s with
    inFlight := s.inFlight.filter (· ≠ key)
    claims := s.claims.filter (· ≠ { call, key }) }

/-! ### Rows -/

/-- The second half of `applyPullRequestSnapshot`: the artifact is read again and written. -/
def applySnapshot (s : State) (artifactId : String) (live : PullRequestSnapshotInput) : State :=
  match s.artifacts.find? (·.id = artifactId) with
  | none => s
  | some current =>
    match preparePullRequestArtifactUpdate current.toArtifactRow live s.now with
    | none => s
    | some prepared =>
      { s with
        artifacts := s.artifacts.map fun artifact =>
          if artifact.id = current.id then
            { artifact with toArtifactRow := updateArtifact artifact.toArtifactRow prepared.update }
          else artifact }

def updateSessionRepositoryBranch (s : State) (row : SessionRepositoryRow) (branchName : String) :
    State :=
  { s with
    repositories := s.repositories.map fun stored =>
      if stored.repo_owner = row.repo_owner ∧ stored.repo_name = row.repo_name then
        { stored with branch_name := some branchName }
      else stored }

def updateSessionBranch (s : State) (sessionId branchName : String) : State :=
  { s with
    session := s.session.map fun stored =>
      if stored.id = sessionId then { stored with branch_name := some branchName } else stored }

/-- The branch that was pushed, on the rows that the call has read. -/
def setBranch (s : State) (plan : Plan) : State :=
  let request := plan.request
  let branchName := plan.sanitizedHeadBranch
  let s :=
    match request.target.row with
    | some row =>
      if row.branch_name ≠ some branchName then s.updateSessionRepositoryBranch row branchName
      else s
    | none => s
  if request.target.isPrimary && request.session.branch_name ≠ some branchName then
    s.updateSessionBranch request.session.id branchName
  else s

/-! ### Notes -/

def moment (s : State) (call : Nat) (plan : Plan) : Moment where
  call
  plan
  stored := s.artifacts
  reads := s.reads
  claims := s.claims

def notePush (s : State) (call : Nat) (plan : Plan) (spec : GitPushSpec)
    (existing : Option ExistingOpenPullRequest) : State :=
  { s with pushes := s.pushes ++ [{ s.moment call plan with spec, existing }] }

def noteOpening (s : State) (call : Nat) (plan : Plan) : State :=
  { s with openings := s.openings ++ [s.moment call plan] }

end State

/-! ## The existing pull request -/

/-- `applyLiveSnapshot` -/
def applyLiveSnapshot (plan : Plan) (artifact : StoredArtifact) (live : PullRequestSnapshotInput) :
    Creating Unit := do
  let updatedAt ← Program.gets (·.now)
  let record := snapshotToRecord live
    { artifactId := artifact.id
      sessionId := plan.request.sessionId
      createdAt := artifact.created_at
      updatedAt }
  -- a record that could not be written does not keep the mirror back
  let applied : Bool ← Program.handle (await (.upsert record)) fun _ => return true
  if applied then Program.modify (·.applySnapshot artifact.id live) else return ()

def readLive (plan : Plan) (candidate : PrArtifactHeadMatch) :
    Creating (Option PullRequestSnapshotInput) :=
  Program.handle (do return some (← await (.getPullRequest plan candidate))) fun _ => return none

def reuse (plan : Plan) (candidate : PrArtifactHeadMatch) (live : Option PullRequestSnapshotInput)
    (prNumber : Int) (url : String) : ExistingOpenPullRequest where
  prNumber
  prUrl := (live.map (·.url)).getD url
  state := (live.map toDisplayStatus).getD (if candidate.isDraft then "draft" else "open")
  baseBranch := (knownBase candidate live).getD plan.baseBranch

def takenHead (plan : Plan) (prNumber : Int) : Failure :=
  .creation 409
    ("An open pull request (#" ++ toString prNumber ++ ") already exists for branch \"" ++
      plan.sanitizedHeadBranch ++ "\" in " ++ plan.targetRepo.repoOwner ++ "/" ++
      plan.targetRepo.repoName ++ ". Check out that branch to update it, or create a new branch " ++
      "to open a separate pull request.")

def takenSession (plan : Plan) : Failure :=
  .creation 409
    ("A pull request has already been created for " ++ plan.targetRepo.repoOwner ++ "/" ++
      plan.targetRepo.repoName ++ " in this session.")

/-- The walk over the candidates. -/
def walk (text : Text) (plan : Plan) :
    List PrArtifactHeadMatch → Creating (Option ExistingOpenPullRequest)
  | [] => return none
  | candidate :: rest =>
    match candidate.prNumber, candidate.artifact.url with
    | some prNumber, some url => do
      let live ← readLive plan candidate
      match live.filter (·.lifecycleState ≠ .opened) with
      | some closed =>
        applyLiveSnapshot plan candidate.artifact closed
        walk text plan rest
      | none =>
        if !plan.headIsCheckout text then Program.raise (takenHead plan prNumber)
        else if plan.separateBase text (knownBase candidate live) then walk text plan rest
        else return some (reuse plan candidate live prNumber url)
    | _, _ => walk text plan rest

def resolveExistingOpenPullRequest (text : Text) (plan : Plan)
    (candidates : List PrArtifactHeadMatch) : Creating (Option ExistingOpenPullRequest) := do
  let existing ← walk text plan (candidates.filter viable)
  match existing with
  | some existing => return some existing
  | none =>
    if (candidates.filter viable).any (!verifiable ·) then Program.raise (takenSession plan)
    else return none

/-! ## The call -/

def resolveScmSettings (request : Request) :
    Creating (Except CreatePullRequestResult ScmSettings) :=
  Program.handle (do return .ok (← await (.resolveScmSettings request.target.repo))) fun _ =>
    return .error (.error 503 "Pull request policy is temporarily unavailable")

def resolvePushAuth (request : Request) : Creating (Except CreatePullRequestResult Unit) :=
  Program.handle
    (do
      await (.resolveCredentialScope request.sessionId)
      await .generatePushAuth
      return .ok ())
    fun failure => return .error failure.pushAuth

def openedSnapshot (plan : Plan) (opened : PullRequestOpened) : PullRequestSnapshotInput where
  number := opened.id
  url := opened.webUrl
  lifecycleState := opened.lifecycleState
  isDraft := opened.isDraft
  headBranch := plan.sanitizedHeadBranch
  baseBranch := plan.baseBranch
  headSha := opened.headSha
  repoOwner := plan.targetRepo.repoOwner
  repoName := plan.targetRepo.repoName
  repositoryExternalId := opened.repositoryExternalId
  providerCreatedAt := none
  providerUpdatedAt := opened.providerUpdatedAt
  mergedAt := none
  closedAt := none
  draft_open := opened.draft_open

/-- `createArtifact`, whose id is new to the table. -/
def State.createArtifact (s : State) (plan : Plan) (id : String) (opened : PullRequestOpened) :
    State :=
  { s with
    artifacts := s.artifacts ++
      [{ id
         type := .pr
         url := some opened.webUrl
         metadata := some (mergeSnapshotMetadata [] (openedSnapshot plan opened))
         created_at := s.now
         updated_at := s.now }] }

/-- The artifact and the record of a pull request that was opened. -/
def recordOpened (setup : Setup) (call : Nat) (plan : Plan) (opened : PullRequestOpened) :
    Creating Unit := do
  let artifactId := setup.generateId call
  let now ← Program.gets (·.now)
  let taken ← Program.gets fun s => s.artifacts.any (·.id = artifactId)
  if taken then Program.raise (.other (some "UNIQUE constraint failed: artifacts.id"))
  else
    Program.modify (·.createArtifact plan artifactId opened)
    let record := snapshotToRecord (openedSnapshot plan opened)
      { artifactId, sessionId := plan.request.sessionId, createdAt := now, updatedAt := now }
    let _ ← Program.handle (await (.upsert record)) fun _ => return false
    return ()

def config (setup : Setup) (plan : Plan) (settings : ScmSettings) : CreatePullRequestConfig where
  repository := plan.repoInfo
  title := plan.request.input.title
  body := plan.request.input.body ++ "\n\n---\n*Created with [" ++ setup.appName ++ "](" ++
    plan.request.input.sessionUrl ++ ")*"
  sourceBranch := plan.sanitizedHeadBranch
  targetBranch := plan.baseBranch
  draft := settings.alwaysUseDraftMode = some true || plan.request.input.draft.getD false
  labels := (settings.pullRequestLabel.filter (· ≠ "")).map ([·])

def openPullRequest (setup : Setup) (call : Nat) (plan : Plan) (settings : ScmSettings) :
    Creating CreatePullRequestResult := do
  let authResolution : Except (Nat × String) Unit ← await .resolvePromptingAuth
  match authResolution with
  | .error (status, error) => return .error status error
  | .ok _ =>
    Program.modify (·.noteOpening call plan)
    let opened : PullRequestOpened ← await (.createPullRequest (config setup plan settings))
    recordOpened setup call plan opened
    return .created opened.id opened.webUrl (toDisplayStatus (openedSnapshot plan opened))
      plan.sanitizedHeadBranch plan.baseBranch false

def buildGitPushSpec (plan : Plan) : GitPushSpec where
  repo := plan.targetRepo
  targetBranch := plan.sanitizedHeadBranch
  force := true

/-- The push, and what follows it. -/
def pushAndOpen (setup : Setup) (call : Nat) (plan : Plan) (settings : ScmSettings)
    (existing : Option ExistingOpenPullRequest) : Creating CreatePullRequestResult := do
  let pushSpec := buildGitPushSpec plan
  Program.modify (·.notePush call plan pushSpec existing)
  let pushResult : Except String Unit ← await (.pushBranchToRemote pushSpec)
  match pushResult with
  | .error error => return .error 500 error
  | .ok _ =>
    Program.modify (·.setBranch plan)
    match existing with
    | some existing =>
      return .created existing.prNumber existing.prUrl existing.state plan.sanitizedHeadBranch
        existing.baseBranch true
    | none => openPullRequest setup call plan settings

/-- What follows the answer to `getRepository`. -/
def carryOut (setup : Setup) (call : Nat) (request : Request) (settings : ScmSettings)
    (repoInfo : RepositoryInfo) : Creating CreatePullRequestResult :=
  match request.plan setup.text repoInfo with
  | none => return .error 400 "headBranch must be a valid branch name"
  | some plan => do
    let candidates ← Program.gets fun s =>
      setup.text.listPrArtifactsForHead s.artifacts plan.branches
    let existing ← resolveExistingOpenPullRequest setup.text plan candidates
    pushAndOpen setup call plan settings existing

/-- The `try` of `createPullRequest`. -/
def createClaimed (setup : Setup) (call : Nat) (request : Request) :
    Creating CreatePullRequestResult := do
  let scmSettings ← resolveScmSettings request
  match scmSettings with
  | .error result => return result
  | .ok settings =>
    let pushAuth ← resolvePushAuth request
    match pushAuth with
    | .error result => return result
    | .ok _ =>
      let repoInfo : RepositoryInfo ← await (.getRepository request)
      carryOut setup call request settings repoInfo

/-- `claims.claim(targetRepo)` -/
def claimRepository (call : Nat) (key : String) : Creating Bool := do
  let taken ← Program.gets (·.inFlight.contains key)
  if taken then return false
  else
    Program.modify (·.claim call key)
    return true

/-- The part of `createPullRequest` that has its target. -/
def createForTarget (setup : Setup) (call : Nat) (request : Request) :
    Creating CreatePullRequestResult := do
  let repo := request.target.repo
  let key := setup.text.claimKey repo
  let claimed ← claimRepository call key
  if claimed then
    Program.ensure
      (Program.handle (createClaimed setup call request) fun failure => return failure.result)
      (Program.modify (·.release call key))
  else
    return .error 409 ("A pull request is already being created for " ++ repo.repoOwner ++ "/" ++
      repo.repoName ++ " in this session.")

/-- The repository of the session, where both its parts are set. -/
def SessionRow.scalarRepo (session : SessionRow) : Option RepoIdentity :=
  match session.repo_owner.filter (· ≠ ""), session.repo_name.filter (· ≠ "") with
  | some repoOwner, some repoName => some { repoOwner, repoName }
  | _, _ => none

/-- `resolveSessionRepositoryTarget` on the members of the session. -/
def resolveTarget (text : Text) (input : CreatePullRequestInput) (session : SessionRow)
    (scalarRepo : RepoIdentity) (rows : List SessionRepositoryRow) :
    Except RepositoryTargetError SessionRepositoryEntry :=
  match text.buildSessionRepositories scalarRepo session.base_branch rows with
  -- never: the list has an entry for each row, or one for the scalar repository
  | [] => .error .pair
  | first :: rest => text.resolveSessionRepositoryTarget input.repo first rest

def createPullRequest (setup : Setup) (call : Nat) (input : CreatePullRequestInput) :
    Creating CreatePullRequestResult := do
  let session ← Program.gets (·.session)
  let rows ← Program.gets (·.repositories)
  match session with
  | none => return .error 404 "Session not found"
  | some session =>
    match SessionRow.scalarRepo session with
    | none => return .error 400 "Pull requests require a repository context"
    | some scalarRepo =>
      match resolveTarget setup.text input session scalarRepo rows with
      | .error error => return .error error.status error.message
      | .ok target => createForTarget setup call { input, session, target }

/-! ## Calls in progress -/

inductive Call where
  | createPullRequest (input : CreatePullRequestInput)
  /-- while no call is under way, the rest of the instance leaves whatever rows it likes -/
  | rest (session : Option SessionRow) (repositories : List SessionRepositoryRow)
      (artifacts : List StoredArtifact)

def Call.body (setup : Setup) (id : Nat) : Call → Creating CreatePullRequestResult
  | .createPullRequest input => Creation.createPullRequest setup id input
  -- no one reads this
  | .rest _ _ _ => return .error 0 ""

def Call.enter (s : State) : Call → Option State
  | .createPullRequest _ => some s
  | .rest session repositories artifacts =>
    if s.inFlight.isEmpty then some { s with session, repositories, artifacts } else none

inductive Outcome where
  | done
  | settings (settings : ScmSettings)
  | repository (repoInfo : RepositoryInfo)
  | live (snapshot : PullRequestSnapshotInput)
  | applied (applied : Bool)
  | pushed (result : Except String Unit)
  | auth (result : Except (Nat × String) Unit)
  | opened (opened : PullRequestOpened)
  | throws (failure : Failure)

/-- How an operation ends, and when. -/
structure Choice where
  now : Int
  outcome : Outcome

def State.noteRead (s : State) (call : Nat) (artifact : StoredArtifact)
    (live : Option PullRequestSnapshotInput) : State :=
  { s with reads := s.reads ++ [{ call, artifact, live }] }

/-- Any operation may throw. -/
def CreationOp.answer (call : Nat) (s : State) :
    (o : CreationOp) → Outcome → Option (Except Failure o.Answer × State)
  | .getPullRequest _ candidate, .live snapshot =>
    some (.ok snapshot, s.noteRead call candidate.artifact (some snapshot))
  | .getPullRequest _ candidate, .throws failure =>
    some (.error failure, s.noteRead call candidate.artifact none)
  | _, .throws failure => some (.error failure, s)
  | .resolveScmSettings _, .settings settings => some (.ok settings, s)
  | .resolveCredentialScope _, .done => some (.ok (), s)
  | .generatePushAuth, .done => some (.ok (), s)
  | .getRepository _, .repository repoInfo => some (.ok repoInfo, s)
  | .upsert _, .applied applied => some (.ok applied, s)
  | .pushBranchToRemote _, .pushed result => some (.ok result, s)
  | .resolvePromptingAuth, .auth result => some (.ok result, s)
  | .createPullRequest _, .opened opened => some (.ok opened, s)
  | _, _ => none

def creationServer (setup : Setup) :
    Server State Call CreationOp Choice CreationOp.Answer Failure CreatePullRequestResult where
  enter id call s := if s.calls ≤ id then call.enter { s with calls := id + 1 } else none
  body id call := call.body setup id
  answer id _ o choice s := o.answer id { s with now := choice.now } choice.outcome
  leave id _ _ s := { s with ended := s.ended ++ [id] }

def State.initial : State where
  session := none
  repositories := []
  artifacts := []
  inFlight := []
  now := 0
  calls := 0
  claims := []
  ended := []
  reads := []
  pushes := []
  openings := []

end BackgroundAgents.PullRequests.Creation

import BackgroundAgents.SessionIndex.Access
import BackgroundAgents.Lib.Keyset
import BackgroundAgents.Lib.Strings
import Mathlib.Data.Prod.Lex
import Mathlib.Algebra.BigOperators.Group.List.Basic

/-!
# Listing sessions

The filters of a listing become a conjunction of conditions on the rows of
`sessions` (`buildSessionListPredicates`), the last of which is the visibility
of the viewer; a scope that is internal to the control plane has none. A query
may bind no more than a fixed number of parameters, so each condition counts
those it binds and a listing with too many is refused.

`SessionIndexStore.list` is the page listing over them. Every session it lists
satisfies all conditions (`mem_list`).
-/

namespace BackgroundAgents.SessionIndex

open Keyset Strings

inductive SessionReadScope where
  | viewer (viewer : SessionViewer)
  | internal (reason : Text)

inductive OwnerFilter where
  | started
  | participating
  | anyone
  deriving DecidableEq, Repr

inductive ListScope where
  | workspace
  | all
  deriving DecidableEq, Repr

/-- A row of `session_repositories`. -/
structure SessionRepository where
  sessionId : SessionId
  repoOwner : Text
  repoName : Text
  deriving DecidableEq, Repr

/-- A row of `session_read_states`. -/
structure SessionReadState where
  userId : UserId
  sessionId : SessionId
  lastReadMessageId : MessageId
  updatedAt : Millis
  deriving DecidableEq, Repr

abbrev SessionReadState.key (s : SessionReadState) : UserId × SessionId := (s.userId, s.sessionId)

/-- The columns of `users` that a read state depends on. -/
structure IndexUser where
  id : UserId
  createdAt : Millis
  deriving DecidableEq, Repr

/-- The tables that listings read. -/
structure IndexDb extends AccessTables where
  sessions : SessionTable
  users : Table IndexUser.id
  sessionRepositories : List SessionRepository
  readStates : Table SessionReadState.key

structure SessionListFilters where
  status : Option SessionStatus := none
  excludeStatus : Option SessionStatus := none
  excludeAutomationLineage : Bool := false
  createdByUserIds : List UserId := []
  search : Option Text := none
  repository : Option (Option Text × Option Text) := none
  environmentId : Option Text := none
  spawnSource : Option SpawnSource := none
  teamIds : List TeamId := []
  ownerFilter : Option OwnerFilter := none
  visibility : Option SessionVisibility := none
  scope : Option ListScope := none
  readScope : SessionReadScope
  mode : TeamsEnforcementMode

inductive SessionListError where
  | repositoryPairValidation
  | d1QueryParameterLimit
  deriving DecidableEq, Repr

def SessionListError.message : SessionListError → String
  | repositoryPairValidation => "repoOwner and repoName must be provided together"
  | d1QueryParameterLimit => "Too many session filters"

/-- A condition of a `WHERE` clause and how many parameters it binds. -/
structure SqlCondition where
  holds : SessionRow → Bool
  params : Nat := 0

def maxD1QueryParameters : Nat := 100

def assertD1QueryParameterLimit (count : Nat) : Except SessionListError Unit :=
  if count > maxD1QueryParameters then .error .d1QueryParameterLimit else .ok ()

/-! ## Patterns -/

def escapeLikePattern (value : Text) : Text :=
  value.flatMap fun c => if c = '\\' ∨ c = '%' ∨ c = '_' then ['\\', c] else [c]

/-- Pattern matching any value that contains `value`. -/
def likeContains (value : Text) : Text := '%' :: escapeLikePattern value ++ ['%']

/-- Pattern matching any value that starts with `value`. -/
def likePrefix (value : Text) : Text := escapeLikePattern value ++ ['%']

/-- `repo_owner || '/' || repo_name` -/
def repoLabel (repoOwner repoName : Text) : Text := repoOwner ++ '/' :: repoName

/-- Text that JavaScript takes for true. -/
def truthy (t : Option Text) : Option Text := t.filter (· ≠ [])

def normalizeOptionalRepositoryPair (toLowerCase : Text → Text)
    (input : Option Text × Option Text) : Except SessionListError (Option (Text × Text)) :=
  let normalized := fun (t : Option Text) => truthy (t.map fun t => toLowerCase (trim t))
  match normalized input.1, normalized input.2 with
  | some repoOwner, some repoName => .ok (some (repoOwner, repoName))
  | none, none => .ok none
  | _, _ => .error .repositoryPairValidation

/-! ## Conditions -/

namespace IndexDb

def ownerCondition (db : IndexDb) (ownerFilter : OwnerFilter) (userId : UserId) :
    List SqlCondition :=
  match ownerFilter with
  | .started => [{ holds := fun r => r.userId = some userId, params := 1 }]
  | .participating =>
    [{ holds := fun r =>
        r.userId = some userId
          || (db.sessionCollaborators.get? (r.id, userId)).isSome
          || (db.readStates.get? (userId, r.id)).isSome
       params := 3 }]
  | .anyone => []

/-- The owner filter applies to users alone. -/
def ownerFilterCondition (db : IndexDb) (filters : SessionListFilters) : List SqlCondition :=
  match filters.readScope, filters.ownerFilter with
  | .viewer (.user user), some ownerFilter => db.ownerCondition ownerFilter user.userId
  | _, _ => []

/-- `REPOSITORY_MEMBERSHIP_SQL` -/
def repositoryCondition (db : IndexDb) (repoOwner repoName : Text) : SqlCondition where
  holds r :=
    (r.repoOwner = some repoOwner && r.repoName = some repoName)
      || db.sessionRepositories.any fun sr =>
        sr.sessionId = r.id && sr.repoOwner = repoOwner && sr.repoName = repoName
  params := 4

def searchCondition (db : IndexDb) (search : Text) : SqlCondition where
  holds r :=
    let contains := like (likeContains search)
    r.title.any contains
      || like (likePrefix search) r.id
      || (r.repoOwner.any fun repoOwner =>
        r.repoName.any fun repoName => contains (repoLabel repoOwner repoName))
      || db.sessionRepositories.any fun sr =>
        sr.sessionId = r.id && contains (repoLabel sr.repoOwner sr.repoName)
  params := 4

/-- The visibility of a scope and the parameters that it binds. -/
def scopeCondition (db : IndexDb) (readScope : SessionReadScope) (mode : TeamsEnforcementMode) :
    List SqlCondition :=
  match readScope with
  | .internal _ => []
  | .viewer viewer =>
    [{ holds := db.visibleSessionsPredicate viewer mode false
       params :=
        match viewer with
        | .service teamId => if mode = .on ∧ teamId.isSome then 1 else 0
        | .user _ => if mode = .on then 4 else 2 }]

/-- The repository that a listing is filtered by, normalized. -/
def repositoryFilter (toLowerCase : Text → Text) (filters : SessionListFilters) :
    Except SessionListError (Option (Text × Text)) :=
  match filters.repository with
  | some repository => normalizeOptionalRepositoryPair toLowerCase repository
  | none => .ok none

/-- The conditions of the filters, in the order of the clause. -/
def filterConditions (db : IndexDb) (filters : SessionListFilters)
    (repository : Option (Text × Text)) : List SqlCondition :=
  (filters.status.toList.map fun status =>
      { holds := fun r => r.status = status, params := 1 })
    ++ (filters.excludeStatus.toList.map fun status =>
      { holds := fun r => r.status ≠ status, params := 1 })
    ++ (if filters.excludeAutomationLineage then
        [{ holds := fun r =>
            r.automationId.isNone && r.spawnSource ≠ .automation && r.spawnSource ≠ .githubBot }]
      else [])
    ++ (if filters.createdByUserIds ≠ [] then
        [{ holds := fun r => r.userId.any filters.createdByUserIds.contains
           params := filters.createdByUserIds.length }]
      else [])
    ++ (if filters.teamIds ≠ [] then
        [{ holds := fun r => r.ownerTeamId.any filters.teamIds.contains
           params := filters.teamIds.length }]
      else [])
    ++ (if filters.scope = some .workspace then
        [{ holds := fun r => r.ownerTeamId.isNone }]
      else [])
    ++ (filters.visibility.toList.map fun visibility =>
      { holds := fun r => r.visibility = visibility, params := 1 })
    ++ db.ownerFilterCondition filters
    ++ ((truthy filters.environmentId).toList.map fun environmentId =>
      { holds := fun r => r.environmentId = some environmentId, params := 1 })
    ++ (filters.spawnSource.toList.map fun spawnSource =>
      { holds := fun r => r.spawnSource = spawnSource, params := 1 })
    ++ (repository.toList.map fun pair => db.repositoryCondition pair.1 pair.2)
    ++ ((truthy filters.search).toList.map db.searchCondition)

/-- The `WHERE` clause for a filtered walk of `sessions`, as its conditions. -/
def buildSessionListPredicates (toLowerCase : Text → Text) (db : IndexDb)
    (filters : SessionListFilters) : Except SessionListError (List SqlCondition) :=
  (repositoryFilter toLowerCase filters).map fun repository =>
    db.filterConditions filters repository ++ db.scopeCondition filters.readScope filters.mode

end IndexDb

/-- Whether a row meets the whole clause. -/
def meets (conditions : List SqlCondition) (r : SessionRow) : Bool :=
  conditions.all fun c => c.holds r

/-- How many parameters a clause binds. -/
def boundParameters (conditions : List SqlCondition) : Nat :=
  (conditions.map (·.params)).sum

@[simp] theorem boundParameters_nil : boundParameters [] = 0 := rfl

@[simp] theorem boundParameters_singleton (c : SqlCondition) : boundParameters [c] = c.params :=
  Nat.add_zero _

theorem boundParameters_ite (p : Prop) [Decidable p] (c : SqlCondition) :
    boundParameters (if p then [c] else []) = if p then c.params else 0 := by
  split <;> simp

@[simp] theorem boundParameters_append (a b : List SqlCondition) :
    boundParameters (a ++ b) = boundParameters a + boundParameters b := by
  simp [boundParameters]

/-! ## Read states -/

/-- `unreadSql`, with the viewer's row and read state as the queries join them. -/
def IndexDb.unread (db : IndexDb) (viewerUserId : UserId) (r : SessionRow) : Bool :=
  r.latestTerminalMessage.any fun m =>
    (db.users.get? viewerUserId).any fun viewer =>
      viewer.createdAt ≤ m.completedAt &&
        (db.readStates.get? (viewer.id, r.id)).all fun s => s.lastReadMessageId ≠ m.id

structure ReadState where
  latestMessageId : Option MessageId
  unread : Bool
  version : Millis
  deriving DecidableEq, Repr

def readStateFromRow (r : SessionRow) (unread : Bool) : ReadState :=
  match r.latestTerminalMessage with
  | none => { latestMessageId := none, unread := false, version := 0 }
  | some m => { latestMessageId := some m.id, unread, version := m.createdAt }

/-! ## The page listing -/

structure ListSessionsOptions extends SessionListFilters where
  limit : Nat := 50
  offset : Nat := 0
  viewerUserId : Option UserId := none

structure SessionEntry where
  session : SessionRow
  readState : Option ReadState
  deriving DecidableEq, Repr

structure ListSessionsResult where
  sessions : List SessionEntry
  hasMore : Bool
  deriving DecidableEq, Repr

/-- The order of the listings. -/
def SessionRow.key (r : SessionRow) : Millis ×ₗ SessionId := toLex (r.updatedAt, r.id)

namespace IndexDb

/-- `SessionIndexStore.list` -/
def list (toLowerCase : Text → Text) (db : IndexDb) (options : ListSessionsOptions) :
    Except SessionListError ListSessionsResult := do
  let conditions ← db.buildSessionListPredicates toLowerCase options.toSessionListFilters
  let viewerUserId := truthy options.viewerUserId
  assertD1QueryParameterLimit
    (boundParameters conditions + 2 + if viewerUserId.isSome then 1 else 0)
  let rawRows :=
    ((newestFirst SessionRow.key (db.sessions.rows.filter (meets conditions))).drop
      options.offset).take (options.limit + 1)
  return {
    sessions := (rawRows.take options.limit).map fun r =>
      { session := r
        readState := viewerUserId.map fun userId => readStateFromRow r (db.unread userId r) }
    hasMore := rawRows.length > options.limit }

/-- The clause of a scope's filters ends with the visibility of its viewer. -/
theorem visible_of_meets {toLowerCase : Text → Text} {db : IndexDb}
    {filters : SessionListFilters} {conditions : List SqlCondition} {viewer : SessionViewer}
    {r : SessionRow}
    (hbuild : db.buildSessionListPredicates toLowerCase filters = .ok conditions)
    (hscope : filters.readScope = .viewer viewer) (h : meets conditions r = true) :
    db.visibleSessionsPredicate viewer filters.mode false r = true := by
  unfold buildSessionListPredicates at hbuild
  cases hrepository : repositoryFilter toLowerCase filters with
  | error e =>
    rw [hrepository] at hbuild
    cases hbuild
  | ok repository =>
    rw [hrepository] at hbuild
    cases hbuild
    rw [meets, List.all_append, hscope] at h
    have hvisible := (Bool.and_eq_true_iff.mp h).2
    simpa [scopeCondition] using hvisible

/-- Every session of a page is a row that meets the clause. -/
theorem mem_list {toLowerCase : Text → Text} {db : IndexDb} {options : ListSessionsOptions}
    {result : ListSessionsResult} {e : SessionEntry}
    (h : db.list toLowerCase options = .ok result) (he : e ∈ result.sessions) :
    e.session ∈ db.sessions.rows ∧
      ∃ conditions, db.buildSessionListPredicates toLowerCase options.toSessionListFilters =
        .ok conditions ∧ meets conditions e.session = true := by
  unfold list at h
  cases hbuild : db.buildSessionListPredicates toLowerCase options.toSessionListFilters with
  | error e =>
    rw [hbuild] at h
    cases h
  | ok conditions =>
    rw [hbuild] at h
    simp only [bind, Except.bind, assertD1QueryParameterLimit] at h
    split at h
    next => cases h
    next =>
      cases h
      obtain ⟨r, hr, rfl⟩ := List.mem_map.mp he
      have hrow := List.mem_of_mem_drop (List.mem_of_mem_take (List.mem_of_mem_take hr))
      obtain ⟨hmem, hmeets⟩ := List.mem_filter.mp (mem_newestFirst.mp hrow)
      exact ⟨hmem, conditions, rfl, hmeets⟩

end IndexDb

end BackgroundAgents.SessionIndex

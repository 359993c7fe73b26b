import BackgroundAgents.SessionIndex.Rows
import BackgroundAgents.Workspace.Rbac
import BackgroundAgents.Lib.Table

/-!
# Who may see a session

The policy is written twice. `checkSessionAccess` decides an action of a viewer
on one resolved row, with the viewer's team memberships and the row's
collaborators given; `visibleSessionsPredicate` is the condition that the
listing queries put on the rows of `sessions`, with the memberships and the
collaborators read from their tables by correlated subqueries.

`visible_iff_mayRead` is their agreement on reading: the predicate selects
exactly the rows that a reader may open without breaking glass.
-/

namespace BackgroundAgents.SessionIndex

open Workspace (BuiltInRoleKey PermissionId isWorkspaceAdmin)

inductive TeamRole where
  | lead
  | member
  deriving DecidableEq, Repr

/-- A row of `team_memberships`. -/
structure TeamMembership where
  teamId : TeamId
  userId : UserId
  role : TeamRole := .member
  deriving DecidableEq, Repr

/-- A row of `session_collaborators`. -/
structure SessionCollaborator where
  sessionId : SessionId
  userId : UserId
  deriving DecidableEq, Repr

abbrev TeamMembership.key (m : TeamMembership) : TeamId × UserId := (m.teamId, m.userId)

abbrev SessionCollaborator.key (c : SessionCollaborator) : SessionId × UserId :=
  (c.sessionId, c.userId)

abbrev MembershipTable := Table TeamMembership.key
abbrev CollaboratorTable := Table SessionCollaborator.key

inductive TeamsEnforcementMode where
  | off
  | shadow
  | on
  deriving DecidableEq, Repr

structure UserViewer where
  userId : UserId
  roleKey : Option BuiltInRoleKey
  permissions : List PermissionId
  suspended : Bool := false
  /-- The viewer's role in each team, as its `ReadonlyMap` holds it. -/
  memberships : TeamId → Option TeamRole

/-- An unbound bot (`teamId` null) reads every non-private session; private is always refused. -/
inductive SessionViewer where
  | user (viewer : UserViewer)
  | service (teamId : Option TeamId)

/-! ## One resolved row -/

inductive SessionAction where
  | read
  | collaborate
  | lifecycle
  | delete
  | sandbox
  | manageCollaborators
  | changeVisibility
  deriving DecidableEq, Repr

inductive AccessDenialReason where
  | suspended
  | notMember
  | private_
  | missingPermission
  | notOwnerOrLead
  | notCollaborator
  deriving DecidableEq, Repr

inductive AuditObligation where
  | sessionPrivateBreakGlass
  deriving DecidableEq, Repr

inductive AccessDecision where
  | permit (audit : Option AuditObligation)
  | deny (reason : AccessDenialReason)
  deriving DecidableEq, Repr

structure SessionAccessRow where
  id : SessionId
  ownerUserId : Option UserId
  ownerTeamId : Option TeamId
  visibility : SessionVisibility
  collaboratorIds : List UserId
  deriving DecidableEq, Repr

structure SessionFacts where
  permissions : List PermissionId
  suspended : Bool
  visibility : SessionVisibility
  isPrivate : Bool
  isOwner : Bool
  isCollaborator : Bool
  teamRole : Option TeamRole
  isAdmin : Bool
  isWsOwner : Bool
  breakGlass : Bool

namespace SessionFacts

def has (facts : SessionFacts) (permission : PermissionId) : Bool :=
  facts.permissions.contains permission

def visible (facts : SessionFacts) : Bool :=
  facts.visibility = .workspace
    || (facts.visibility = .team && (facts.teamRole.isSome || facts.isAdmin))
    || (facts.isPrivate && (facts.isOwner || facts.isCollaborator || facts.isWsOwner))

/-- The denial of every action, where there is one. -/
def readGate (facts : SessionFacts) : Option AccessDecision :=
  if facts.suspended then some (.deny .suspended)
  else if !facts.visible then some (.deny (if facts.isPrivate then .private_ else .notMember))
  else if !facts.has .sessionsRead then some (.deny .missingPermission)
  else none

def participant (facts : SessionFacts) : Bool :=
  !facts.isPrivate || facts.isOwner || facts.isCollaborator

def privileged (facts : SessionFacts) : Bool :=
  facts.isOwner || facts.teamRole = some .lead || facts.isAdmin

def ownerOrWsOwner (facts : SessionFacts) : Bool :=
  facts.isOwner || facts.isWsOwner

end SessionFacts

def sessionFacts (viewer : UserViewer) (row : SessionAccessRow) : SessionFacts where
  permissions := viewer.permissions
  suspended := viewer.suspended
  visibility := row.visibility
  isPrivate := isPrivate
  isOwner := isOwner
  isCollaborator := isCollaborator
  teamRole := teamRole
  isAdmin := isWorkspaceAdmin viewer.roleKey
  isWsOwner := isWsOwner
  breakGlass := isPrivate && isWsOwner && !isOwner && !isCollaborator
where
  isPrivate : Bool := row.visibility = .private_
  isOwner : Bool := row.ownerUserId = some viewer.userId
  teamRole : Option TeamRole := row.ownerTeamId.bind viewer.memberships
  /-- A team-owned grant lapses with team membership. -/
  isCollaborator : Bool :=
    row.collaboratorIds.contains viewer.userId && (row.ownerTeamId.isNone || teamRole.isSome)
  isWsOwner : Bool := viewer.roleKey = some .owner

/-- A rule of `SESSION_RULES`: the permission it needs, and the condition it needs with the
reason of its denial. -/
structure ActionRule where
  permission : Option PermissionId := none
  when : Option ((SessionFacts → Bool) × AccessDenialReason) := none

def sessionRule : SessionAction → ActionRule
  | .read => { permission := some .sessionsRead }
  | .collaborate =>
    { permission := some .sessionsCollaborate
      when := some (SessionFacts.participant, .notCollaborator) }
  | .lifecycle => { permission := some .sessionsLifecycle }
  | .sandbox =>
    { permission := some .sessionsSandboxAccess
      when := some (SessionFacts.participant, .notCollaborator) }
  | .delete =>
    { permission := some .sessionsDelete
      when := some (SessionFacts.privileged, .notOwnerOrLead) }
  | .manageCollaborators => { when := some (SessionFacts.ownerOrWsOwner, .notOwnerOrLead) }
  | .changeVisibility =>
    { when := some (fun facts =>
        if facts.isPrivate then facts.ownerOrWsOwner else facts.privileged, .notOwnerOrLead) }

def ActionRule.decide (rule : ActionRule) (facts : SessionFacts) : AccessDecision :=
  if rule.permission.any fun permission => !facts.has permission then .deny .missingPermission
  else
    match rule.when with
    | some (condition, reason) => if condition facts then .permit none else .deny reason
    | none => .permit none

def checkServiceSessionAccess (teamId : Option TeamId) (row : SessionAccessRow)
    (action : SessionAction) : AccessDecision :=
  if row.visibility = .private_ then .deny .private_
  else if row.visibility = .team ∧ teamId ≠ none ∧ teamId ≠ row.ownerTeamId then
    .deny .notMember
  else if action = .read then .permit none
  else .deny .missingPermission

/-- Checks one session action using the persisted row, never session participants. -/
def checkSessionAccess (viewer : SessionViewer) (row : SessionAccessRow)
    (action : SessionAction) : AccessDecision :=
  match viewer with
  | .service teamId => checkServiceSessionAccess teamId row action
  | .user user =>
    let facts := sessionFacts user row
    match facts.readGate with
    | some denied => denied
    | none =>
      if action = .read then
        .permit (if facts.breakGlass then some .sessionPrivateBreakGlass else none)
      else if row.ownerTeamId ≠ none ∧ facts.teamRole = none then .deny .notMember
      else (sessionRule action).decide facts

/-! ## The rows of a query -/

/-- The tables that the visibility of a session is read from. -/
structure AccessTables where
  teamMemberships : MembershipTable
  sessionCollaborators : CollaboratorTable

namespace AccessTables

/-- `EXISTS (SELECT 1 FROM team_memberships …)`; a null team is no one's. -/
def isMember (t : AccessTables) (teamId : Option TeamId) (userId : UserId) : Bool :=
  teamId.any fun team => (t.teamMemberships.get? (team, userId)).isSome

/-- A collaborator row, which needs current membership where a team owns the session. -/
def isCollaborator (t : AccessTables) (r : SessionRow) (userId : UserId) : Bool :=
  (t.sessionCollaborators.get? (r.id, userId)).isSome &&
    (r.ownerTeamId.isNone || t.isMember r.ownerTeamId userId)

/-- A SQL visibility check on a persisted session row, before pagination or aggregation. -/
def visibleSessionsPredicate (t : AccessTables) (viewer : SessionViewer)
    (mode : TeamsEnforcementMode) (excludePrivate : Bool) (r : SessionRow) : Bool :=
  match viewer with
  | .service teamId =>
    if mode ≠ .on then r.visibility ≠ .private_
    else
      match teamId with
      | none => r.visibility ≠ .private_
      | some team =>
        r.visibility = .workspace || (r.visibility = .team && r.ownerTeamId = some team)
  | .user user =>
    let team :=
      if mode = .on then
        r.visibility = .team &&
          (isWorkspaceAdmin user.roleKey || t.isMember r.ownerTeamId user.userId)
      else r.visibility ≠ .private_
    let shared := if mode = .on then r.visibility = .workspace || team else team
    if excludePrivate then shared
    else
      shared || (r.visibility = .private_ &&
        (r.userId = some user.userId || t.isCollaborator r user.userId))

/-- The row that the resolver hands to `checkSessionAccess`. -/
def accessRow (t : AccessTables) (r : SessionRow) : SessionAccessRow where
  id := r.id
  ownerUserId := r.userId
  ownerTeamId := r.ownerTeamId
  visibility := r.visibility
  collaboratorIds :=
    (t.sessionCollaborators.rows.filter fun c => c.sessionId = r.id).map (·.userId)

/-- The viewer may read a row without the obligation of breaking glass. -/
def MayRead (t : AccessTables) (viewer : SessionViewer) (r : SessionRow) : Prop :=
  checkSessionAccess viewer (t.accessRow r) .read = .permit none

instance (t : AccessTables) (viewer : SessionViewer) (r : SessionRow) :
    Decidable (t.MayRead viewer r) :=
  inferInstanceAs (Decidable (_ = _))

/-- A service, or a user who is not suspended, may read sessions and whose memberships are
those of the table. -/
def Reader (t : AccessTables) : SessionViewer → Prop
  | .service _ => True
  | .user user =>
    user.suspended = false ∧ user.permissions.contains .sessionsRead = true ∧
      ∀ team, user.memberships team =
        (t.teamMemberships.get? (team, user.userId)).map (·.role)

end AccessTables

/-! ## Agreement -/

namespace AccessTables

variable {t : AccessTables}

theorem contains_collaboratorIds (r : SessionRow) (userId : UserId) :
    (t.accessRow r).collaboratorIds.contains userId =
      (t.sessionCollaborators.get? (r.id, userId)).isSome := by
  rw [Bool.eq_iff_iff, List.contains_iff_mem, Option.isSome_iff_exists]
  simp only [accessRow, List.mem_map, List.mem_filter, decide_eq_true_eq]
  constructor
  · rintro ⟨c, ⟨hc, hsession⟩, rfl⟩
    exact ⟨c, Table.get?_eq_some.mpr ⟨hc, by rw [SessionCollaborator.key, hsession]⟩⟩
  · rintro ⟨c, hc⟩
    obtain ⟨hc, hkey⟩ := Table.get?_eq_some.mp hc
    exact ⟨c, ⟨hc, congrArg Prod.fst hkey⟩, congrArg Prod.snd hkey⟩

/-- The team role of a reader in the owner team is that of the table. -/
theorem isSome_teamRole {user : UserViewer} (h : t.Reader (.user user)) (r : SessionRow) :
    (r.ownerTeamId.bind user.memberships).isSome = t.isMember r.ownerTeamId user.userId := by
  obtain ⟨-, -, hmemberships⟩ := h
  cases hteam : r.ownerTeamId with
  | none => rfl
  | some team => simp [isMember, hmemberships team]

/-- A reader is a collaborator to the resolver as the query has it. -/
theorem isCollaborator_eq {user : UserViewer} (h : t.Reader (.user user)) (r : SessionRow) :
    (sessionFacts user (t.accessRow r)).isCollaborator = t.isCollaborator r user.userId := by
  show ((t.accessRow r).collaboratorIds.contains user.userId &&
    (r.ownerTeamId.isNone || (r.ownerTeamId.bind user.memberships).isSome)) = _
  rw [contains_collaboratorIds, isSome_teamRole h]
  rfl

/-- What a reader may read, by the facts: every visible row but where glass would break. -/
theorem mayRead_user_iff {user : UserViewer} (h : t.Reader (.user user)) (r : SessionRow) :
    t.MayRead (.user user) r ↔
      (sessionFacts user (t.accessRow r)).visible = true ∧
        (sessionFacts user (t.accessRow r)).breakGlass = false := by
  have hsuspended : (sessionFacts user (t.accessRow r)).suspended = false := h.1
  have hread : (sessionFacts user (t.accessRow r)).has .sessionsRead = true := h.2.1
  simp only [MayRead, checkSessionAccess, SessionFacts.readGate, hsuspended, hread]
  cases (sessionFacts user (t.accessRow r)).visible with
  | false => simp
  | true =>
    cases (sessionFacts user (t.accessRow r)).breakGlass with
    | false => simp
    | true => simp

/-- **Listing agrees with opening.** With teams enforced, the predicate of the queries selects
the rows that the viewer may read without breaking glass. -/
theorem visible_iff_mayRead {viewer : SessionViewer} (h : t.Reader viewer) (r : SessionRow) :
    t.visibleSessionsPredicate viewer .on false r = true ↔ t.MayRead viewer r := by
  cases viewer with
  | service teamId =>
    simp only [visibleSessionsPredicate, MayRead, checkSessionAccess,
      checkServiceSessionAccess, accessRow]
    cases teamId with
    | none => cases r.visibility <;> simp
    | some team =>
      cases r.visibility with
      | workspace => simp
      | private_ => simp
      | team =>
        by_cases hteam : r.ownerTeamId = some team
        · simp [hteam]
        · simp [hteam, Ne.symm hteam]
  | user user =>
    rw [mayRead_user_iff h]
    have hcollaborator := isCollaborator_eq h r
    have hrole : (sessionFacts user (t.accessRow r)).teamRole.isSome =
        t.isMember r.ownerTeamId user.userId := isSome_teamRole h r
    have hbreak : (sessionFacts user (t.accessRow r)).breakGlass =
        ((r.visibility = .private_ : Bool) && (user.roleKey = some .owner : Bool) &&
          !(r.userId = some user.userId : Bool) && !t.isCollaborator r user.userId) := by
      rw [← hcollaborator]
      rfl
    have hvisible : (sessionFacts user (t.accessRow r)).visible =
        ((r.visibility = .workspace : Bool)
          || ((r.visibility = .team : Bool) &&
            (t.isMember r.ownerTeamId user.userId || isWorkspaceAdmin user.roleKey))
          || ((r.visibility = .private_ : Bool) &&
            ((r.userId = some user.userId : Bool) || t.isCollaborator r user.userId
              || (user.roleKey = some .owner : Bool)))) := by
      rw [← hcollaborator, ← hrole]
      rfl
    rw [hvisible, hbreak]
    simp only [visibleSessionsPredicate]
    cases r.visibility with
    | workspace => simp
    | team => simp [or_comm]
    | private_ =>
      -- only an owner of the workspace sees more by opening, and that is the break of glass
      by_cases howner : r.userId = some user.userId
      · simp [howner]
      · cases hc : t.isCollaborator r user.userId <;> simp [howner]

end AccessTables

end BackgroundAgents.SessionIndex

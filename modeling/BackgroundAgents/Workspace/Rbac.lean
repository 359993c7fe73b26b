import BackgroundAgents.SessionIndex.Rows

/-!
# Roles and permissions

The permissions of a workspace, the built-in roles with the grants that the
code owns for them, and custom roles, whose grants are rows of
`role_permissions`. `rolePermissionPredicate` decides a permission of a role
the way the SQL fragment of that name does.

`workspace.transfer_ownership` is the permission that no custom role can hold:
only the owner role grants it (`grants_transferOwnership`).
-/

namespace BackgroundAgents.Workspace

export SessionIndex (Millis Text UserId TeamId SessionId)

abbrev RoleId := Text

inductive BuiltInRoleKey where
  | owner
  | administrator
  | member
  | viewer
  deriving DecidableEq, Repr

namespace BuiltInRoleKey

/-- The ids of `BUILT_IN_ROLE_REGISTRY`. -/
def id : BuiltInRoleKey → RoleId
  | owner => "role_builtin_owner".toList
  | administrator => "role_builtin_administrator".toList
  | member => "role_builtin_member".toList
  | viewer => "role_builtin_viewer".toList

theorem id_injective : ∀ k l : BuiltInRoleKey, k.id = l.id → k = l := by
  intro k l
  cases k <;> cases l <;> decide

end BuiltInRoleKey

/-- Whether a role administers the workspace. -/
def isWorkspaceAdmin : Option BuiltInRoleKey → Bool
  | some .owner | some .administrator => true
  | some .member | some .viewer | none => false

inductive PermissionId where
  | analyticsRead
  | automationsCreate
  | automationsManageAny
  | automationsManageOwn
  | automationsRead
  | automationsTriggerAny
  | automationsTriggerOwn
  | commitSigningManage
  | environmentsImagesManage
  | environmentsManage
  | environmentsRead
  | environmentsSecretsManage
  | environmentsSettingsManage
  | environmentsUse
  | globalSecretsManage
  | imageBuildsRead
  | integrationsManage
  | integrationsRead
  | mcpServersManage
  | mcpServersRead
  | memoriesManageOwn
  | modelsPreferencesManage
  | providerAccountsManage
  | providerAccountsRead
  | repositoriesImagesManage
  | repositoriesRead
  | repositoriesSecretsManage
  | repositoriesSettingsManage
  | repositoriesUse
  | scmSettingsManage
  | sessionsBulkArchive
  | sessionsCollaborate
  | sessionsCreate
  | sessionsDelete
  | sessionsExport
  | sessionsLifecycle
  | sessionsRead
  | sessionsSandboxAccess
  | skillProfilesManageOwn
  | skillsManage
  | skillsRead
  | workspaceAuditRead
  | workspaceMembersManage
  | workspaceMembersMerge
  | workspaceMembersRead
  | workspacePersonalAccessTokensManage
  | workspaceRolesRead
  | workspaceTransferOwnership
  deriving DecidableEq, Repr

def viewerPermissions : List PermissionId :=
  [.analyticsRead, .automationsRead, .environmentsRead, .imageBuildsRead, .mcpServersRead,
    .repositoriesRead, .sessionsRead, .skillsRead]

def memberPermissions : List PermissionId :=
  viewerPermissions ++
    [.automationsCreate, .automationsManageOwn, .automationsTriggerOwn, .environmentsUse,
      .providerAccountsRead, .repositoriesUse, .sessionsCollaborate, .sessionsCreate,
      .sessionsDelete, .sessionsLifecycle, .sessionsSandboxAccess, .skillProfilesManageOwn,
      .memoriesManageOwn]

/-- Whether `permissionsForBuiltInRole` of a role includes a permission. -/
def permissionsForBuiltInRole : BuiltInRoleKey → PermissionId → Bool
  | .owner, _ => true
  | .administrator, permission => permission ≠ .workspaceTransferOwnership
  | .member, permission => memberPermissions.contains permission
  | .viewer, permission => viewerPermissions.contains permission

/-- Whether a permission may be delegated through a custom role. -/
def isCustomRolePermission (permission : PermissionId) : Bool :=
  permission ≠ .workspaceTransferOwnership

/-- A row of `roles`. Its `CHECK` ties the key of a built-in role to its id. -/
structure RoleRow where
  id : RoleId
  key : Option BuiltInRoleKey
  builtIn : ∀ k : BuiltInRoleKey, key = some k ↔ id = k.id

/-- The row of a built-in role. -/
def RoleRow.ofKey (k : BuiltInRoleKey) : RoleRow where
  id := k.id
  key := some k
  builtIn := by
    intro l
    constructor
    · intro h
      cases h
      rfl
    · intro h
      rw [BuiltInRoleKey.id_injective _ _ h]

/-- A row of `role_permissions`; a permission that is not registered matches nothing. -/
structure RolePermission where
  roleId : RoleId
  permissionId : PermissionId
  deriving DecidableEq, Repr

/-- Whether a role grants a permission, by the built-in grants or those of a custom role. -/
def rolePermissionPredicate (rolePermissions : List RolePermission) (permission : PermissionId)
    (r : RoleRow) : Bool :=
  match r.key with
  | some key => permissionsForBuiltInRole key permission
  | none =>
    isCustomRolePermission permission &&
      rolePermissions.any fun p => p.roleId = r.id && p.permissionId = permission

end BackgroundAgents.Workspace

import BackgroundAgents.Workspace.UserMerge

/-!
# The last owner

A workspace that has an unsuspended owner keeps one through every interleaving
of role changes, status changes and merges (`last_owner_kept`).

Each mutation is read through two projections of the database, the role that a
user is assigned (`roleId`) and whether the user is active (`Active`): one
lemma a mutation says what it does to them (`roleId_setRole`, `active_setStatus`,
`mergeWrites_spec`, …). A role change and a status change of an owner need
another active owner, who is untouched; a merge of an owner needs a survivor
with the same role and suspension. The roles' `CHECK` is what makes the role id
that one condition tests and the role key that another tests the same.
-/

namespace BackgroundAgents.Workspace

open Transition

variable {Records : Type}

namespace WorkspaceDb

/-- A user who exists and is not suspended. -/
def Active (db : WorkspaceDb Records) (userId : UserId) : Prop :=
  (db.users.get? userId).any (·.suspendedAt.isNone) = true

/-- Some unsuspended user's role is owner. -/
def HasOwner (db : WorkspaceDb Records) : Prop :=
  ∃ userId, db.Active userId ∧ db.roleId userId = some ownerRoleId

/-- A user who is unsuspended and whose role grants a permission. -/
def Holds (db : WorkspaceDb Records) (userId : UserId) (permission : PermissionId) : Prop :=
  db.activeWith userId (db.grants permission) = true

/-- A user's role or suspension is not what it was. -/
def MemberChanged (s t : WorkspaceDb Records) (userId : UserId) : Prop :=
  s.roleId userId ≠ t.roleId userId ∨ s.suspendedAt userId ≠ t.suspendedAt userId

/-- A user became owner, or an owner's role or suspension is not what it was. -/
def OwnerChanged (s t : WorkspaceDb Records) (userId : UserId) : Prop :=
  s.MemberChanged t userId ∧
    (s.roleId userId = some ownerRoleId ∨ t.roleId userId = some ownerRoleId)

/-- What an audited mutation by an actor leaves behind. -/
structure Audited (s t : WorkspaceDb Records) (actorUserId : UserId) (row : AuditEvent) :
    Prop where
  oneRow : t.audit.rows = s.audit.rows ++ [row]
  applied_iff : row.operationResult = .applied ↔ ∃ userId, s.MemberChanged t userId
  others : row.operationResult ≠ .applied → t = { s with audit := t.audit }
  owners : ∀ userId, s.OwnerChanged t userId →
    s.Holds actorUserId .workspaceMembersManage ∧
      s.Holds actorUserId .workspaceTransferOwnership

/-! ## Reading the conditions -/

variable {db : WorkspaceDb Records}

theorem active_iff {userId : UserId} :
    db.Active userId ↔ ∃ u, db.users.get? userId = some u ∧ u.suspendedAt = none := by
  simp [Active, Option.any_eq_true]

theorem activeWith_mono {userId : UserId} {p q : RoleRow → Bool}
    (hpq : ∀ r, p r = true → q r = true) (h : db.activeWith userId p = true) :
    db.activeWith userId q = true := by
  obtain ⟨hactive, hp⟩ := Bool.and_eq_true_iff.mp h
  obtain ⟨r, hr, hp⟩ := Option.any_eq_true _ _ |>.mp hp
  refine Bool.and_eq_true_iff.mpr ⟨hactive, ?_⟩
  exact Option.any_eq_true _ _ |>.mpr ⟨r, hr, hpq r hp⟩

/-- Another active owner, by the projections. -/
theorem anotherUnsuspendedOwner_iff {targetUserId : UserId} :
    db.anotherUnsuspendedOwner targetUserId = true ↔
      ∃ userId, userId ≠ targetUserId ∧ db.Active userId ∧
        db.roleId userId = some ownerRoleId := by
  simp only [anotherUnsuspendedOwner, List.any_eq_true, Bool.and_eq_true, decide_eq_true_eq,
    Option.isNone_iff_eq_none]
  constructor
  · rintro ⟨u, hu, ⟨hrole, hsuspended⟩, hne⟩
    exact ⟨u.id, hne, active_iff.mpr ⟨u, Table.mem_rows_iff.mp hu, hsuspended⟩, hrole⟩
  · rintro ⟨userId, hne, hactive, hrole⟩
    obtain ⟨u, hu, hsuspended⟩ := active_iff.mp hactive
    have hid : u.id = userId := Table.key_of_get? hu
    exact ⟨u, Table.mem_of_get? hu, ⟨hid ▸ hrole, hsuspended⟩, hid ▸ hne⟩

theorem userIsOwner_iff {userId : UserId} :
    db.userIsOwner userId = true ↔ db.roleId userId = some ownerRoleId := by
  simp [userIsOwner]

end WorkspaceDb

/-- An applied mutation met all its conditions. -/
theorem MutationConditions.of_applied {c : MutationConditions}
    (hn : ∀ m ∈ c.notFound, m.1 ≠ .applied) (h : c.outcome = .applied) :
    c.actor = true ∧ c.resource = true ∧ c.stateChanged = true := by
  unfold outcome at h
  split at h
  next => cases h
  next hactor =>
    split at h
    next missing hfound => exact absurd h (hn missing (List.mem_of_find?_eq_some hfound))
    next =>
      split at h
      next => cases h
      next hresource =>
        split at h
        next => cases h
        next hchanged => simp_all

theorem AuthorizationMutationOutcome.result_applied {o : AuthorizationMutationOutcome} :
    o.result = .applied ↔ o = .applied := by
  cases o <;> simp [result]

namespace WorkspaceDb

variable {db t : WorkspaceDb Records}

/-- A batch appends its audit row and writes where the row says `applied`. -/
theorem audited_some {row : AuditEvent} {writes : WorkspaceDb Records → WorkspaceDb Records}
    (h : db.audited row writes = some t) :
    ∃ audit, db.audit.insert? row = some audit ∧
      t = if row.operationResult = .applied then writes { db with audit } else { db with audit } := by
  obtain ⟨audit, hinsert, rfl⟩ := Option.map_eq_some_iff.mp h
  refine ⟨audit, hinsert, ?_⟩
  have hget : audit.get? row.id = some row := by
    rw [Table.get?_insert? hinsert, if_pos rfl]
  have hgate : ({ db with audit } : WorkspaceDb Records).gate row.id =
      decide (row.operationResult = .applied) := by
    simp [gate, hget]
  simp only [hgate, decide_eq_true_eq]

/-- With a fresh id the batch goes through. -/
theorem audited_isSome {db : WorkspaceDb Records} {row : AuditEvent}
    {writes : WorkspaceDb Records → WorkspaceDb Records} (h : db.audit.get? row.id = none) :
    ∃ t, db.audited row writes = some t := by
  cases hinsert : db.audit.insert? row with
  | none =>
    obtain ⟨x, hx⟩ := Table.insert?_eq_none.mp hinsert
    rw [h] at hx
    cases hx
  | some audit => exact ⟨_, by rw [audited, hinsert, Option.map_some]⟩

/-- A batch whose writes keep the audit rows and are gated on conditions under which they
change a member and may change an owner is `Audited`. -/
theorem audited_of_writes {row : AuditEvent}
    {writes : WorkspaceDb Records → WorkspaceDb Records} {actorUserId : UserId}
    (h : db.audited row writes = some t)
    (haudit : ∀ db : WorkspaceDb Records, (writes db).audit = db.audit)
    (hchanged : row.operationResult = .applied → ∀ audit,
      ∃ userId, db.MemberChanged (writes { db with audit }) userId)
    (howners : row.operationResult = .applied → ∀ audit userId,
      db.OwnerChanged (writes { db with audit }) userId →
        db.Holds actorUserId .workspaceMembersManage ∧
          db.Holds actorUserId .workspaceTransferOwnership) :
    db.Audited t actorUserId row := by
  obtain ⟨audit, hinsert, rfl⟩ := audited_some h
  have hrows := Table.rows_insert? hinsert
  by_cases happlied : row.operationResult = .applied
  · rw [if_pos happlied]
    refine ⟨?_, ?_, ?_, ?_⟩
    · rw [haudit]
      exact hrows
    · exact iff_of_true happlied (hchanged happlied audit)
    · exact fun hne => absurd happlied hne
    · exact howners happlied audit
  · rw [if_neg happlied]
    refine ⟨hrows, iff_of_false happlied ?_, fun _ => rfl, ?_⟩
    · rintro ⟨userId, hrole | hsuspended⟩
      · exact hrole rfl
      · exact hsuspended rfl
    · rintro userId ⟨hrole | hsuspended, -⟩
      · exact absurd rfl hrole
      · exact absurd rfl hsuspended

/-! ## Role changes -/

theorem roleId_setRole (input : ReplaceMemberRole) (db : WorkspaceDb Records)
    (userId : UserId) :
    (db.setRole input).roleId userId =
      if userId = input.targetUserId then (db.roleId userId).map fun _ => input.roleId
      else db.roleId userId := by
  simp only [roleId, setRole, Table.get?_update, Option.map_map]
  cases h : db.assignments.get? userId with
  | none => simp
  | some a =>
    have hid : a.userId = userId := Table.key_of_get? h
    by_cases ht : userId = input.targetUserId <;> simp [hid, ht]

theorem active_setRole (input : ReplaceMemberRole) (db : WorkspaceDb Records)
    (userId : UserId) : (db.setRole input).Active userId ↔ db.Active userId := by
  simp only [Active, setRole, Table.get?_update]
  cases db.users.get? userId with
  | none => rfl
  | some u =>
    simp only [Option.map_some, Option.any_some]
    split <;> rfl

theorem suspendedAt_setRole (input : ReplaceMemberRole) (db : WorkspaceDb Records)
    (userId : UserId) : (db.setRole input).suspendedAt userId = db.suspendedAt userId := by
  simp only [suspendedAt, setRole, Table.get?_update]
  cases db.users.get? userId with
  | none => rfl
  | some u =>
    simp only [Option.map_some, Option.bind_some]
    split <;> rfl

/-- What an applied role change was allowed by. -/
structure RoleChange (db : WorkspaceDb Records) (input : ReplaceMemberRole) : Prop where
  manage : db.Holds input.actorUserId .workspaceMembersManage
  changed : ∃ roleId, db.roleId input.targetUserId = some roleId ∧ roleId ≠ input.roleId
  transfer : input.roleId = ownerRoleId ∨ db.roleId input.targetUserId = some ownerRoleId →
    db.Holds input.actorUserId .workspaceTransferOwnership
  otherOwner : input.roleId ≠ ownerRoleId → db.roleId input.targetUserId = some ownerRoleId →
    ∃ userId, userId ≠ input.targetUserId ∧ db.Active userId ∧
      db.roleId userId = some ownerRoleId

theorem roleChange_of_applied {db : WorkspaceDb Records} {input : ReplaceMemberRole}
    (h : (db.roleConditions input).outcome = .applied) : db.RoleChange input := by
  have hn : ∀ m ∈ (db.roleConditions input).notFound, m.1 ≠ .applied := by
    simp [roleConditions]
  obtain ⟨hactor, hresource, hchanged⟩ := MutationConditions.of_applied hn h
  have hstate : roleConditions.roleStateChanged db input = true := hchanged
  obtain ⟨roleId, hrole, hne⟩ := Option.any_eq_true _ _ |>.mp hstate
  simp only [roleConditions, hstate, Bool.not_true, Bool.false_or] at hactor hresource
  refine ⟨?_, ⟨roleId, hrole, of_decide_eq_true hne⟩, ?_, ?_⟩
  · exact activeWith_mono (fun r hr => (Bool.and_eq_true_iff.mp hr).1) hactor
  · intro hown
    refine activeWith_mono (fun r hr => ?_) hactor
    rcases Bool.or_eq_true_iff.mp (Bool.and_eq_true_iff.mp hr).2 with hfree | htransfer
    · obtain ⟨hto, hfrom⟩ := Bool.and_eq_true_iff.mp hfree
      rcases hown with hown | hown
      · exact absurd hown (of_decide_eq_true hto)
      · rw [userIsOwner_iff.mpr hown] at hfrom
        cases hfrom
    · exact htransfer
  · intro hto hfrom
    have hlast := (Bool.and_eq_true_iff.mp hresource).2
    rw [userIsOwner_iff.mpr hfrom] at hlast
    simp only [hto, decide_false, Bool.not_true, Bool.false_or] at hlast
    exact anotherUnsuspendedOwner_iff.mp hlast

theorem hasOwner_setRole {db : WorkspaceDb Records} {input : ReplaceMemberRole}
    (hc : db.RoleChange input) (h : db.HasOwner) : (db.setRole input).HasOwner := by
  -- an owner other than the target keeps the role
  have hother : ∀ userId, userId ≠ input.targetUserId → db.Active userId →
      db.roleId userId = some ownerRoleId → (db.setRole input).HasOwner := by
    intro userId hne hactive hrole
    exact ⟨userId, (active_setRole input db userId).mpr hactive, by
      rw [roleId_setRole, if_neg hne]
      exact hrole⟩
  obtain ⟨userId, hactive, hrole⟩ := h
  by_cases ht : userId = input.targetUserId
  · subst ht
    by_cases hto : input.roleId = ownerRoleId
    · exact ⟨input.targetUserId, (active_setRole input db _).mpr hactive, by
        rw [roleId_setRole, if_pos rfl, hrole, Option.map_some, hto]⟩
    · obtain ⟨other, hne, hactive', hrole'⟩ := hc.otherOwner hto hrole
      exact hother other hne hactive' hrole'
  · exact hother userId ht hactive hrole

/-! ## Status changes -/

theorem active_setStatus (input : ReplaceMemberStatus) (db : WorkspaceDb Records)
    (userId : UserId) (h : userId ≠ input.targetUserId ∨ input.suspended = false) :
    db.Active userId → (db.setStatus input).Active userId := by
  intro hactive
  obtain ⟨u, hu, hsuspended⟩ := active_iff.mp hactive
  have hid : u.id = userId := Table.key_of_get? hu
  refine active_iff.mpr ⟨_, by rw [setStatus, Table.get?_update, hu, Option.map_some], ?_⟩
  split
  next ht =>
    rcases h with hne | hresume
    · exact absurd (hid ▸ of_decide_eq_true ht) hne
    · simp [hresume]
  next => exact hsuspended

variable {input : ReplaceMemberStatus}

theorem suspendedAt_setStatus_of_ne {userId : UserId} (db : WorkspaceDb Records)
    (h : userId ≠ input.targetUserId) :
    (db.setStatus input).suspendedAt userId = db.suspendedAt userId := by
  simp only [suspendedAt, setStatus, Table.get?_update]
  cases hu : db.users.get? userId with
  | none => rfl
  | some u =>
    have hid : u.id = userId := Table.key_of_get? hu
    simp [hid, h]

/-- What an applied status change was allowed by. -/
structure StatusChange (db : WorkspaceDb Records) (input : ReplaceMemberStatus) : Prop where
  manage : db.Holds input.actorUserId .workspaceMembersManage
  changed : ∃ u, db.users.get? input.targetUserId = some u ∧
    u.suspendedAt.isSome ≠ input.suspended
  transfer : db.roleId input.targetUserId = some ownerRoleId →
    db.Holds input.actorUserId .workspaceTransferOwnership
  otherOwner : input.suspended = true → db.roleId input.targetUserId = some ownerRoleId →
    ∃ userId, userId ≠ input.targetUserId ∧ db.Active userId ∧
      db.roleId userId = some ownerRoleId

theorem statusChange_of_applied {db : WorkspaceDb Records}
    (h : (db.statusConditions input).outcome = .applied) : db.StatusChange input := by
  have hn : ∀ m ∈ (db.statusConditions input).notFound, m.1 ≠ .applied := by
    simp [statusConditions]
  obtain ⟨hactor, hresource, hchanged⟩ := MutationConditions.of_applied hn h
  have hstate : statusConditions.statusStateChanged db input = true := hchanged
  obtain ⟨u, hu, hne⟩ := Option.any_eq_true _ _ |>.mp hstate
  simp only [statusConditions, hstate, Bool.not_true, Bool.false_or] at hactor hresource
  refine ⟨?_, ⟨u, hu, of_decide_eq_true hne⟩, ?_, ?_⟩
  · exact activeWith_mono (fun r hr => (Bool.and_eq_true_iff.mp hr).1) hactor
  · intro hown
    refine activeWith_mono (fun r hr => ?_) hactor
    rcases Bool.or_eq_true_iff.mp (Bool.and_eq_true_iff.mp hr).2 with hfree | htransfer
    · rw [userIsOwner_iff.mpr hown] at hfree
      cases hfree
    · exact htransfer
  · intro hsuspend hown
    have hlast := (Bool.and_eq_true_iff.mp hresource).2
    rw [userIsOwner_iff.mpr hown, hsuspend] at hlast
    simp only [Bool.not_true, Bool.false_or] at hlast
    exact anotherUnsuspendedOwner_iff.mp hlast

/-- An applied status change moves the suspension of its target. -/
theorem memberChanged_setStatus {db : WorkspaceDb Records} (hc : db.StatusChange input)
    (audit : Table AuditEvent.id) :
    db.MemberChanged (setStatus input { db with audit }) input.targetUserId := by
  obtain ⟨u, hu, hne⟩ := hc.changed
  have hid : u.id = input.targetUserId := Table.key_of_get? hu
  refine Or.inr ?_
  simp only [suspendedAt, setStatus, Table.get?_update, hu, Option.map_some, Option.bind_some,
    hid, decide_true, if_true]
  cases hsuspended : input.suspended with
  | true =>
    rw [hsuspended] at hne
    cases hs : u.suspendedAt with
    | none => simp
    | some at_ => simp [hs] at hne
  | false =>
    rw [hsuspended] at hne
    cases hs : u.suspendedAt with
    | none => simp [hs] at hne
    | some at_ => simp

theorem hasOwner_setStatus {db : WorkspaceDb Records} {input : ReplaceMemberStatus}
    (hc : db.StatusChange input) (h : db.HasOwner) : (db.setStatus input).HasOwner := by
  obtain ⟨userId, hactive, hrole⟩ := h
  by_cases ht : userId ≠ input.targetUserId ∨ input.suspended = false
  · exact ⟨userId, active_setStatus input db userId ht hactive, hrole⟩
  · obtain ⟨ht, hsuspend⟩ := not_or.mp ht
    rw [not_not] at ht
    obtain ⟨other, hne, hactive', hrole'⟩ :=
      hc.otherOwner (Bool.eq_true_of_not_eq_false hsuspend) (ht ▸ hrole)
    exact ⟨other, active_setStatus input db other (Or.inl hne) hactive', hrole'⟩

/-! ## The two calls -/

variable {outcome : AuthorizationMutationOutcome} {auditId : Text}

theorem replaceMemberRole_audited {input : ReplaceMemberRole}
    (h : db.replaceMemberRole auditId input = some (t, outcome)) :
    db.Audited t input.actorUserId
      (auditStatement (db.roleAudit input) (db.roleConditions input).outcome auditId) := by
  obtain ⟨_, haudited, he⟩ := Option.map_eq_some_iff.mp h
  cases he
  refine audited_of_writes haudited (fun _ => rfl) ?_ ?_
  · intro happlied audit
    have hc := roleChange_of_applied (AuthorizationMutationOutcome.result_applied.mp happlied)
    obtain ⟨roleId, hrole, hne⟩ := hc.changed
    refine ⟨input.targetUserId, Or.inl ?_⟩
    rw [roleId_setRole, if_pos rfl]
    show db.roleId _ ≠ (db.roleId _).map _
    rw [hrole]
    exact fun he => hne (Option.some.inj he)
  · intro happlied audit userId hown
    have hc := roleChange_of_applied (AuthorizationMutationOutcome.result_applied.mp happlied)
    obtain ⟨hchanged, hown⟩ := hown
    refine ⟨hc.manage, hc.transfer ?_⟩
    have hsuspended := suspendedAt_setRole input { db with audit } userId
    have hrole := roleId_setRole input { db with audit } userId
    by_cases ht : userId = input.targetUserId
    · subst ht
      rcases hown with hown | hown
      · exact Or.inr hown
      · rw [hrole, if_pos rfl] at hown
        obtain ⟨_, _, hto⟩ := Option.map_eq_some_iff.mp hown
        exact Or.inl hto
    · rw [if_neg ht] at hrole
      rcases hchanged with hchanged | hchanged
      · exact absurd hrole.symm hchanged
      · exact absurd hsuspended.symm hchanged

theorem replaceMemberStatus_audited (h : db.replaceMemberStatus auditId input = some (t, outcome)) :
    db.Audited t input.actorUserId
      (auditStatement (db.statusAudit input) (db.statusConditions input).outcome auditId) := by
  obtain ⟨_, haudited, he⟩ := Option.map_eq_some_iff.mp h
  cases he
  refine audited_of_writes haudited (fun _ => rfl) ?_ ?_
  · intro happlied audit
    have hc := statusChange_of_applied (AuthorizationMutationOutcome.result_applied.mp happlied)
    exact ⟨_, memberChanged_setStatus hc audit⟩
  · intro happlied audit userId hown
    have hc := statusChange_of_applied (AuthorizationMutationOutcome.result_applied.mp happlied)
    obtain ⟨hchanged, hown⟩ := hown
    refine ⟨hc.manage, hc.transfer ?_⟩
    have hrole : (setStatus input { db with audit }).roleId userId = db.roleId userId := rfl
    by_cases ht : userId = input.targetUserId
    · subst ht
      rcases hown with hown | hown
      · exact hown
      · exact hrole ▸ hown
    · rcases hchanged with hchanged | hchanged
      · exact absurd hrole.symm hchanged
      · exact absurd (suspendedAt_setStatus_of_ne { db with audit } ht).symm hchanged

theorem replaceMemberRole_isSome {db : WorkspaceDb Records} (input : ReplaceMemberRole)
    (h : db.audit.get? auditId = none) :
    ∃ result, db.replaceMemberRole auditId input = some result := by
  obtain ⟨t, ht⟩ := @audited_isSome _ db
    (auditStatement (db.roleAudit input) (db.roleConditions input).outcome auditId)
    (setRole input) h
  exact ⟨_, by rw [replaceMemberRole, ht, Option.map_some]⟩

theorem replaceMemberStatus_isSome {db : WorkspaceDb Records} (input : ReplaceMemberStatus)
    (h : db.audit.get? auditId = none) :
    ∃ result, db.replaceMemberStatus auditId input = some result := by
  obtain ⟨t, ht⟩ := @audited_isSome _ db
    (auditStatement (db.statusAudit input) (db.statusConditions input).outcome auditId)
    (setStatus input) h
  exact ⟨_, by rw [replaceMemberStatus, ht, Option.map_some]⟩

theorem hasOwner_replaceMemberRole {input : ReplaceMemberRole}
    (h : db.replaceMemberRole auditId input = some (t, outcome)) (howner : db.HasOwner) :
    t.HasOwner := by
  obtain ⟨_, haudited, he⟩ := Option.map_eq_some_iff.mp h
  cases he
  obtain ⟨audit, -, rfl⟩ := audited_some haudited
  split
  next happlied =>
    have hc := roleChange_of_applied (AuthorizationMutationOutcome.result_applied.mp happlied)
    exact @hasOwner_setRole _ { db with audit } input
      ⟨hc.manage, hc.changed, hc.transfer, hc.otherOwner⟩ howner
  next => exact howner

theorem hasOwner_replaceMemberStatus (h : db.replaceMemberStatus auditId input = some (t, outcome))
    (howner : db.HasOwner) :
    t.HasOwner := by
  obtain ⟨_, haudited, he⟩ := Option.map_eq_some_iff.mp h
  cases he
  obtain ⟨audit, -, rfl⟩ := audited_some haudited
  split
  next happlied =>
    have hc := statusChange_of_applied (AuthorizationMutationOutcome.result_applied.mp happlied)
    exact @hasOwner_setStatus _ { db with audit } input
      ⟨hc.manage, hc.changed, hc.transfer, hc.otherOwner⟩ howner
  next => exact howner

/-! ## Merges -/

theorem active_fillEmail (db : WorkspaceDb Records) (survivorId : UserId) (email : Text)
    (emailVerified : Bool) (now : Millis) (userId : UserId) :
    (db.fillEmail survivorId email emailVerified now).Active userId ↔ db.Active userId := by
  simp only [Active, fillEmail, Table.get?_update]
  cases db.users.get? userId with
  | none => rfl
  | some u =>
    simp only [Option.map_some, Option.any_some]
    split <;> rfl

theorem active_removeUser {db : WorkspaceDb Records} {loserId userId : UserId}
    (hne : userId ≠ loserId) (h : db.Active userId) : (db.removeUser loserId).Active userId := by
  obtain ⟨u, hu, hsuspended⟩ := active_iff.mp h
  have hid : u.id = userId := Table.key_of_get? hu
  refine active_iff.mpr ⟨u, ?_, hsuspended⟩
  simp [removeUser, Table.get?_delete, hu, hid, hne]

theorem roleId_removeUser {db : WorkspaceDb Records} {loserId userId : UserId}
    (hne : userId ≠ loserId) : (db.removeUser loserId).roleId userId = db.roleId userId := by
  simp only [roleId, removeUser, Table.get?_delete]
  cases h : db.assignments.get? userId with
  | none => rfl
  | some a =>
    have hid : a.userId = userId := Table.key_of_get? h
    simp [hid, hne]

end WorkspaceDb

open WorkspaceDb in
/-- The writes of a merge keep every user but the loser active and in the same role. -/
theorem mergeWrites_spec {runtime : MergeRuntime Records} {db t : WorkspaceDb Records}
    {options : UserMergeOptions Records} {survivor loser : UserRow} {now : Millis}
    (h : mergeWrites runtime db options survivor loser now = some t) {userId : UserId}
    (hne : userId ≠ options.loserId) :
    (db.Active userId → t.Active userId) ∧ t.roleId userId = db.roleId userId := by
  obtain ⟨records, -, rfl⟩ := Option.map_eq_some_iff.mp h
  have hmoved := @active_removeUser _
    (({ db with records } : WorkspaceDb Records).moveIdentities options.survivorId options.loserId)
    options.loserId userId hne
  have hrole := @roleId_removeUser _
    (({ db with records } : WorkspaceDb Records).moveIdentities options.survivorId options.loserId)
    options.loserId userId hne
  simp only
  split
  next email _ =>
    exact ⟨fun hactive => (active_fillEmail _ _ _ _ _ _).mpr (hmoved hactive), hrole⟩
  next => exact ⟨hmoved, hrole⟩

namespace WorkspaceDb

/-- Where a merge may be applied, an active owner who is merged away leaves one behind. -/
theorem survivor_of_mergePreconditions {db : WorkspaceDb Records} {survivorId loserId : UserId}
    (h : db.mergePreconditions survivorId loserId = true) (hactive : db.Active loserId)
    (hrole : db.roleId loserId = some ownerRoleId) :
    db.Active survivorId ∧ db.roleId survivorId = some ownerRoleId := by
  obtain ⟨survivor, hsurvivor, h⟩ := Option.any_eq_true _ _ |>.mp h
  obtain ⟨loser, hloser, h⟩ := Option.any_eq_true _ _ |>.mp h
  obtain ⟨role, hrow, h⟩ := Option.any_eq_true _ _ |>.mp h
  simp only [Bool.and_eq_true, decide_eq_true_eq] at h
  obtain ⟨⟨hsame, hsuspended⟩, -⟩ := h
  constructor
  · obtain ⟨u, hu, hnone⟩ := active_iff.mp hactive
    rw [hloser] at hu
    cases hu
    rw [hnone] at hsuspended
    exact active_iff.mpr ⟨survivor, hsurvivor, Option.isNone_iff_eq_none.mp hsuspended⟩
  · have hid : role.id = ownerRoleId := by
      rw [WorkspaceDb.role, hrole] at hrow
      exact Table.key_of_get? hrow
    rw [hsame, hid]

theorem mergeDecision_none {db : WorkspaceDb Records} {options : UserMergeOptions Records}
    {loser : UserRow} (h : mergeDecision db options loser = none) :
    db.mergePreconditions options.survivorId options.loserId = true := by
  unfold mergeDecision at h
  split at h
  next => cases h
  next =>
    split at h
    next => cases h
    next hp => simpa using hp

theorem hasOwner_mergeBatch {runtime : MergeRuntime Records} {db t : WorkspaceDb Records}
    {options : UserMergeOptions Records} {survivor loser : UserRow} {auditId : Text}
    {now : Millis} (hne : options.survivorId ≠ options.loserId)
    (h : mergeBatch runtime db options survivor loser auditId now = some t)
    (howner : db.HasOwner) : t.HasOwner := by
  obtain ⟨audit, hinsert, h⟩ := Option.bind_eq_some_iff.mp h
  have hget : audit.get? auditId = some (mergeAudit db options loser auditId now) := by
    rw [Table.get?_insert? hinsert]
    exact if_pos rfl
  simp only [gate, hget, Option.any_some, decide_eq_true_eq] at h
  split at h
  next happlied =>
    have hdecision : mergeDecision db options loser = none := by
      unfold mergeAudit at happlied
      simp only at happlied
      split at happlied
      next hd => exact hd
      next => cases happlied
      next => cases happlied
    have hkept : ∀ userId, userId ≠ options.loserId → db.Active userId →
        db.roleId userId = some ownerRoleId → t.HasOwner := by
      intro userId hother hactive hrole
      obtain ⟨hactive', hrole'⟩ := mergeWrites_spec h hother
      exact ⟨userId, hactive' hactive, hrole'.trans hrole⟩
    obtain ⟨userId, hactive, hrole⟩ := howner
    by_cases hloser : userId = options.loserId
    · subst hloser
      obtain ⟨hactive', hrole'⟩ :=
        survivor_of_mergePreconditions (mergeDecision_none hdecision) hactive hrole
      exact hkept options.survivorId hne hactive' hrole'
    · exact hkept userId hloser hactive hrole
  next =>
    cases h
    exact howner

end WorkspaceDb

/-! ## Every run -/

def MergeCall.options : MergeCall Records → UserMergeOptions Records
  | readingSurvivor o | readingLoser o _ | readingRoles o _ _ | readingIdentities o _ _
  | writing o _ _ => o

theorem MergeCall.options_read {db : WorkspaceDb Records} {call next : MergeCall Records}
    (h : call.read db = .ok (some next)) : next.options = call.options := by
  cases call with
  | readingSurvivor o =>
    rw [read] at h
    split at h
    · cases h
      rfl
    · cases h
  | readingLoser o survivor =>
    obtain ⟨_, -, rfl⟩ := Option.map_eq_some_iff.mp (Except.ok.inj h)
    rfl
  | readingRoles o survivor loser =>
    rw [read] at h
    split at h
    · split at h
      · cases h
      · split at h
        · cases h
        · split at h
          · cases h
          · cases h
            rfl
    · cases h
  | readingIdentities o survivor loser =>
    rw [read] at h
    split at h
    · cases h
    · split at h
      · cases h
      · cases h
        rfl
  | writing o survivor loser =>
    cases h
    rfl

/-- The invariant: there is an active owner, and no merge is of a user into itself. -/
structure OwnerKept (s : MembersState Records) : Prop where
  owner : s.db.HasOwner
  distinct : ∀ call ∈ s.merges, call.options.survivorId ≠ call.options.loserId

theorem ownerKept_step {runtime : MergeRuntime Records} {s t : MembersState Records}
    {a : MembersStep Records} (hs : OwnerKept s) (h : (members runtime).step s a = some t) :
    OwnerKept t := by
  have hended : ∀ (i : Nat) (db : WorkspaceDb Records), db.HasOwner →
      OwnerKept (({ s with db }).setMerge i none) := by
    intro i db hdb
    exact ⟨hdb, fun call hcall => hs.distinct call (advance_subset_of_none hcall)⟩
  cases a with
  | replaceMemberRole auditId input =>
    obtain ⟨result, hresult, rfl⟩ := Option.map_eq_some_iff.mp h
    exact ⟨WorkspaceDb.hasOwner_replaceMemberRole hresult hs.owner, hs.distinct⟩
  | replaceMemberStatus auditId input =>
    obtain ⟨result, hresult, rfl⟩ := Option.map_eq_some_iff.mp h
    exact ⟨WorkspaceDb.hasOwner_replaceMemberStatus hresult hs.owner, hs.distinct⟩
  | mergeUsers options =>
    simp only [members, MembersState.step, MergeCall.start] at h
    split at h
    next call hstart =>
      cases h
      split at hstart
      next => cases hstart
      next hne =>
        cases hstart
        refine ⟨hs.owner, ?_⟩
        intro call hcall
        rcases List.mem_append.mp hcall with hcall | hcall
        · exact hs.distinct call hcall
        · cases List.mem_singleton.mp hcall
          exact hne
    next =>
      cases h
      exact hs
  | readMerge i =>
    simp only [members, MembersState.step] at h
    split at h
    next call hcall =>
      split at h
      next next hread =>
        cases h
        refine ⟨hs.owner, ?_⟩
        intro c hc
        rcases mem_of_mem_advance hc with hc | hc
        · exact hs.distinct c hc
        · subst hc
          rw [MergeCall.options_read hread]
          exact hs.distinct call (List.mem_of_getElem? hcall)
      next =>
        cases h
        exact hended i s.db hs.owner
    next => cases h
  | writeMerge i auditId now =>
    simp only [members, MembersState.step] at h
    split at h
    next options survivor loser hcall =>
      have hne := hs.distinct _ (List.mem_of_getElem? hcall)
      split at h
      next db hbatch =>
        cases h
        exact hended i db (WorkspaceDb.hasOwner_mergeBatch hne hbatch hs.owner)
      next =>
        cases h
        exact hended i s.db hs.owner
    next => cases h

/-- **The last owner.** A workspace with an unsuspended owner has one after every sequence of
role changes, status changes and merges. A role change or a status change whose audit id is
new inserts one audit row, which is `applied` exactly when a member changed; any other row of
the database changes only then, and an owner only by an actor who may transfer ownership. -/
theorem last_owner_kept (runtime : MergeRuntime Records) {db : WorkspaceDb Records}
    {s : MembersState Records} (howner : db.HasOwner)
    (h : (members runtime).Reachable anyStep { db } s) :
    s.db.HasOwner ∧
      (∀ auditId input, s.db.audit.get? auditId = none →
        ∃ t row, (members runtime).step s (.replaceMemberRole auditId input) = some t ∧
          t.merges = s.merges ∧ s.db.Audited t.db input.actorUserId row) ∧
      ∀ auditId input, s.db.audit.get? auditId = none →
        ∃ t row, (members runtime).step s (.replaceMemberStatus auditId input) = some t ∧
          t.merges = s.merges ∧ s.db.Audited t.db input.actorUserId row := by
  have hkept : OwnerKept s := by
    refine h.inv OwnerKept ⟨howner, ?_⟩ fun _ _ _ hs _ hstep => ownerKept_step hs hstep
    intro call hcall
    cases hcall
  refine ⟨hkept.owner, ?_, ?_⟩
  · intro auditId input hfresh
    obtain ⟨result, hresult⟩ := WorkspaceDb.replaceMemberRole_isSome input hfresh
    exact ⟨{ s with db := result.1 }, _, by
      show (s.db.replaceMemberRole auditId input).map _ = _
      rw [hresult, Option.map_some], rfl, WorkspaceDb.replaceMemberRole_audited hresult⟩
  · intro auditId input hfresh
    obtain ⟨result, hresult⟩ := WorkspaceDb.replaceMemberStatus_isSome input hfresh
    exact ⟨{ s with db := result.1 }, _, by
      show (s.db.replaceMemberStatus auditId input).map _ = _
      rw [hresult, Option.map_some], rfl, WorkspaceDb.replaceMemberStatus_audited hresult⟩

/-- A workspace of two owners, `a` and `b`. -/
def twoOwners : WorkspaceDb Unit where
  users := ⟨[{ id := ['a'] }, { id := ['b'] }], by decide⟩
  roles := ⟨[.ofKey .owner, .ofKey .administrator, .ofKey .member, .ofKey .viewer], by decide⟩
  rolePermissions := []
  assignments := ⟨[⟨['a'], ownerRoleId⟩, ⟨['b'], ownerRoleId⟩], by decide⟩
  identities := .empty
  authSessions := .empty
  audit := .empty
  records := ()

def asciiRuntime : MergeRuntime Unit where
  toLowerCase t := t.map Char.toLower
  moveRecords _ _ _ := some ()

/-- An operator merges `b` into `a`; between its reads and its batch `b` makes `a` a member. -/
def demotionDuringMerge : List (MembersStep Unit) :=
  [.mergeUsers { survivorId := ['a'], loserId := ['b'] }, .readMerge 0, .readMerge 0,
    .readMerge 0, .readMerge 0,
    .replaceMemberRole ['1']
      { targetUserId := ['a']
        roleId := BuiltInRoleKey.member.id
        actorUserId := ['b']
        requestId := []
        now := 1 },
    .writeMerge 0 ['2'] 2]

/-- The merge that lost its survivor's role is refused; its loser is still the owner. -/
theorem last_owner_kept_merge_refused :
    ∃ s, ((members asciiRuntime).run anyStep { db := twoOwners } demotionDuringMerge) = some s ∧
      s.db.audit.rows.map (·.operationResult) = [.applied, .rejected] ∧ s.db.HasOwner := by
  obtain ⟨s, hs⟩ := Option.isSome_iff_exists.mp
    (show ((members asciiRuntime).run anyStep { db := twoOwners } demotionDuringMerge).isSome =
      true by decide +kernel)
  have hrows : ((members asciiRuntime).run anyStep { db := twoOwners } demotionDuringMerge).map
      (fun s => s.db.audit.rows.map (·.operationResult)) = some [.applied, .rejected] := by
    decide +kernel
  rw [hs] at hrows
  have howner : twoOwners.HasOwner := ⟨['a'], rfl, rfl⟩
  exact ⟨s, hs, Option.some.inj hrows,
    (last_owner_kept asciiRuntime howner (System.run_reachable hs)).1⟩

end BackgroundAgents.Workspace

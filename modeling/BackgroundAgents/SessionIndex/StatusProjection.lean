import BackgroundAgents.SessionIndex.Rows
import BackgroundAgents.Lib.Transition

/-!
# The index's copy of a session's status

A session's runtime keeps its status in its own store and projects each change
onto the session's row of the index, fenced by the revision of the change. The
projections are calls to another database: they may be delayed, reordered,
repeated or lost. Two writers of the row know nothing of the runtime: the
initialization failures (`updateUnclaimed`) and the sweep of abandoned drafts
(`archiveOrphanedDraft`).

`Projections` is the system of one session: the runtime's statuses change, and
any projection issued so far is delivered at any later time, any number of
times. `ProjectionInv` ties both stores to `history`, the status that the
runtime had at each revision: every projection carries an entry of it, and so
does the row once a projection reached it. `status_projection_converges` reads
the convergence of the row off that.
-/

namespace BackgroundAgents.SessionIndex

open Transition

/-! ## The runtime's store -/

/-- The columns of the runtime's `session` row that the projections read. -/
structure RuntimeSession where
  id : Text
  sessionName : Option SessionId
  status : SessionStatus
  statusRevision : Nat
  updatedAt : Millis
  deriving DecidableEq, Repr

/-- `session.session_name || session.id`. -/
def getPublicSessionId (session : RuntimeSession) : SessionId :=
  match session.sessionName with
  | some name => if name.isEmpty then session.id else name
  | none => session.id

/-- The insertion of `upsertSession`. The revision is the column's default; a repeated
initialization finds the row and does not reach the statement. -/
def upsertSession (id : Text) (sessionName : SessionId) (status : SessionStatus)
    (updatedAt : Millis) : RuntimeSession where
  id := id
  sessionName := some sessionName
  status := status
  statusRevision := 1
  updatedAt := updatedAt

def updateSessionStatus (session : RuntimeSession) (status : SessionStatus)
    (updatedAt : Millis) : RuntimeSession :=
  { session with status, updatedAt, statusRevision := session.statusRevision + 1 }

/-- The arguments of a call to `SessionStatusProjectionStore.project`. -/
structure Projection where
  id : SessionId
  status : SessionStatus
  revision : Nat
  updatedAt : Millis
  deriving DecidableEq, Repr

/-- The projection of the row as it stands. -/
def RuntimeSession.projection (session : RuntimeSession) : Projection where
  id := getPublicSessionId session
  status := session.status
  revision := session.statusRevision
  updatedAt := session.updatedAt

/-- `Math.max(Date.now(), session.updated_at + 1)`. -/
def nextUpdatedAt (session : RuntimeSession) (now : Millis) : Millis :=
  max now (session.updatedAt + 1)

/-- The changed row, and the projection of the change: its revision is computed from the
row read before. -/
def changeStatus (session : RuntimeSession) (status : SessionStatus) (now : Millis) :
    RuntimeSession × Projection :=
  (updateSessionStatus session status (nextUpdatedAt session now),
    { id := getPublicSessionId session
      status := status
      revision := session.statusRevision + 1
      updatedAt := nextUpdatedAt session now })

/-- `beginTransition` up to its first await; a same-status transition projects again. -/
def beginTransition (session : RuntimeSession) (status : SessionStatus) (now : Millis) :
    RuntimeSession × Projection :=
  if session.status = status then
    (session,
      { id := getPublicSessionId session
        status := status
        revision := session.statusRevision
        updatedAt := session.updatedAt })
  else changeStatus session status now

/-- `cancel` up to its first await: the status changes also where it is `cancelled` already. -/
def cancel (session : RuntimeSession) (now : Millis) : RuntimeSession × Projection :=
  changeStatus session .cancelled now

/-- `confirmIndexStatus` up to its first await; it fails when the status has been superseded. -/
def confirmIndexStatus (session : RuntimeSession) (expectedStatus : SessionStatus) :
    Option Projection :=
  if session.status = expectedStatus then some session.projection else none

/-! ## The index -/

namespace SessionStatusProjectionStore

def projects (p : Projection) (r : SessionRow) : Bool :=
  r.id = p.id &&
    (r.statusRevision < p.revision || (r.statusRevision = p.revision && r.status = p.status))

def project (index : SessionTable) (p : Projection) : SessionTable :=
  index.update (projects p) fun r =>
    { r with
      status := p.status
      statusRevision := p.revision
      updatedAt := max r.updatedAt p.updatedAt }

def updateUnclaimed (index : SessionTable) (id : SessionId) (status : SessionStatus)
    (updatedAt : Millis) : SessionTable :=
  index.update (fun r => r.id = id && r.updatedAt ≤ updatedAt && r.statusRevision = 0) fun r =>
    { r with status, updatedAt }

def archiveOrphanedDraft (index : SessionTable) (id : SessionId) (now : Millis) : SessionTable :=
  index.update (fun r => r.id = id && r.status = .created && r.statusRevision = 0) fun r =>
    { r with status := .archived, updatedAt := now }

end SessionStatusProjectionStore

open SessionStatusProjectionStore

/-! ## The system -/

structure ProjectionState where
  /-- The public id of the session. -/
  id : SessionId
  index : SessionTable
  runtime : Option RuntimeSession := none
  /-- Every projection issued so far. -/
  issued : List Projection := []
  /-- The projections that were delivered, at least once. -/
  delivered : List Projection := []
  /-- Whether a delivery changed a row. -/
  applied : Bool := false
  /-- The status that the runtime had at each revision. -/
  history : List (Nat × SessionStatus) := []

inductive ProjectionStep where
  | init (id : Text) (sessionName : SessionId) (now : Millis)
  | beginTransition (status : SessionStatus) (now : Millis)
  | cancel (now : Millis)
  | repairIndexStatus
  | confirmIndexStatus (expectedStatus : SessionStatus)
  /-- The `k`-th projection that was issued reaches the index. -/
  | deliver (k : Nat)
  | updateUnclaimed (status : SessionStatus) (updatedAt : Millis)
  | archiveOrphanedDraft (now : Millis)
  deriving DecidableEq, Repr

namespace ProjectionState

/-- The runtime's row is `r`, after a projection was issued. -/
def project (s : ProjectionState) (r : RuntimeSession) (p : Projection) : ProjectionState :=
  { s with
    runtime := some r
    issued := s.issued ++ [p]
    history := if s.runtime = some r then s.history else (r.statusRevision, r.status) :: s.history }

def step (s : ProjectionState) : ProjectionStep → Option ProjectionState
  | .init id sessionName now =>
    let session := upsertSession id sessionName .created now
    match s.runtime with
    | some _ => some s
    | none =>
      if getPublicSessionId session = s.id then
        some { s with runtime := some session, history := [(1, .created)] }
      else none
  | .beginTransition status now =>
    s.runtime.map fun session =>
      let (r, p) := SessionIndex.beginTransition session status now
      s.project r p
  | .cancel now =>
    s.runtime.map fun session =>
      let (r, p) := SessionIndex.cancel session now
      s.project r p
  | .repairIndexStatus => s.runtime.map fun session => s.project session session.projection
  | .confirmIndexStatus expectedStatus =>
    s.runtime.bind fun session =>
      (SessionIndex.confirmIndexStatus session expectedStatus).map (s.project session)
  | .deliver k =>
    s.issued[k]?.map fun p =>
      { s with
        index := SessionStatusProjectionStore.project s.index p
        delivered := p :: s.delivered
        applied := s.applied || s.index.rows.any (projects p) }
  | .updateUnclaimed status updatedAt =>
    some { s with
      index := SessionStatusProjectionStore.updateUnclaimed s.index s.id status updatedAt }
  | .archiveOrphanedDraft now =>
    some { s with index := SessionStatusProjectionStore.archiveOrphanedDraft s.index s.id now }

end ProjectionState

/-- One session, its index row and the projections between them. -/
def projectionSystem : System ProjectionState ProjectionStep where
  step := ProjectionState.step

/-! ## What the statements do to the row -/

section Statements

variable {index : SessionTable} {p : Projection} {id : SessionId} {r : SessionRow}

theorem get?_project :
    (project index p).get? id = (index.get? id).map fun r =>
      if projects p r then
        { r with
          status := p.status
          statusRevision := p.revision
          updatedAt := max r.updatedAt p.updatedAt }
      else r := by
  simp only [project, Table.get?_update]

/-- The row after a delivery, which is at the later of the two revisions. -/
theorem project_row (hr : index.get? p.id = some r)
    (hsame : r.statusRevision = p.revision → r.status = p.status) :
    ∃ r', (project index p).get? p.id = some r' ∧
      r'.statusRevision = max r.statusRevision p.revision ∧
      ((r'.statusRevision = p.revision ∧ r'.status = p.status) ∨
        (r'.statusRevision = r.statusRevision ∧ r'.status = r.status)) := by
  refine ⟨_, by rw [get?_project, hr, Option.map_some], ?_⟩
  have hid : r.id = p.id := Table.key_of_get? hr
  have hiff : projects p r = true ↔ r.statusRevision ≤ p.revision := by
    simp only [projects, hid, decide_true, Bool.true_and, Bool.or_eq_true, Bool.and_eq_true,
      decide_eq_true_eq]
    constructor
    · rintro (hlt | ⟨heq, _⟩)
      · exact Nat.le_of_lt hlt
      · exact Nat.le_of_eq heq
    · intro hle
      rcases Nat.lt_or_eq_of_le hle with hlt | heq
      · exact .inl hlt
      · exact .inr ⟨heq, hsame heq⟩
  by_cases hle : r.statusRevision ≤ p.revision
  · rw [if_pos (hiff.mpr hle)]
    exact ⟨(Nat.max_eq_right hle).symm, .inl ⟨rfl, rfl⟩⟩
  · rw [if_neg fun h => hle (hiff.mp h)]
    exact ⟨(Nat.max_eq_left (by omega)).symm, .inr ⟨rfl, rfl⟩⟩

/-- The two writers that know nothing of the runtime leave a claimed row alone. -/
theorem unclaimed_unchanged (hr : ∀ r, index.get? id = some r → 1 ≤ r.statusRevision)
    (status : SessionStatus) (at_ now : Millis) :
    updateUnclaimed index id status at_ = index ∧ archiveOrphanedDraft index id now = index := by
  have hno : ∀ r ∈ index.rows, r.id = id → r.statusRevision ≠ 0 := by
    intro r hmem hid
    have hpos := hr r (Table.get?_eq_some.mpr ⟨hmem, hid⟩)
    omega
  constructor
  · refine Table.update_of_none fun r hmem => ?_
    by_cases hid : r.id = id
    · simp [hno r hmem hid]
    · simp [hid]
  · refine Table.update_of_none fun r hmem => ?_
    by_cases hid : r.id = id
    · simp [hno r hmem hid]
    · simp [hid]

/-- They keep the revision of any row. -/
theorem updateUnclaimed_row (hr : index.get? id = some r) (status : SessionStatus)
    (at_ : Millis) :
    ∃ r', (updateUnclaimed index id status at_).get? id = some r' ∧
      r'.statusRevision = r.statusRevision ∧ (r.statusRevision ≠ 0 → r'.status = r.status) := by
  refine ⟨_, by rw [updateUnclaimed, Table.get?_update, hr, Option.map_some], ?_⟩
  split
  next h =>
    refine ⟨rfl, fun hne => absurd ?_ hne⟩
    rw [Bool.and_eq_true, decide_eq_true_eq] at h
    exact h.2
  next => exact ⟨rfl, fun _ => rfl⟩

theorem archiveOrphanedDraft_row (hr : index.get? id = some r) (now : Millis) :
    ∃ r', (archiveOrphanedDraft index id now).get? id = some r' ∧
      r'.statusRevision = r.statusRevision ∧ (r.statusRevision ≠ 0 → r'.status = r.status) := by
  refine ⟨_, by rw [archiveOrphanedDraft, Table.get?_update, hr, Option.map_some], ?_⟩
  split
  next h =>
    refine ⟨rfl, fun hne => absurd ?_ hne⟩
    rw [Bool.and_eq_true, decide_eq_true_eq] at h
    exact h.2
  next => exact ⟨rfl, fun _ => rfl⟩

end Statements

/-- A projection is of the runtime's row after it was issued. -/
structure Issues (session r : RuntimeSession) (p : Projection) : Prop where
  id : p.id = getPublicSessionId r
  publicId : getPublicSessionId r = getPublicSessionId session
  revision : p.revision = r.statusRevision
  status : p.status = r.status
  /-- Every change of the status bumps the revision, once. -/
  bumped : r = session ∨ r.statusRevision = session.statusRevision + 1

theorem changeStatus_issues (session : RuntimeSession) (status : SessionStatus) (now : Millis) :
    Issues session (changeStatus session status now).1 (changeStatus session status now).2 :=
  ⟨rfl, rfl, rfl, rfl, .inr rfl⟩

theorem projection_issues (session : RuntimeSession) :
    Issues session session session.projection :=
  ⟨rfl, rfl, rfl, rfl, .inl rfl⟩

theorem beginTransition_issues (session : RuntimeSession) (status : SessionStatus)
    (now : Millis) :
    Issues session (beginTransition session status now).1
      (beginTransition session status now).2 := by
  unfold beginTransition
  split
  next h => exact ⟨rfl, rfl, rfl, h.symm, .inl rfl⟩
  next => exact changeStatus_issues session status now

/-! ## The invariant -/

/-- What holds of the runtime, the projections and the row between any two steps. -/
structure ProjectionInv (s : ProjectionState) : Prop where
  start : s.runtime = none → s.history = [] ∧ s.issued = []
  publicId : ∀ r, s.runtime = some r → getPublicSessionId r = s.id
  current : ∀ r, s.runtime = some r → (r.statusRevision, r.status) ∈ s.history
  latest : ∀ r, s.runtime = some r → ∀ e ∈ s.history, e.1 ≤ r.statusRevision
  once : ∀ e ∈ s.history, ∀ e' ∈ s.history, e.1 = e'.1 → e = e'
  positive : ∀ e ∈ s.history, 1 ≤ e.1
  issued : ∀ p ∈ s.issued, p.id = s.id ∧ (p.revision, p.status) ∈ s.history
  delivered : ∀ p ∈ s.delivered, p ∈ s.issued
  row : ∃ r, s.index.get? s.id = some r ∧
    (r.statusRevision ≠ 0 →
      ∃ p ∈ s.issued, p.revision = r.statusRevision ∧ p.status = r.status) ∧
    (∀ p ∈ s.delivered, p.revision ≤ r.statusRevision) ∧
    (s.applied = true → 1 ≤ r.statusRevision)

namespace ProjectionInv

variable {s t : ProjectionState}

/-- A projection of the runtime's row is issued. -/
theorem project (h : ProjectionInv s) {session r : RuntimeSession} {p : Projection}
    (hs : s.runtime = some session) (hp : Issues session r p) :
    ProjectionInv (s.project r p) := by
  have hsub : s.history ⊆ (s.project r p).history := by
    show s.history ⊆ if _ then _ else _
    split
    next => exact List.Subset.refl _
    next => exact List.subset_cons_self _ _
  have hnew : ∀ e ∈ (s.project r p).history,
      e ∈ s.history ∨ (e = (r.statusRevision, r.status) ∧
        r.statusRevision = session.statusRevision + 1) := by
    intro e he
    have he : e ∈ if s.runtime = some r then s.history
        else (r.statusRevision, r.status) :: s.history := he
    split at he
    next => exact .inl he
    next hne =>
      rcases List.mem_cons.mp he with rfl | he
      · refine .inr ⟨rfl, hp.bumped.resolve_left ?_⟩
        intro hr
        exact hne (hr ▸ hs)
      · exact .inl he
  have hcurrent : (r.statusRevision, r.status) ∈ (s.project r p).history := by
    show _ ∈ if _ then _ else _
    split
    next hr => exact h.current r hr
    next => exact List.mem_cons_self
  have hold : ∀ e ∈ s.history, e.1 ≤ session.statusRevision := h.latest session hs
  obtain ⟨x, hx, hfrom, hdel, happ⟩ := h.row
  refine ⟨fun hn => absurd hn (Option.some_ne_none _), ?_, ?_, ?_, ?_, ?_, ?_, ?_, x, hx, ?_, hdel,
    happ⟩
  · intro r' hr'
    cases hr'
    exact hp.publicId.trans (h.publicId session hs)
  · intro r' hr'
    cases hr'
    exact hcurrent
  · intro r' hr' e he
    cases hr'
    rcases hnew e he with he | ⟨rfl, _⟩
    · rcases hp.bumped with rfl | hb
      · exact hold e he
      · have := hold e he
        omega
    · exact le_rfl
  · intro e he e' he' heq
    rcases hnew e he with he | ⟨rfl, hb⟩
    · rcases hnew e' he' with he' | ⟨rfl, hb⟩
      · exact h.once e he e' he' heq
      · have hle := hold e he
        rw [heq, hb] at hle
        exact absurd hle (Nat.not_succ_le_self _)
    · rcases hnew e' he' with he' | ⟨rfl, _⟩
      · have hle := hold e' he'
        rw [← heq, hb] at hle
        exact absurd hle (Nat.not_succ_le_self _)
      · rfl
  · intro e he
    rcases hnew e he with he | ⟨rfl, hb⟩
    · exact h.positive e he
    · show 1 ≤ r.statusRevision
      omega
  · intro q hq
    rcases List.mem_append.mp hq with hq | hq
    · obtain ⟨hid, hmem⟩ := h.issued q hq
      exact ⟨hid, hsub hmem⟩
    · cases List.mem_singleton.mp hq
      refine ⟨hp.id.trans (hp.publicId.trans (h.publicId session hs)), ?_⟩
      rw [hp.revision, hp.status]
      exact hcurrent
  · intro q hq
    exact List.mem_append_left _ (h.delivered q hq)
  · intro hne
    obtain ⟨q, hq, hrev, hst⟩ := hfrom hne
    exact ⟨q, List.mem_append_left _ hq, hrev, hst⟩

/-- Two entries of the history at one revision have one status. -/
theorem status_eq (h : ProjectionInv s) {p q : Projection} (hp : p ∈ s.issued)
    (hq : q ∈ s.issued) (he : p.revision = q.revision) : p.status = q.status :=
  congrArg (·.2) (h.once _ (h.issued p hp).2 _ (h.issued q hq).2 he)

/-- What a delivery does to the row. -/
theorem deliver_row (h : ProjectionInv s) {p : Projection} (hp : p ∈ s.issued) {r : SessionRow}
    (hr : s.index.get? s.id = some r) :
    ∃ r', (SessionStatusProjectionStore.project s.index p).get? s.id = some r' ∧
      r'.statusRevision = max r.statusRevision p.revision ∧
      ((r'.statusRevision = p.revision ∧ r'.status = p.status) ∨
        (r'.statusRevision = r.statusRevision ∧ r'.status = r.status)) := by
  obtain ⟨x, hx, hfrom, _⟩ := h.row
  cases hx.symm.trans hr
  obtain ⟨hid, hmem⟩ := h.issued p hp
  rw [← hid] at hr ⊢
  refine project_row hr fun heq => ?_
  have hne : r.statusRevision ≠ 0 := by
    have := h.positive _ hmem
    omega
  obtain ⟨q, hq, hrev, hst⟩ := hfrom hne
  exact hst.symm.trans (h.status_eq hq hp (hrev.trans heq))

theorem deliver (h : ProjectionInv s) {p : Projection} (hp : p ∈ s.issued) :
    ProjectionInv { s with
      index := SessionStatusProjectionStore.project s.index p
      delivered := p :: s.delivered
      applied := s.applied || s.index.rows.any (projects p) } := by
  obtain ⟨r, hr, hfrom, hdel, _⟩ := h.row
  obtain ⟨r', hr', hmax, hcase⟩ := h.deliver_row hp hr
  have hpos : 1 ≤ p.revision := h.positive _ (h.issued p hp).2
  refine ⟨h.start, h.publicId, h.current, h.latest, h.once, h.positive, h.issued, ?_, r', hr', ?_,
    ?_, ?_⟩
  · intro q hq
    rcases List.mem_cons.mp hq with rfl | hq
    · exact hp
    · exact h.delivered q hq
  · intro hne
    rcases hcase with ⟨hrev, hst⟩ | ⟨hrev, hst⟩
    · exact ⟨p, hp, hrev.symm, hst.symm⟩
    · rw [hrev] at hne
      obtain ⟨q, hq, hqrev, hqst⟩ := hfrom hne
      exact ⟨q, hq, hqrev.trans hrev.symm, hqst.trans hst.symm⟩
  · intro q hq
    rw [hmax]
    rcases List.mem_cons.mp hq with rfl | hq
    · exact Nat.le_max_right _ _
    · exact le_trans (hdel q hq) (Nat.le_max_left _ _)
  · intro _
    rw [hmax]
    exact le_trans hpos (Nat.le_max_right _ _)

/-- A writer that keeps the revision of the row, and its status once it is claimed. -/
theorem rewritten (h : ProjectionInv s) {index : SessionTable}
    (hrow : ∀ r, s.index.get? s.id = some r → ∃ r', index.get? s.id = some r' ∧
      r'.statusRevision = r.statusRevision ∧ (r.statusRevision ≠ 0 → r'.status = r.status)) :
    ProjectionInv { s with index } := by
  obtain ⟨r, hr, hfrom, hdel, happ⟩ := h.row
  obtain ⟨r', hr', hrev, hst⟩ := hrow r hr
  refine ⟨h.start, h.publicId, h.current, h.latest, h.once, h.positive, h.issued, h.delivered,
    r', hr', ?_, ?_, ?_⟩
  · intro hne
    rw [hrev] at hne ⊢
    rw [hst hne]
    exact hfrom hne
  · rw [hrev]
    exact hdel
  · rw [hrev]
    exact happ

theorem init (h : ProjectionInv s) (hnone : s.runtime = none) {id : Text}
    {sessionName : SessionId} {now : Millis}
    (hid : getPublicSessionId (upsertSession id sessionName .created now) = s.id) :
    ProjectionInv { s with
      runtime := some (upsertSession id sessionName .created now)
      history := [(1, .created)] } := by
  have hissued := (h.start hnone).2
  refine ⟨fun hn => absurd hn (Option.some_ne_none _), ?_, ?_, ?_, ?_, ?_, ?_, h.delivered, h.row⟩
  · intro r hr
    cases hr
    exact hid
  · intro r hr
    cases hr
    exact List.mem_singleton_self _
  · intro r hr e he
    cases hr
    cases List.mem_singleton.mp he
    exact le_rfl
  · intro e he e' he' _
    rw [List.mem_singleton.mp he, List.mem_singleton.mp he']
  · intro e he
    rw [List.mem_singleton.mp he]
  · intro p hp
    rw [hissued] at hp
    cases hp

/-- **One step keeps it.** -/
theorem step (h : ProjectionInv s) {a : ProjectionStep} (hs : s.step a = some t) :
    ProjectionInv t := by
  cases a with
  | init id sessionName now =>
    simp only [ProjectionState.step] at hs
    split at hs
    next =>
      cases hs
      exact h
    next hnone =>
      split at hs
      next hid =>
        cases hs
        exact h.init hnone hid
      next => cases hs
  | beginTransition status now =>
    obtain ⟨session, hrt, rfl⟩ := Option.map_eq_some_iff.mp hs
    exact h.project hrt (beginTransition_issues session status now)
  | cancel now =>
    obtain ⟨session, hrt, rfl⟩ := Option.map_eq_some_iff.mp hs
    exact h.project hrt (changeStatus_issues session .cancelled now)
  | repairIndexStatus =>
    obtain ⟨session, hrt, rfl⟩ := Option.map_eq_some_iff.mp hs
    exact h.project hrt (projection_issues session)
  | confirmIndexStatus expectedStatus =>
    obtain ⟨session, hrt, hs⟩ := Option.bind_eq_some_iff.mp hs
    obtain ⟨p, hp, rfl⟩ := Option.map_eq_some_iff.mp hs
    unfold SessionIndex.confirmIndexStatus at hp
    split at hp
    next =>
      cases hp
      exact h.project hrt (projection_issues session)
    next => cases hp
  | deliver k =>
    obtain ⟨p, hp, rfl⟩ := Option.map_eq_some_iff.mp hs
    exact h.deliver (List.mem_of_getElem? hp)
  | updateUnclaimed status updatedAt =>
    cases hs
    exact h.rewritten fun r hr => updateUnclaimed_row hr status updatedAt
  | archiveOrphanedDraft now =>
    cases hs
    exact h.rewritten fun r hr => archiveOrphanedDraft_row hr now

end ProjectionInv

/-! ## Convergence -/

/-- Where a run begins: nothing was projected yet. The runtime's row is missing, or at a
revision of its own, from one on. -/
structure Unprojected (s : ProjectionState) : Prop where
  runtime : ∀ r, s.runtime = some r → getPublicSessionId r = s.id ∧ 1 ≤ r.statusRevision
  issued : s.issued = []
  delivered : s.delivered = []
  applied : s.applied = false
  history : s.history = (s.runtime.map fun r => (r.statusRevision, r.status)).toList
  row : ∃ r, s.index.get? s.id = some r ∧ r.statusRevision = 0

theorem Unprojected.inv {s : ProjectionState} (h : Unprojected s) : ProjectionInv s := by
  obtain ⟨x, hx, hzero⟩ := h.row
  have hhistory : ∀ e ∈ s.history, ∃ r, s.runtime = some r ∧ e = (r.statusRevision, r.status) := by
    intro e he
    rw [h.history, Option.mem_toList] at he
    obtain ⟨r, hr, rfl⟩ := Option.map_eq_some_iff.mp he
    exact ⟨r, hr, rfl⟩
  refine ⟨?_, fun r hr => (h.runtime r hr).1, ?_, ?_, ?_, ?_, ?_, ?_, x, hx, ?_, ?_, ?_⟩
  · intro hnone
    rw [h.history, hnone]
    exact ⟨rfl, h.issued⟩
  · intro r hr
    rw [h.history, hr]
    exact List.mem_singleton_self _
  · intro r hr e he
    obtain ⟨r', hr', rfl⟩ := hhistory e he
    cases hr.symm.trans hr'
    exact le_rfl
  · intro e he e' he' _
    obtain ⟨r, hr, rfl⟩ := hhistory e he
    obtain ⟨r', hr', rfl⟩ := hhistory e' he'
    cases hr.symm.trans hr'
    rfl
  · intro e he
    obtain ⟨r, hr, rfl⟩ := hhistory e he
    exact (h.runtime r hr).2
  · intro p hp
    rw [h.issued] at hp
    cases hp
  · intro p hp
    rw [h.delivered] at hp
    cases hp
  · exact fun hne => absurd hzero hne
  · intro p hp
    rw [h.delivered] at hp
    cases hp
  · intro happ
    rw [h.applied] at happ
    cases happ

/-- The index follows the runtime's status. -/
structure Converges (s : ProjectionState) : Prop where
  /-- One revision is one status. -/
  revisions : ∀ p ∈ s.issued, ∀ q ∈ s.issued, p.revision = q.revision → p.status = q.status
  /-- No step takes the row back to an earlier revision. -/
  monotone : ∀ a t, s.step a = some t → ∀ r, s.index.get? s.id = some r →
    ∃ r', t.index.get? t.id = some r' ∧ r.statusRevision ≤ r'.statusRevision
  /-- The row's status is the one that the runtime had at its revision. -/
  truthful : ∀ r, s.index.get? s.id = some r → 1 ≤ r.statusRevision →
    ∀ status, (r.statusRevision, status) ∈ s.history ↔ status = r.status
  /-- A delivery of the latest projection settles the row. -/
  settles : ∀ p ∈ s.delivered, (∀ q ∈ s.issued, q.revision ≤ p.revision) →
    ∃ r, s.index.get? s.id = some r ∧ r.status = p.status ∧ r.statusRevision = p.revision
  /-- A row that a projection reached is no longer the other writers'. -/
  claimed : s.applied = true → ∀ status updatedAt now,
    updateUnclaimed s.index s.id status updatedAt = s.index ∧
      archiveOrphanedDraft s.index s.id now = s.index

theorem ProjectionInv.monotone {s t : ProjectionState} (h : ProjectionInv s)
    {a : ProjectionStep} (hs : s.step a = some t) {r : SessionRow}
    (hr : s.index.get? s.id = some r) :
    ∃ r', t.index.get? t.id = some r' ∧ r.statusRevision ≤ r'.statusRevision := by
  cases a with
  | init id sessionName now =>
    simp only [ProjectionState.step] at hs
    split at hs
    next =>
      cases hs
      exact ⟨r, hr, le_rfl⟩
    next =>
      split at hs
      next =>
        cases hs
        exact ⟨r, hr, le_rfl⟩
      next => cases hs
  | beginTransition status now =>
    obtain ⟨session, _, rfl⟩ := Option.map_eq_some_iff.mp hs
    exact ⟨r, hr, le_rfl⟩
  | cancel now =>
    obtain ⟨session, _, rfl⟩ := Option.map_eq_some_iff.mp hs
    exact ⟨r, hr, le_rfl⟩
  | repairIndexStatus =>
    obtain ⟨session, _, rfl⟩ := Option.map_eq_some_iff.mp hs
    exact ⟨r, hr, le_rfl⟩
  | confirmIndexStatus expectedStatus =>
    obtain ⟨session, _, hs⟩ := Option.bind_eq_some_iff.mp hs
    obtain ⟨p, _, rfl⟩ := Option.map_eq_some_iff.mp hs
    exact ⟨r, hr, le_rfl⟩
  | deliver k =>
    obtain ⟨p, hp, rfl⟩ := Option.map_eq_some_iff.mp hs
    obtain ⟨r', hr', hmax, _⟩ := h.deliver_row (List.mem_of_getElem? hp) hr
    exact ⟨r', hr', hmax ▸ Nat.le_max_left _ _⟩
  | updateUnclaimed status updatedAt =>
    cases hs
    obtain ⟨r', hr', hrev, _⟩ := updateUnclaimed_row hr status updatedAt
    exact ⟨r', hr', Nat.le_of_eq hrev.symm⟩
  | archiveOrphanedDraft now =>
    cases hs
    obtain ⟨r', hr', hrev, _⟩ := archiveOrphanedDraft_row hr now
    exact ⟨r', hr', Nat.le_of_eq hrev.symm⟩

theorem ProjectionInv.converges {s : ProjectionState} (h : ProjectionInv s) : Converges s := by
  obtain ⟨x, hx, hfrom, hdel, happ⟩ := h.row
  refine ⟨fun p hp q hq => h.status_eq hp hq, fun a t hs r hr => h.monotone hs hr, ?_, ?_, ?_⟩
  · intro r hr hpos status
    cases hx.symm.trans hr
    obtain ⟨p, hp, hrev, hst⟩ := hfrom (by omega)
    have hmem := (h.issued p hp).2
    rw [hrev, hst] at hmem
    constructor
    · intro hin
      exact congrArg (·.2) (h.once _ hin _ hmem rfl)
    · rintro rfl
      exact hmem
  · intro p hp hmax
    have hpos : 1 ≤ p.revision := h.positive _ (h.issued p (h.delivered p hp)).2
    have hle := hdel p hp
    obtain ⟨q, hq, hrev, hst⟩ := hfrom (by omega)
    have heq : q.revision = p.revision := le_antisymm (hmax q hq) (hrev ▸ hle)
    exact ⟨x, hx, hst.symm.trans (h.status_eq hq (h.delivered p hp) heq), hrev.symm.trans heq⟩
  · intro ha status updatedAt now
    refine unclaimed_unchanged ?_ status updatedAt now
    intro r hr
    cases hx.symm.trans hr
    exact happ ha

/-- **The index's status converges** to the runtime's, however the projections arrive. -/
theorem status_projection_converges {s₀ s : ProjectionState} (h₀ : Unprojected s₀)
    (hr : projectionSystem.Reachable anyStep s₀ s) : Converges s := by
  refine ProjectionInv.converges (hr.inv ProjectionInv h₀.inv ?_)
  intro s a t hi _ hs
  exact hi.step hs

/-- An index row that no runtime has claimed yet. -/
def createdIndex : ProjectionState where
  id := ['s']
  index := ⟨[{ id := ['s'], status := .created }], by decide⟩

theorem createdIndex_unprojected : Unprojected createdIndex where
  runtime _ h := absurd h.symm (Option.some_ne_none _)
  issued := rfl
  delivered := rfl
  applied := rfl
  history := rfl
  row := ⟨_, rfl, rfl⟩

/-- The cancellation overtakes the activation, which arrives twice. -/
theorem status_projection_converges_reordered :
    ∃ s, projectionSystem.run anyStep createdIndex
        [.init ['d'] ['s'] 1, .beginTransition .active 2, .cancel 3, .deliver 1, .deliver 0,
          .updateUnclaimed .failed 4, .deliver 0] = some s ∧ Converges s := by
  obtain ⟨s, hs⟩ := Option.isSome_iff_exists.mp (show (projectionSystem.run anyStep createdIndex
    [.init ['d'] ['s'] 1, .beginTransition .active 2, .cancel 3, .deliver 1, .deliver 0,
      .updateUnclaimed .failed 4, .deliver 0]).isSome = true by decide +kernel)
  exact ⟨s, hs, status_projection_converges createdIndex_unprojected (System.run_reachable hs)⟩

end BackgroundAgents.SessionIndex

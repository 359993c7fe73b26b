import Mathlib.Data.List.Basic

/-!
# Pull request snapshots, the record and the artifact

A provider snapshot of a pull request goes to two stores: the D1 record
(`SessionPullRequestStore.upsert`) and the metadata of the session's `pr`
artifact (`preparePullRequestArtifactUpdate`). Each has its own rule for
snapshots that come late. The state is that of one artifact id.

A metadata object is the list of its properties in their order. Of the values
only texts, numbers and booleans are looked at; any other one stays as its JSON
text. Two objects have the same `JSON.stringify` when the lists are equal.
-/

namespace BackgroundAgents.PullRequests

/-- `PullRequestLifecycleState` -/
inductive LifecycleState where
  | opened
  | closed
  | merged
  deriving DecidableEq, Repr

def LifecycleState.text : LifecycleState → String
  | .opened => "open"
  | .closed => "closed"
  | .merged => "merged"

/-- The parse of a stored state. -/
def LifecycleState.ofText : String → Option LifecycleState
  | "open" => some .opened
  | "closed" => some .closed
  | "merged" => some .merged
  | _ => none

@[simp] theorem LifecycleState.ofText_text (state : LifecycleState) :
    ofText state.text = some state := by
  cases state <;> rfl

/-- `pullRequestSnapshotSchema`: what the provider says of a pull request. -/
structure PullRequestSnapshotInput where
  number : Nat
  url : String
  lifecycleState : LifecycleState
  isDraft : Bool
  headBranch : String
  baseBranch : String
  headSha : Option String
  repoOwner : String
  repoName : String
  repositoryExternalId : Option String
  providerCreatedAt : Option Int
  providerUpdatedAt : Option Int
  mergedAt : Option Int
  closedAt : Option Int
  /-- the schema's refinement, which the providers' mappings meet as well -/
  draft_open : isDraft = true → lifecycleState = .opened
  deriving DecidableEq

/-- `toDisplayStatus` -/
def toDisplayStatus (snapshot : PullRequestSnapshotInput) : String :=
  match snapshot.lifecycleState with
  | .merged => "merged"
  | .closed => "closed"
  | .opened => if snapshot.isDraft then "draft" else "open"

/-! ## The record -/

/-- A row of `session_pull_requests`. -/
structure SessionPullRequestRecord where
  artifactId : String
  sessionId : String
  repositoryExternalId : Option String
  repoOwner : String
  repoName : String
  prNumber : Nat
  url : String
  lifecycleState : LifecycleState
  isDraft : Bool
  headBranch : String
  baseBranch : String
  headSha : Option String
  providerCreatedAt : Option Int
  providerUpdatedAt : Option Int
  mergedAt : Option Int
  closedAt : Option Int
  createdAt : Int
  updatedAt : Int
  deriving DecidableEq, Repr

/-- What names the record that a snapshot goes to. -/
structure RecordIdentity where
  artifactId : String
  sessionId : String
  createdAt : Int
  updatedAt : Int
  deriving DecidableEq, Repr

def snapshotToRecord (snapshot : PullRequestSnapshotInput) (identity : RecordIdentity) :
    SessionPullRequestRecord :=
  { artifactId := identity.artifactId
    sessionId := identity.sessionId
    repositoryExternalId := snapshot.repositoryExternalId
    repoOwner := snapshot.repoOwner
    repoName := snapshot.repoName
    prNumber := snapshot.number
    url := snapshot.url
    lifecycleState := snapshot.lifecycleState
    isDraft := snapshot.isDraft
    headBranch := snapshot.headBranch
    baseBranch := snapshot.baseBranch
    headSha := snapshot.headSha
    providerCreatedAt := snapshot.providerCreatedAt
    providerUpdatedAt := snapshot.providerUpdatedAt
    -- outcome timestamps only in their state
    mergedAt := if snapshot.lifecycleState = .merged then snapshot.mergedAt else none
    closedAt := if snapshot.lifecycleState ≠ .opened then snapshot.closedAt else none
    createdAt := identity.createdAt
    updatedAt := identity.updatedAt }

/-- The `WHERE` of the upsert: not strictly older, a missing timestamp is authoritative. -/
def acceptsRecord (stored record : SessionPullRequestRecord) : Bool :=
  match record.providerUpdatedAt, stored.providerUpdatedAt with
  | some t, some stored => stored ≤ t
  | _, _ => true

/-- `SessionPullRequestStore.upsert`: the record afterwards, and `applied`. -/
def upsert (stored : Option SessionPullRequestRecord) (record : SessionPullRequestRecord) :
    Option SessionPullRequestRecord × Bool :=
  match stored with
  | none => (some record, true)
  | some old =>
    if acceptsRecord old record then
      (some { record with sessionId := old.sessionId, createdAt := old.createdAt }, true)
    else (some old, false)

/-! ## The artifact -/

inductive MetadataValue where
  | string (s : String)
  | number (n : Int)
  | bool (b : Bool)
  | other (json : String)
  deriving DecidableEq, Repr

/-- The own properties of an object, in their order. -/
abbrev Metadata := List (String × MetadataValue)

/-- `metadata[key]` -/
def Metadata.get? : Metadata → String → Option MetadataValue
  | [], _ => none
  | (k, value) :: rest, key => if k = key then some value else Metadata.get? rest key

/-- `metadata[key] = value`: in place, a new property at the end. -/
def Metadata.set : Metadata → String → MetadataValue → Metadata
  | [], key, value => [(key, value)]
  | (k, v) :: rest, key, value =>
    if k = key then (k, value) :: rest else (k, v) :: Metadata.set rest key value

theorem Metadata.get?_set (metadata : Metadata) (key : String) (value : MetadataValue)
    (k : String) :
    (metadata.set key value).get? k = if k = key then some value else metadata.get? k := by
  induction metadata with
  | nil =>
    rw [set, get?, get?]
    by_cases hk : k = key
    · rw [if_pos hk, if_pos hk.symm]
    · rw [if_neg hk, if_neg fun he => hk he.symm, get?]
  | cons property rest ih =>
    obtain ⟨j, v⟩ := property
    rw [set]
    by_cases hj : j = key
    · subst hj
      rw [if_pos rfl, get?, get?]
      by_cases hk : j = k
      · rw [if_pos hk, if_pos hk.symm]
      · rw [if_neg hk, if_neg fun he => hk he.symm, if_neg hk]
    · rw [if_neg hj, get?, get?, ih]
      by_cases hk : j = k
      · rw [if_pos hk, if_pos hk, if_neg fun he => hj (hk.trans he)]
      · rw [if_neg hk, if_neg hk]

/-- An optional property that is assigned when the snapshot carries it. -/
def Metadata.set? (metadata : Metadata) (key : String) : Option MetadataValue → Metadata
  | some value => metadata.set key value
  | none => metadata

theorem Metadata.get?_set? (metadata : Metadata) (key : String) (value : Option MetadataValue)
    (k : String) :
    (metadata.set? key value).get? k =
      if k = key then value.or (metadata.get? key) else metadata.get? k := by
  cases value with
  | none =>
    by_cases hk : k = key
    · simp [set?, hk]
    · simp [set?, hk]
  | some value => simp [set?, get?_set]

/-- A row of `artifacts`. A `metadata` column that is null, malformed or no object is `none`. -/
structure ArtifactRow where
  id : String
  url : Option String
  metadata : Option Metadata
  created_at : Int
  updated_at : Int
  deriving DecidableEq, Repr

/-- `parsePullRequestArtifactMetadata`: anything unreadable degrades to `{}`. -/
def parsePullRequestArtifactMetadata (raw : Option Metadata) : Metadata := raw.getD []

def mergeSnapshotMetadata (existing : Metadata) (snapshot : PullRequestSnapshotInput) :
    Metadata :=
  let next := existing.set "number" (.number snapshot.number)
    |>.set "state" (.string (toDisplayStatus snapshot))
    |>.set "lifecycleState" (.string snapshot.lifecycleState.text)
    |>.set "isDraft" (.bool snapshot.isDraft)
    |>.set "head" (.string snapshot.headBranch)
    |>.set "base" (.string snapshot.baseBranch)
    |>.set "repoOwner" (.string snapshot.repoOwner)
    |>.set "repoName" (.string snapshot.repoName)
  next.set? "headSha" (snapshot.headSha.map .string)
    |>.set? "repositoryExternalId" (snapshot.repositoryExternalId.map .string)
    |>.set? "providerUpdatedAt" (snapshot.providerUpdatedAt.map .number)

/-- The properties that a merge assigns; any other is unknown to it. -/
def mergedKeys : List String :=
  ["number", "state", "lifecycleState", "isDraft", "head", "base", "repoOwner", "repoName",
    "headSha", "repositoryExternalId", "providerUpdatedAt"]

/-- `typeof existing.providerUpdatedAt === "number"` -/
def Metadata.providerUpdatedAt (metadata : Metadata) : Option Int :=
  match metadata.get? "providerUpdatedAt" with
  | some (.number t) => some t
  | _ => none

/-- `UpdateArtifactData` -/
structure UpdateArtifactData where
  url : String
  metadata : Metadata
  updatedAt : Int
  deriving DecidableEq, Repr

/-- The payload of the `artifact_updated` broadcast. -/
structure SessionArtifact where
  id : String
  url : String
  metadata : Metadata
  createdAt : Int
  updatedAt : Int
  deriving DecidableEq, Repr

/-- `PullRequestArtifactUpdate`: the write and the broadcast. -/
structure PullRequestArtifactUpdate where
  update : UpdateArtifactData
  artifact : SessionArtifact
  deriving DecidableEq, Repr

/-- A snapshot strictly older than the stored timestamp. -/
def staleFor (existing : Metadata) (snapshot : PullRequestSnapshotInput) : Bool :=
  match snapshot.providerUpdatedAt, existing.providerUpdatedAt with
  | some t, some stored => t < stored
  | _, _ => false

def preparePullRequestArtifactUpdate (artifact : ArtifactRow) (snapshot : PullRequestSnapshotInput)
    (updatedAt : Int) : Option PullRequestArtifactUpdate :=
  let existing := parsePullRequestArtifactMetadata artifact.metadata
  if staleFor existing snapshot then none
  else
    let nextMetadata := mergeSnapshotMetadata existing snapshot
    if some snapshot.url = artifact.url ∧ nextMetadata = existing then none
    else some
      { update := { url := snapshot.url, metadata := nextMetadata, updatedAt }
        artifact :=
          { id := artifact.id
            url := snapshot.url
            metadata := nextMetadata
            createdAt := artifact.created_at
            updatedAt } }

/-- `ArtifactRepository.updateArtifact`, on the row that was read -/
def updateArtifact (artifact : ArtifactRow) (data : UpdateArtifactData) : ArtifactRow :=
  { artifact with
    url := some data.url, metadata := some data.metadata, updated_at := data.updatedAt }

/-- The artifact after `preparePullRequestArtifactUpdate` and the write it prescribes. -/
def mirrorSnapshot (artifact : ArtifactRow) (snapshot : PullRequestSnapshotInput)
    (updatedAt : Int) : ArtifactRow :=
  match preparePullRequestArtifactUpdate artifact snapshot updatedAt with
  | some prepared => updateArtifact artifact prepared.update
  | none => artifact

/-! ## What a store says of the pull request -/

/-- The facts that the record and the artifact both keep. -/
structure Facts where
  lifecycleState : LifecycleState
  isDraft : Bool
  url : String
  headBranch : String
  baseBranch : String
  repoOwner : String
  repoName : String
  deriving DecidableEq, Repr

def PullRequestSnapshotInput.facts (snapshot : PullRequestSnapshotInput) : Facts :=
  { lifecycleState := snapshot.lifecycleState
    isDraft := snapshot.isDraft
    url := snapshot.url
    headBranch := snapshot.headBranch
    baseBranch := snapshot.baseBranch
    repoOwner := snapshot.repoOwner
    repoName := snapshot.repoName }

def SessionPullRequestRecord.facts (record : SessionPullRequestRecord) : Facts :=
  { lifecycleState := record.lifecycleState
    isDraft := record.isDraft
    url := record.url
    headBranch := record.headBranch
    baseBranch := record.baseBranch
    repoOwner := record.repoOwner
    repoName := record.repoName }

/-- The metadata of an artifact, as it is read. -/
def ArtifactRow.properties (artifact : ArtifactRow) : Metadata :=
  parsePullRequestArtifactMetadata artifact.metadata

def ArtifactRow.providerUpdatedAt (artifact : ArtifactRow) : Option Int :=
  artifact.properties.providerUpdatedAt

def ArtifactRow.repositoryExternalId (artifact : ArtifactRow) : Option MetadataValue :=
  artifact.properties.get? "repositoryExternalId"

/-- The artifact shows these facts. -/
structure ArtifactRow.Shows (artifact : ArtifactRow) (facts : Facts) : Prop where
  url : artifact.url = some facts.url
  lifecycleState :
    artifact.properties.get? "lifecycleState" = some (.string facts.lifecycleState.text)
  isDraft : artifact.properties.get? "isDraft" = some (.bool facts.isDraft)
  headBranch : artifact.properties.get? "head" = some (.string facts.headBranch)
  baseBranch : artifact.properties.get? "base" = some (.string facts.baseBranch)
  repoOwner : artifact.properties.get? "repoOwner" = some (.string facts.repoOwner)
  repoName : artifact.properties.get? "repoName" = some (.string facts.repoName)

/-- Drafts are open, in the metadata. -/
def Metadata.DraftOpen (metadata : Metadata) : Prop :=
  metadata.get? "isDraft" = some (.bool true) →
    metadata.get? "lifecycleState" = some (.string LifecycleState.opened.text)

/-! ## The merge -/

theorem get?_merge (existing : Metadata) (snapshot : PullRequestSnapshotInput) (k : String) :
    (mergeSnapshotMetadata existing snapshot).get? k =
      if k = "providerUpdatedAt" then
        (snapshot.providerUpdatedAt.map .number).or (existing.get? "providerUpdatedAt")
      else if k = "repositoryExternalId" then
        (snapshot.repositoryExternalId.map .string).or (existing.get? "repositoryExternalId")
      else if k = "headSha" then (snapshot.headSha.map .string).or (existing.get? "headSha")
      else if k = "repoName" then some (.string snapshot.repoName)
      else if k = "repoOwner" then some (.string snapshot.repoOwner)
      else if k = "base" then some (.string snapshot.baseBranch)
      else if k = "head" then some (.string snapshot.headBranch)
      else if k = "isDraft" then some (.bool snapshot.isDraft)
      else if k = "lifecycleState" then some (.string snapshot.lifecycleState.text)
      else if k = "state" then some (.string (toDisplayStatus snapshot))
      else if k = "number" then some (.number snapshot.number)
      else existing.get? k := by
  simp [mergeSnapshotMetadata, Metadata.get?_set, Metadata.get?_set?]

/-- **Unknown keys** are kept. -/
theorem get?_merge_unknown {existing : Metadata} {snapshot : PullRequestSnapshotInput} {k : String}
    (h : k ∉ mergedKeys) : (mergeSnapshotMetadata existing snapshot).get? k = existing.get? k := by
  simp only [mergedKeys, List.mem_cons, List.not_mem_nil, or_false, not_or] at h
  obtain ⟨h₁, h₂, h₃, h₄, h₅, h₆, h₇, h₈, h₉, h₁₀, h₁₁⟩ := h
  simp only [get?_merge, h₁, h₂, h₃, h₄, h₅, h₆, h₇, h₈, h₉, h₁₀, h₁₁, if_false]

theorem merge_providerUpdatedAt {existing : Metadata} {snapshot : PullRequestSnapshotInput} {t : Int}
    (h : snapshot.providerUpdatedAt = some t) :
    (mergeSnapshotMetadata existing snapshot).providerUpdatedAt = some t := by
  simp [Metadata.providerUpdatedAt, get?_merge, h]

theorem merge_draftOpen (existing : Metadata) (snapshot : PullRequestSnapshotInput) :
    (mergeSnapshotMetadata existing snapshot).DraftOpen := by
  intro h
  simp only [get?_merge, String.reduceEq, if_false, if_true, Option.some.injEq,
    MetadataValue.bool.injEq] at h
  simp [get?_merge, snapshot.draft_open h]

/-! ## The mirror write -/

variable {artifact : ArtifactRow} {snapshot : PullRequestSnapshotInput} {updatedAt : Int}

/-- Unless the snapshot is stale the artifact afterwards is the merge, also where nothing is
written. -/
theorem mirrorSnapshot_merged (h : staleFor artifact.properties snapshot = false) :
    (mirrorSnapshot artifact snapshot updatedAt).url = some snapshot.url ∧
      (mirrorSnapshot artifact snapshot updatedAt).properties =
        mergeSnapshotMetadata artifact.properties snapshot := by
  have hstale : staleFor (parsePullRequestArtifactMetadata artifact.metadata) snapshot = false := h
  unfold mirrorSnapshot preparePullRequestArtifactUpdate
  simp only [hstale, Bool.false_eq_true, if_false]
  split
  next prepared hprepared =>
    split at hprepared
    next => cases hprepared
    next =>
      cases hprepared
      exact ⟨rfl, rfl⟩
  next hnone =>
    split at hnone
    next hsame => exact ⟨hsame.1.symm, hsame.2.symm⟩
    next => cases hnone

theorem mirrorSnapshot_stale (h : staleFor artifact.properties snapshot = true) :
    mirrorSnapshot artifact snapshot updatedAt = artifact := by
  have hstale : staleFor (parsePullRequestArtifactMetadata artifact.metadata) snapshot = true := h
  simp [mirrorSnapshot, preparePullRequestArtifactUpdate, hstale]

theorem mirrorSnapshot_shows (h : staleFor artifact.properties snapshot = false) :
    (mirrorSnapshot artifact snapshot updatedAt).Shows snapshot.facts := by
  obtain ⟨hurl, hmerged⟩ := @mirrorSnapshot_merged artifact snapshot updatedAt h
  constructor
  · exact hurl
  all_goals
    rw [hmerged, get?_merge]
    rfl

/-- The timestamp after a mirror write is the greater of the two. -/
theorem mirrorSnapshot_providerUpdatedAt {t : Int} (ht : snapshot.providerUpdatedAt = some t) :
    (mirrorSnapshot artifact snapshot updatedAt).providerUpdatedAt =
      some (artifact.providerUpdatedAt.elim t fun stored => max stored t) := by
  cases hstale : staleFor artifact.properties snapshot with
  | true =>
    rw [mirrorSnapshot_stale hstale]
    unfold staleFor at hstale
    rw [ht] at hstale
    unfold ArtifactRow.providerUpdatedAt
    split at hstale
    next t' stored ht' hstored =>
      cases ht'
      rw [hstored]
      have hlt : t < stored := of_decide_eq_true hstale
      have hmax : stored = max stored t := by omega
      exact congrArg some hmax
    next => cases hstale
  | false =>
    unfold ArtifactRow.providerUpdatedAt
    rw [(mirrorSnapshot_merged hstale).2, merge_providerUpdatedAt ht]
    unfold staleFor at hstale
    rw [ht] at hstale
    cases hstored : artifact.properties.providerUpdatedAt with
    | none => rfl
    | some stored =>
      rw [hstored] at hstale
      have hle : ¬ t < stored := of_decide_eq_false hstale
      have hmax : t = max stored t := by omega
      exact congrArg some hmax

theorem mirrorSnapshot_unknown {k : String} (h : k ∉ mergedKeys) :
    (mirrorSnapshot artifact snapshot updatedAt).properties.get? k =
      artifact.properties.get? k := by
  cases hstale : staleFor artifact.properties snapshot with
  | true => rw [mirrorSnapshot_stale hstale]
  | false => rw [(mirrorSnapshot_merged hstale).2, get?_merge_unknown h]

theorem mirrorSnapshot_draftOpen (h : artifact.properties.DraftOpen) :
    (mirrorSnapshot artifact snapshot updatedAt).properties.DraftOpen := by
  cases hstale : staleFor artifact.properties snapshot with
  | true => rwa [mirrorSnapshot_stale hstale]
  | false =>
    rw [(mirrorSnapshot_merged hstale).2]
    exact merge_draftOpen _ _

/-! ## The upsert -/

theorem upsert_applied {stored : Option SessionPullRequestRecord}
    {record : SessionPullRequestRecord} (h : (upsert stored record).2 = true) :
    ∃ r, (upsert stored record).1 = some r ∧ r.facts = record.facts ∧
      r.repositoryExternalId = record.repositoryExternalId ∧
      r.providerUpdatedAt = record.providerUpdatedAt := by
  unfold upsert at h ⊢
  split at h
  next => exact ⟨record, rfl, rfl, rfl, rfl⟩
  next old =>
    split at h
    next haccepts =>
      rw [if_pos haccepts]
      exact ⟨_, rfl, rfl, rfl, rfl⟩
    next => cases h

/-- A record that is not applied leaves the stored one, which is strictly newer. -/
theorem upsert_rejected {stored : Option SessionPullRequestRecord}
    {record : SessionPullRequestRecord} {t : Int} (ht : record.providerUpdatedAt = some t)
    (h : (upsert stored record).2 = false) :
    (upsert stored record).1 = stored ∧
      ∃ r u, stored = some r ∧ r.providerUpdatedAt = some u ∧ t < u := by
  unfold upsert at h ⊢
  split at h
  next => cases h
  next old =>
    split at h
    next => cases h
    next haccepts =>
      rw [if_neg haccepts]
      unfold acceptsRecord at haccepts
      rw [ht] at haccepts
      cases hold : old.providerUpdatedAt with
      | none => simp [hold] at haccepts
      | some u =>
        rw [hold] at haccepts
        exact ⟨rfl, old, u, rfl, hold, Int.not_le.mp fun hle => haccepts (decide_eq_true hle)⟩

/-- An applied record is not older than the stored one. -/
theorem upsert_newer {stored record : SessionPullRequestRecord} {t u : Int}
    (ht : record.providerUpdatedAt = some t) (hu : stored.providerUpdatedAt = some u)
    (h : (upsert (some stored) record).2 = true) : u ≤ t := by
  simp only [upsert] at h
  split at h
  next haccepts =>
    unfold acceptsRecord at haccepts
    rw [ht, hu] at haccepts
    exact of_decide_eq_true haccepts
  next => cases h

end BackgroundAgents.PullRequests

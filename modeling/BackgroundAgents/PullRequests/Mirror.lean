import Mathlib.Algebra.Order.Ring.Int
import BackgroundAgents.Lib.Transition
import BackgroundAgents.Lib.Workers
import BackgroundAgents.PullRequests.Snapshot

/-!
# The record and the mirror of a pull request

Every freshness path applies a snapshot in one sequence: the upsert of the
record, an await, and, unless the record refused the snapshot as stale, the
mirror write (`applyPullRequestSnapshot`, `upsertRecordThenMirror` with the
snapshot push). A thrown upsert does not stop the mirror write. `applySystem`
interleaves any number of such calls at that await.

Timestamps never decrease, drafts stay open and unknown keys stay, whatever the
order (`Recorded`, `Advances`). That the two stores agree once all calls are
through (`Mirrored.agrees`) needs every step to be `Orderly`: snapshots of one
timestamp may be mirrored in another order than they were recorded in, and a
snapshot whose upsert failed may be ahead of one that the record takes later.
-/

namespace BackgroundAgents.PullRequests

open BackgroundAgents.Transition

/-- The provider's timestamp of a snapshot that carries one. -/
def stamp (snapshot : PullRequestSnapshotInput) : Int := snapshot.providerUpdatedAt.getD 0

/-- A call that applies a snapshot: before its upsert, or before its mirror write. -/
inductive ApplyCall where
  | upserting (snapshot : PullRequestSnapshotInput) (identity : RecordIdentity)
  | mirroring (snapshot : PullRequestSnapshotInput)
  deriving DecidableEq

def ApplyCall.snapshot : ApplyCall → PullRequestSnapshotInput
  | .upserting snapshot _ => snapshot
  | .mirroring snapshot => snapshot

/-- Both stores and the calls in progress. The rest is history: the snapshots delivered, the one
the record was last written from, those whose upsert failed, and whether one failed since. -/
structure World where
  artifact : Option ArtifactRow
  record : Option SessionPullRequestRecord
  calls : List ApplyCall
  delivered : List PullRequestSnapshotInput
  written : Option PullRequestSnapshotInput
  failed : List PullRequestSnapshotInput
  failedSince : Bool
  deriving DecidableEq

inductive Act where
  /-- A call for the artifact starts, with a snapshot that carries its timestamp. -/
  | start (snapshot : PullRequestSnapshotInput) (identity : RecordIdentity)
  /-- The upsert of a call takes place. -/
  | upserted (call : Nat)
  /-- The upsert of a call throws, without effect. -/
  | upsertFailed (call : Nat)
  /-- A call reads the artifact again and writes the mirror. -/
  | mirrored (call : Nat) (now : Int)

def step (w : World) : Act → Option World
  | .start snapshot identity =>
    if snapshot.providerUpdatedAt.isSome ∧ w.artifact.any (·.id = identity.artifactId) then
      some
        { w with
          calls := w.calls ++ [.upserting snapshot identity]
          delivered := snapshot :: w.delivered }
    else none
  | .upserted call =>
    match w.calls[call]? with
    | some (.upserting snapshot identity) =>
      let result := upsert w.record (snapshotToRecord snapshot identity)
      if result.2 then
        some
          { w with
            record := result.1
            calls := advance w.calls call (some (.mirroring snapshot))
            written := some snapshot
            failedSince := false }
      else
        -- `if (!applied) return`: a stale snapshot must never reach the mirror
        some { w with record := result.1, calls := advance w.calls call none }
    | _ => none
  | .upsertFailed call =>
    match w.calls[call]? with
    | some (.upserting snapshot _) =>
      some
        { w with
          calls := advance w.calls call (some (.mirroring snapshot))
          failed := snapshot :: w.failed
          failedSince := true }
    | _ => none
  | .mirrored call now =>
    match w.calls[call]? with
    | some (.mirroring snapshot) =>
      some
        { w with
          artifact := w.artifact.map (mirrorSnapshot · snapshot now)
          calls := advance w.calls call none }
    | _ => none

def applySystem : System World Act := ⟨step⟩

/-! ## Where the calls start from -/

/-- An artifact describes a snapshot: its facts, the repository's external id where the snapshot
carries one, and its timestamp. -/
structure ArtifactRow.Describes (artifact : ArtifactRow) (snapshot : PullRequestSnapshotInput) :
    Prop where
  shows : artifact.Shows snapshot.facts
  external : ∀ id, snapshot.repositoryExternalId = some id →
    artifact.repositoryExternalId = some (.string id)
  providerUpdatedAt : artifact.providerUpdatedAt = some (stamp snapshot)

/-- A record was written from a snapshot. -/
structure SessionPullRequestRecord.WrittenFrom (record : SessionPullRequestRecord)
    (snapshot : PullRequestSnapshotInput) : Prop where
  facts : record.facts = snapshot.facts
  external : record.repositoryExternalId = snapshot.repositoryExternalId
  providerUpdatedAt : record.providerUpdatedAt = snapshot.providerUpdatedAt

/-- An artifact from before pull requests were tracked, or one whose creation is through: its
snapshot is in the record, or the write of the record failed. -/
inductive Start : World → Prop where
  | untracked {artifact : ArtifactRow} (hstamp : artifact.providerUpdatedAt = none)
      (hdraft : artifact.properties.DraftOpen) :
    Start
      { artifact := some artifact, record := none, calls := [], delivered := [],
        written := none, failed := [], failedSince := false }
  | tracked {artifact : ArtifactRow} {record : SessionPullRequestRecord}
      {snapshot : PullRequestSnapshotInput} (hstamp : snapshot.providerUpdatedAt.isSome)
      (hartifact : artifact.Describes snapshot) (hrecord : record.WrittenFrom snapshot) :
    Start
      { artifact := some artifact, record := some record, calls := [], delivered := [snapshot],
        written := some snapshot, failed := [], failedSince := false }
  | unrecorded {artifact : ArtifactRow} {snapshot : PullRequestSnapshotInput}
      (hstamp : snapshot.providerUpdatedAt.isSome) (hartifact : artifact.Describes snapshot) :
    Start
      { artifact := some artifact, record := none, calls := [], delivered := [snapshot],
        written := none, failed := [snapshot], failedSince := true }

/-! ## The order of the steps -/

/-- Two snapshots say different things of the pull request. -/
def conflicting (s t : PullRequestSnapshotInput) : Bool :=
  s.facts ≠ t.facts ||
    s.repositoryExternalId.any fun x => t.repositoryExternalId.any fun y => x ≠ y

/-- The mirror write of a snapshot would undo that of the record's own snapshot, which has the same
timestamp and says something else: no other call mirrors the record's snapshot any more. -/
def overtaken (w : World) (call : Nat) (snapshot : PullRequestSnapshotInput) : Bool :=
  !w.failedSince && w.written.any fun latest =>
    stamp snapshot = stamp latest && conflicting snapshot latest &&
      !(w.calls.eraseIdx call).contains (.mirroring latest)

/-- What a step has to meet for the two stores to agree. An upsert that the record accepts is not
older than a snapshot whose upsert failed before; a mirror write does not come after that of a
snapshot that the record took later at the same timestamp. -/
def Orderly (w : World) : Act → Prop
  | .upserted call => ∀ snapshot identity, w.calls[call]? = some (.upserting snapshot identity) →
      (upsert w.record (snapshotToRecord snapshot identity)).2 = true →
      ∀ f ∈ w.failed, stamp f ≤ stamp snapshot
  | .mirrored call _ => ∀ snapshot, w.calls[call]? = some (.mirroring snapshot) →
      overtaken w call snapshot = false
  | _ => True

/-! ## What holds in any order -/

/-- Every snapshot carries its timestamp, and the record is the last one written. -/
structure Recorded (w : World) : Prop where
  artifact : ∃ a, w.artifact = some a ∧ a.properties.DraftOpen
  stamped : ∀ s ∈ w.delivered, s.providerUpdatedAt = some (stamp s)
  calls : ∀ c ∈ w.calls, c.snapshot ∈ w.delivered
  failed : ∀ s ∈ w.failed, s ∈ w.delivered
  unwritten : w.record = none → w.written = none
  written : ∀ r, w.record = some r →
    ∃ s ∈ w.delivered, w.written = some s ∧ r.WrittenFrom s

variable {w w' : World} {a : Act}

variable {s : PullRequestSnapshotInput}

theorem stamp_of_isSome (h : s.providerUpdatedAt.isSome) :
    s.providerUpdatedAt = some (stamp s) := by
  obtain ⟨t, ht⟩ := Option.isSome_iff_exists.mp h
  rw [stamp, ht]
  rfl

theorem ArtifactRow.Describes.draftOpen {artifact : ArtifactRow} (h : artifact.Describes s) :
    artifact.properties.DraftOpen := by
  intro hdraft
  rw [h.shows.isDraft] at hdraft
  have hopen : s.lifecycleState = .opened := s.draft_open (by simpa [PullRequestSnapshotInput.facts] using hdraft)
  rw [h.shows.lifecycleState]
  exact congrArg (fun state => some (MetadataValue.string state.text)) hopen

theorem Recorded.of_start (h : Start w) : Recorded w := by
  cases h with
  | untracked _ hdraft =>
    exact
      { artifact := ⟨_, rfl, hdraft⟩
        stamped := by simp
        calls := by simp
        failed := by simp
        unwritten := fun _ => rfl
        written := by simp }
  | tracked hstamp hartifact hrecord =>
    exact
      { artifact := ⟨_, rfl, hartifact.draftOpen⟩
        stamped := by simpa using stamp_of_isSome hstamp
        calls := by simp
        failed := by simp
        unwritten := by simp
        written := by
          intro r hr
          cases hr
          exact ⟨_, List.mem_singleton_self _, rfl, hrecord⟩ }
  | unrecorded hstamp hartifact =>
    exact
      { artifact := ⟨_, rfl, hartifact.draftOpen⟩
        stamped := by simpa using stamp_of_isSome hstamp
        calls := by simp
        failed := by simp
        unwritten := fun _ => rfl
        written := by simp }

/-- The steps of a call. -/
inductive Stepped (w : World) : Act → World → Prop where
  | start {snapshot : PullRequestSnapshotInput} {identity : RecordIdentity}
      (hstamp : snapshot.providerUpdatedAt.isSome) :
    Stepped w (.start snapshot identity)
      { w with
        calls := w.calls ++ [.upserting snapshot identity]
        delivered := snapshot :: w.delivered }
  | applied {call : Nat} {snapshot : PullRequestSnapshotInput} {identity : RecordIdentity}
      (hcall : w.calls[call]? = some (.upserting snapshot identity))
      (happlied : (upsert w.record (snapshotToRecord snapshot identity)).2 = true) :
    Stepped w (.upserted call)
      { w with
        record := (upsert w.record (snapshotToRecord snapshot identity)).1
        calls := advance w.calls call (some (.mirroring snapshot))
        written := some snapshot
        failedSince := false }
  | rejected {call : Nat} {snapshot : PullRequestSnapshotInput} {identity : RecordIdentity}
      (hcall : w.calls[call]? = some (.upserting snapshot identity))
      (happlied : (upsert w.record (snapshotToRecord snapshot identity)).2 = false) :
    Stepped w (.upserted call)
      { w with
        record := (upsert w.record (snapshotToRecord snapshot identity)).1
        calls := advance w.calls call none }
  | failed {call : Nat} {snapshot : PullRequestSnapshotInput} {identity : RecordIdentity}
      (hcall : w.calls[call]? = some (.upserting snapshot identity)) :
    Stepped w (.upsertFailed call)
      { w with
        calls := advance w.calls call (some (.mirroring snapshot))
        failed := snapshot :: w.failed
        failedSince := true }
  | mirrored {call : Nat} {snapshot : PullRequestSnapshotInput} {now : Int}
      (hcall : w.calls[call]? = some (.mirroring snapshot)) :
    Stepped w (.mirrored call now)
      { w with
        artifact := w.artifact.map (mirrorSnapshot · snapshot now)
        calls := advance w.calls call none }

theorem step_stepped (h : step w a = some w') : Stepped w a w' := by
  cases a with
  | start snapshot identity =>
    simp only [step] at h
    split at h
    next hstart =>
      cases h
      exact .start hstart.1
    next => cases h
  | upserted call =>
    simp only [step] at h
    split at h
    next snapshot identity hcall =>
      split at h
      next happlied =>
        cases h
        exact .applied hcall happlied
      next happlied =>
        cases h
        exact .rejected hcall (by simpa using happlied)
    next => cases h
  | upsertFailed call =>
    simp only [step] at h
    split at h
    next snapshot identity hcall =>
      cases h
      exact .failed hcall
    next => cases h
  | mirrored call now =>
    simp only [step] at h
    split at h
    next snapshot hcall =>
      cases h
      exact .mirrored hcall
    next => cases h

theorem snapshot_mem_of_call (h : Recorded w) {call : Nat} {c : ApplyCall}
    (hcall : w.calls[call]? = some c) : c.snapshot ∈ w.delivered :=
  h.calls c (List.mem_of_getElem? hcall)

/-- The calls after a step of one of them are still about delivered snapshots. -/
theorem calls_advance (h : Recorded w) {call : Nat} {next : Option ApplyCall} {c : ApplyCall}
    (hc : c ∈ advance w.calls call next) (hnext : ∀ c, next = some c → c.snapshot ∈ w.delivered) :
    c.snapshot ∈ w.delivered := by
  rcases mem_of_mem_advance hc with hc | hc
  · exact h.calls c hc
  · exact hnext c hc

theorem Recorded.stepped (h : Recorded w) (hstep : step w a = some w') : Recorded w' := by
  cases step_stepped hstep with
  | start hstamp =>
    refine ⟨h.artifact, ?_, ?_, ?_, h.unwritten, ?_⟩
    · intro s hs
      rcases List.mem_cons.mp hs with rfl | hs
      · exact stamp_of_isSome hstamp
      · exact h.stamped s hs
    · intro c hc
      rcases List.mem_append.mp hc with hc | hc
      · exact List.mem_cons_of_mem _ (h.calls c hc)
      · cases List.mem_singleton.mp hc
        exact List.mem_cons_self
    · intro s hs
      exact List.mem_cons_of_mem _ (h.failed s hs)
    · intro r hr
      obtain ⟨s, hs, hwritten⟩ := h.written r hr
      exact ⟨s, List.mem_cons_of_mem _ hs, hwritten⟩
  | @applied _ snapshot identity hcall happlied =>
    have hmem := snapshot_mem_of_call h hcall
    obtain ⟨r, hr, hfacts, hexternal, hstamp⟩ := upsert_applied happlied
    refine ⟨h.artifact, h.stamped, ?_, h.failed, ?_, ?_⟩
    · intro c hc
      dsimp only at hc
      refine calls_advance h hc ?_
      intro c hc
      cases hc
      exact hmem
    · intro hnone
      rw [hr] at hnone
      cases hnone
    · intro r' hr'
      rw [hr] at hr'
      cases hr'
      exact ⟨snapshot, hmem, rfl, hfacts, hexternal, hstamp⟩
  | rejected hcall happlied =>
    have hstamped := h.stamped _ (snapshot_mem_of_call h hcall)
    obtain ⟨hsame, -⟩ := upsert_rejected hstamped happlied
    refine ⟨h.artifact, h.stamped, ?_, h.failed, ?_, ?_⟩
    · intro c hc
      dsimp only at hc
      refine calls_advance h hc ?_
      intro c hc
      cases hc
    · rw [hsame]
      exact h.unwritten
    · rw [hsame]
      exact h.written
  | failed hcall =>
    have hmem := snapshot_mem_of_call h hcall
    refine ⟨h.artifact, h.stamped, ?_, ?_, h.unwritten, h.written⟩
    · intro c hc
      dsimp only at hc
      refine calls_advance h hc ?_
      intro c hc
      cases hc
      exact hmem
    · intro s hs
      rcases List.mem_cons.mp hs with rfl | hs
      · exact hmem
      · exact h.failed s hs
  | mirrored hcall =>
    obtain ⟨artifact, hartifact, hdraft⟩ := h.artifact
    refine ⟨⟨_, congrArg (Option.map _) hartifact, mirrorSnapshot_draftOpen hdraft⟩, h.stamped, ?_, h.failed,
      h.unwritten, h.written⟩
    intro c hc
    dsimp only at hc
    refine calls_advance h hc ?_
    intro c hc
    cases hc

/-- A step of the stores: no timestamp decreases, no unknown key is lost. -/
structure Advances (w w' : World) : Prop where
  artifact : ∀ x t, w.artifact = some x → x.providerUpdatedAt = some t →
    ∃ x' t', w'.artifact = some x' ∧ x'.providerUpdatedAt = some t' ∧ t ≤ t'
  record : ∀ r t, w.record = some r → r.providerUpdatedAt = some t →
    ∃ r' t', w'.record = some r' ∧ r'.providerUpdatedAt = some t' ∧ t ≤ t'
  unknown : ∀ x k v, w.artifact = some x → k ∉ mergedKeys → x.properties.get? k = some v →
    ∃ x', w'.artifact = some x' ∧ x'.properties.get? k = some v

theorem Recorded.advances (h : Recorded w) (hstep : step w a = some w') : Advances w w' := by
  -- a step leaves the artifact or is a mirror write, leaves the record or is an upsert
  have hartifact : ∀ x t, w.artifact = some x → x.providerUpdatedAt = some t →
      ∃ x' t', w.artifact = some x' ∧ x'.providerUpdatedAt = some t' ∧ t ≤ t' :=
    fun x t hx ht => ⟨x, t, hx, ht, le_refl t⟩
  have hrecord : ∀ r t, w.record = some r → r.providerUpdatedAt = some t →
      ∃ r' t', w.record = some r' ∧ r'.providerUpdatedAt = some t' ∧ t ≤ t' :=
    fun r t hr ht => ⟨r, t, hr, ht, le_refl t⟩
  have hunknown : ∀ x k v, w.artifact = some x → k ∉ mergedKeys → x.properties.get? k = some v →
      ∃ x', w.artifact = some x' ∧ x'.properties.get? k = some v :=
    fun x k v hx _ hv => ⟨x, hx, hv⟩
  cases step_stepped hstep with
  | start => exact ⟨hartifact, hrecord, hunknown⟩
  | failed => exact ⟨hartifact, hrecord, hunknown⟩
  | @applied _ snapshot identity hcall happlied =>
    have hstamped : snapshot.providerUpdatedAt = some (stamp snapshot) :=
      h.stamped _ (snapshot_mem_of_call h hcall)
    obtain ⟨r', hr', -, -, hstamp⟩ := upsert_applied happlied
    refine ⟨hartifact, ?_, hunknown⟩
    intro r t hr ht
    refine ⟨r', stamp snapshot, hr', hstamp.trans hstamped, ?_⟩
    rw [hr] at happlied
    exact upsert_newer hstamped ht happlied
  | rejected hcall happlied =>
    have hstamped := h.stamped _ (snapshot_mem_of_call h hcall)
    obtain ⟨hsame, -⟩ := upsert_rejected hstamped happlied
    refine ⟨hartifact, ?_, hunknown⟩
    rw [hsame]
    exact hrecord
  | @mirrored _ snapshot now hcall =>
    have hstamped : snapshot.providerUpdatedAt = some (stamp snapshot) :=
      h.stamped _ (snapshot_mem_of_call h hcall)
    refine ⟨?_, hrecord, ?_⟩
    · intro x t hx ht
      refine ⟨mirrorSnapshot x snapshot now, max t (stamp snapshot), by simp [hx], ?_,
        le_max_left _ _⟩
      rw [mirrorSnapshot_providerUpdatedAt hstamped, ht]
      rfl
    · intro x k v hx hk hv
      refine ⟨mirrorSnapshot x snapshot now, by simp [hx], ?_⟩
      rw [mirrorSnapshot_unknown hk, hv]

/-! ## What holds when the steps are orderly -/

/-- A timestamp that the record has reached, or that of an upsert that failed. -/
def Known (failed : List PullRequestSnapshotInput) (written : Option PullRequestSnapshotInput)
    (t : Int) : Prop :=
  (∃ s ∈ failed, t ≤ stamp s) ∨ ∃ latest, written = some latest ∧ t ≤ stamp latest

/-- The mirror follows the record. What was mirrored or passed its upsert is known; unless an
upsert failed since, the record is ahead of the failed ones, and its snapshot is in the mirror or
on its way there. -/
structure Mirrored (w : World) : Prop where
  artifact_known : ∀ x t, w.artifact = some x → x.providerUpdatedAt = some t →
    Known w.failed w.written t
  mirroring_known : ∀ s, .mirroring s ∈ w.calls → Known w.failed w.written (stamp s)
  delivered_known : ∀ s ∈ w.delivered,
    Known w.failed w.written (stamp s) ∨ ∃ identity, .upserting s identity ∈ w.calls
  failed_le : w.failedSince = false → ∀ latest, w.written = some latest →
    ∀ s ∈ w.failed, stamp s ≤ stamp latest
  mirror : w.failedSince = false → ∀ latest, w.written = some latest →
    .mirroring latest ∈ w.calls ∨ ∃ x, w.artifact = some x ∧ x.Describes latest

theorem Mirrored.of_start (h : Start w) : Mirrored w := by
  cases h with
  | untracked hstamp =>
    refine ⟨?_, by simp, by simp, by simp, by simp⟩
    intro x t hx ht
    cases hx
    rw [hstamp] at ht
    cases ht
  | @tracked artifact record snapshot _ hartifact _ =>
    refine ⟨?_, by simp, ?_, by simp, ?_⟩
    · intro x t hx ht
      cases hx
      rw [hartifact.providerUpdatedAt] at ht
      cases ht
      exact .inr ⟨snapshot, rfl, le_refl _⟩
    · intro s hs
      obtain rfl := List.mem_singleton.mp hs
      exact .inl (.inr ⟨s, rfl, le_refl _⟩)
    · intro _ latest hlatest
      cases hlatest
      exact .inr ⟨artifact, rfl, hartifact⟩
  | @unrecorded artifact snapshot _ hartifact =>
    refine ⟨?_, by simp, ?_, by simp, by simp⟩
    · intro x t hx ht
      cases hx
      rw [hartifact.providerUpdatedAt] at ht
      cases ht
      exact .inl ⟨snapshot, List.mem_singleton_self _, le_refl _⟩
    · intro s hs
      obtain rfl := List.mem_singleton.mp hs
      exact .inl (.inl ⟨s, List.mem_singleton_self _, le_refl _⟩)

/-- What is known stays known. -/
theorem Known.mono {failed failed' : List PullRequestSnapshotInput}
    {written written' : Option PullRequestSnapshotInput} {t : Int} (h : Known failed written t)
    (hfailed : ∀ s ∈ failed, s ∈ failed')
    (hwritten : ∀ s, written = some s → ∃ s', written' = some s' ∧ stamp s ≤ stamp s') :
    Known failed' written' t := by
  rcases h with ⟨s, hs, ht⟩ | ⟨s, hs, ht⟩
  · exact .inl ⟨s, hfailed s hs, ht⟩
  · obtain ⟨s', hs', hle⟩ := hwritten s hs
    exact .inr ⟨s', hs', ht.trans hle⟩

/-- While no upsert failed since, what is known is not ahead of the record. -/
theorem Mirrored.known_le (h : Mirrored w) (hsince : w.failedSince = false)
    {latest : PullRequestSnapshotInput} (hlatest : w.written = some latest) {t : Int}
    (ht : Known w.failed w.written t) : t ≤ stamp latest := by
  rcases ht with ⟨s, hs, ht⟩ | ⟨s, hs, ht⟩
  · exact ht.trans (h.failed_le hsince latest hlatest s hs)
  · rw [hlatest] at hs
    cases hs
    exact ht

/-- Where a delivered snapshot is after a step of a call. -/
theorem delivered_advance {call : Nat} (next : Option ApplyCall) {c : ApplyCall}
    (hcall : w.calls[call]? = some c) (h : ∃ identity, .upserting s identity ∈ w.calls) :
    c.snapshot = s ∨ ∃ identity, .upserting s identity ∈ advance w.calls call next := by
  obtain ⟨identity, hmem⟩ := h
  rcases mem_advance_of_mem (o := next) hcall hmem with heq | hmem
  · left
    rw [← heq]
    rfl
  · exact .inr ⟨identity, hmem⟩

/-- A mirror write over an artifact that is not ahead leaves it describing the snapshot. -/
theorem describes_of_mirror {x : ArtifactRow} {s : PullRequestSnapshotInput} {now : Int}
    (hstamped : s.providerUpdatedAt = some (stamp s))
    (hle : ∀ t, x.providerUpdatedAt = some t → t ≤ stamp s) :
    (mirrorSnapshot x s now).Describes s := by
  have hstale : staleFor x.properties s = false := by
    unfold staleFor
    rw [hstamped]
    cases hx : x.properties.providerUpdatedAt with
    | none => rfl
    | some t => exact decide_eq_false (Int.not_lt.mpr (hle t hx))
  refine ⟨mirrorSnapshot_shows hstale, ?_, ?_⟩
  · intro id hid
    unfold ArtifactRow.repositoryExternalId
    rw [(mirrorSnapshot_merged hstale).2, get?_merge, hid]
    rfl
  · unfold ArtifactRow.providerUpdatedAt
    rw [(mirrorSnapshot_merged hstale).2, merge_providerUpdatedAt hstamped]

/-- A snapshot of the same timestamp that does not conflict leaves the artifact describing what
it did. -/
theorem describes_of_tie {x : ArtifactRow} {s latest : PullRequestSnapshotInput} {now : Int}
    (hstamped : s.providerUpdatedAt = some (stamp s)) (h : x.Describes latest)
    (hstamp : stamp s = stamp latest) (hagree : conflicting s latest = false) :
    (mirrorSnapshot x s now).Describes latest := by
  have hle : ∀ t, x.providerUpdatedAt = some t → t ≤ stamp s := by
    intro t ht
    rw [h.providerUpdatedAt] at ht
    cases ht
    exact hstamp.ge
  have hs := @describes_of_mirror x s now hstamped hle
  obtain ⟨hfacts, hexternal⟩ := Bool.or_eq_false_iff.mp hagree
  have hfacts : s.facts = latest.facts := by simpa using hfacts
  refine ⟨hfacts ▸ hs.shows, ?_, hstamp ▸ hs.providerUpdatedAt⟩
  intro id hid
  cases hsid : s.repositoryExternalId with
  | some y =>
    rw [hsid, hid] at hexternal
    have hsame : y = id := by simpa using hexternal
    rw [hs.external y hsid, hsame]
  | none =>
    -- the merge keeps the id that is there
    have hstale : staleFor x.properties s = false := by
      unfold staleFor
      rw [hstamped]
      cases hx : x.properties.providerUpdatedAt with
      | none => rfl
      | some t => exact decide_eq_false (Int.not_lt.mpr (hle t hx))
    have hkept := h.external id hid
    unfold ArtifactRow.repositoryExternalId at hkept ⊢
    rw [(mirrorSnapshot_merged hstale).2, get?_merge, hsid]
    exact hkept

theorem describes_of_older {x : ArtifactRow} {s latest : PullRequestSnapshotInput} {now : Int}
    (hstamped : s.providerUpdatedAt = some (stamp s)) (h : x.Describes latest)
    (hlt : stamp s < stamp latest) : (mirrorSnapshot x s now).Describes latest := by
  have hstamp : x.properties.providerUpdatedAt = some (stamp latest) := h.providerUpdatedAt
  have hstale : staleFor x.properties s = true := by
    unfold staleFor
    rw [hstamped, hstamp]
    exact decide_eq_true hlt
  rwa [mirrorSnapshot_stale hstale]

theorem Mirrored.mirrored (h : Mirrored w) (hrecorded : Recorded w) {call : Nat} {now : Int}
    (hcall : w.calls[call]? = some (.mirroring s)) (horder : overtaken w call s = false) :
    w.failedSince = false → ∀ latest, w.written = some latest →
      .mirroring latest ∈ advance w.calls call none ∨
        ∃ x, w.artifact.map (mirrorSnapshot · s now) = some x ∧ x.Describes latest := by
  intro hsince latest hlatest
  have hstamped : s.providerUpdatedAt = some (stamp s) :=
    hrecorded.stamped _ (snapshot_mem_of_call hrecorded hcall)
  obtain ⟨x, hx, -⟩ := hrecorded.artifact
  have hle : stamp s ≤ stamp latest :=
    h.known_le hsince hlatest (h.mirroring_known s (List.mem_of_getElem? hcall))
  have hxle : ∀ t, x.providerUpdatedAt = some t → t ≤ stamp latest :=
    fun t ht => h.known_le hsince hlatest (h.artifact_known x t hx ht)
  by_cases hother : .mirroring latest ∈ advance w.calls call none
  · exact .inl hother
  · right
    refine ⟨mirrorSnapshot x s now, by rw [hx]; rfl, ?_⟩
    rcases h.mirror hsince latest hlatest with hmem | ⟨y, hy, hdescribes⟩
    · -- the record's snapshot was on its way, and no other call carries it: this one does
      rcases mem_advance_of_mem (o := none) hcall hmem with heq | hmem
      · cases heq
        exact describes_of_mirror hstamped hxle
      · exact absurd hmem hother
    · rw [hx] at hy
      cases hy
      rcases hle.lt_or_eq with hlt | heq
      · exact describes_of_older hstamped hdescribes hlt
      · refine describes_of_tie hstamped hdescribes heq ?_
        have hgone : .mirroring latest ∉ w.calls.eraseIdx call := hother
        simpa [overtaken, hsince, hlatest, heq, hgone] using horder

theorem Mirrored.stepped (h : Mirrored w) (hrecorded : Recorded w) (horder : Orderly w a)
    (hstep : step w a = some w') : Mirrored w' := by
  have hkept : ∀ s, w.written = some s → ∃ s', w.written = some s' ∧ stamp s ≤ stamp s' :=
    fun s hs => ⟨s, hs, le_refl _⟩
  cases step_stepped hstep with
  | @start snapshot identity hstamp =>
    refine ⟨h.artifact_known, ?_, ?_, h.failed_le, ?_⟩
    · intro s hs
      rcases List.mem_append.mp hs with hs | hs
      · exact h.mirroring_known s hs
      · cases List.mem_singleton.mp hs
    · intro s hs
      rcases List.mem_cons.mp hs with rfl | hs
      · exact .inr ⟨identity, List.mem_append_right _ (List.mem_singleton_self _)⟩
      · rcases h.delivered_known s hs with hknown | ⟨i, hmem⟩
        · exact .inl hknown
        · exact .inr ⟨i, List.mem_append_left _ hmem⟩
    · intro hsince latest hlatest
      rcases h.mirror hsince latest hlatest with hmem | hdescribes
      · exact .inl (List.mem_append_left _ hmem)
      · exact .inr hdescribes
  | @applied call snapshot identity hcall happlied =>
    have hstamped : snapshot.providerUpdatedAt = some (stamp snapshot) :=
      hrecorded.stamped _ (snapshot_mem_of_call hrecorded hcall)
    have hwritten : ∀ s, w.written = some s →
        ∃ s', some snapshot = some s' ∧ stamp s ≤ stamp s' := by
      intro s hs
      refine ⟨snapshot, rfl, ?_⟩
      cases hrecord : w.record with
      | none =>
        rw [hrecorded.unwritten hrecord] at hs
        cases hs
      | some r =>
        obtain ⟨s', hs', hwritten, hfrom⟩ := hrecorded.written r hrecord
        rw [hwritten] at hs
        cases hs
        rw [hrecord] at happlied
        exact upsert_newer hstamped (hfrom.providerUpdatedAt.trans (hrecorded.stamped s hs'))
          happlied
    have hnew : Known w.failed (some snapshot) (stamp snapshot) :=
      .inr ⟨snapshot, rfl, le_refl _⟩
    refine ⟨?_, ?_, ?_, ?_, ?_⟩
    · intro x t hx ht
      exact (h.artifact_known x t hx ht).mono (fun s hs => hs) hwritten
    · intro s hs
      dsimp only at hs
      rcases mem_of_mem_advance hs with hs | hs
      · exact (h.mirroring_known s hs).mono (fun s hs => hs) hwritten
      · cases hs
        exact hnew
    · intro s hs
      rcases h.delivered_known s hs with hknown | hmem
      · exact .inl (hknown.mono (fun s hs => hs) hwritten)
      · rcases delivered_advance (some (.mirroring snapshot)) hcall hmem with rfl | hmem
        · exact .inl hnew
        · exact .inr hmem
    · intro _ latest hlatest
      cases hlatest
      exact horder snapshot identity hcall happlied
    · intro _ latest hlatest
      cases hlatest
      exact .inl (mem_advance_self hcall)
  | @rejected call snapshot identity hcall happlied =>
    have hstamped : snapshot.providerUpdatedAt = some (stamp snapshot) :=
      hrecorded.stamped _ (snapshot_mem_of_call hrecorded hcall)
    obtain ⟨-, r, u, hr, hu, hlt⟩ := upsert_rejected hstamped happlied
    refine ⟨h.artifact_known, ?_, ?_, h.failed_le, ?_⟩
    · intro s hs
      exact h.mirroring_known s (advance_subset_of_none hs)
    · intro s hs
      rcases h.delivered_known s hs with hknown | hmem
      · exact .inl hknown
      · rcases delivered_advance none hcall hmem with rfl | hmem
        · obtain ⟨latest, hmem, hlatest, hfrom⟩ := hrecorded.written r hr
          rw [hfrom.providerUpdatedAt, hrecorded.stamped latest hmem] at hu
          cases hu
          exact .inl (.inr ⟨latest, hlatest, hlt.le⟩)
        · exact .inr hmem
    · intro hsince latest hlatest
      rcases h.mirror hsince latest hlatest with hmem | hdescribes
      · rcases mem_advance_of_mem (o := none) hcall hmem with heq | hmem
        · cases heq
        · exact .inl hmem
      · exact .inr hdescribes
  | @failed call snapshot identity hcall =>
    have hmore : ∀ s ∈ w.failed, s ∈ snapshot :: w.failed :=
      fun s hs => List.mem_cons_of_mem _ hs
    have hnew : Known (snapshot :: w.failed) w.written (stamp snapshot) :=
      .inl ⟨snapshot, List.mem_cons_self, le_refl _⟩
    refine ⟨?_, ?_, ?_, by simp, by simp⟩
    · intro x t hx ht
      exact (h.artifact_known x t hx ht).mono hmore hkept
    · intro s hs
      dsimp only at hs
      rcases mem_of_mem_advance hs with hs | hs
      · exact (h.mirroring_known s hs).mono hmore hkept
      · cases hs
        exact hnew
    · intro s hs
      rcases h.delivered_known s hs with hknown | hmem
      · exact .inl (hknown.mono hmore hkept)
      · rcases delivered_advance (some (.mirroring snapshot)) hcall hmem with rfl | hmem
        · exact .inl hnew
        · exact .inr hmem
  | @mirrored call snapshot now hcall =>
    have hstamped : snapshot.providerUpdatedAt = some (stamp snapshot) :=
      hrecorded.stamped _ (snapshot_mem_of_call hrecorded hcall)
    have hknown := h.mirroring_known snapshot (List.mem_of_getElem? hcall)
    refine ⟨?_, ?_, ?_, h.failed_le, h.mirrored hrecorded hcall (horder snapshot hcall)⟩
    · intro x t hx ht
      obtain ⟨y, hy, rfl⟩ := Option.map_eq_some_iff.mp hx
      rw [mirrorSnapshot_providerUpdatedAt hstamped] at ht
      cases hold : y.providerUpdatedAt with
      | none =>
        rw [hold] at ht
        cases ht
        exact hknown
      | some u =>
        rw [hold] at ht
        cases ht
        rcases le_total u (stamp snapshot) with hle | hle
        · rwa [Option.elim, max_eq_right hle]
        · rw [Option.elim, max_eq_left hle]
          exact h.artifact_known y u hy hold
    · intro s hs
      exact h.mirroring_known s (advance_subset_of_none hs)
    · intro s hs
      rcases h.delivered_known s hs with hs | hmem
      · exact .inl hs
      · rcases delivered_advance none hcall hmem with rfl | hmem
        · exact .inl hknown
        · exact .inr hmem

/-! ## The two stores agree -/

/-- The artifact and the record describe one delivered snapshot, and none delivered is newer. -/
def Agree (w : World) : Prop :=
  ∃ x r s, w.artifact = some x ∧ w.record = some r ∧ s ∈ w.delivered ∧
    x.Describes s ∧ r.WrittenFrom s ∧ ∀ d ∈ w.delivered, stamp d ≤ stamp s

theorem Mirrored.agrees (h : Mirrored w) (hrecorded : Recorded w) (hcalls : w.calls = [])
    (hsince : w.failedSince = false) (hrecord : w.record.isSome) : Agree w := by
  obtain ⟨r, hr⟩ := Option.isSome_iff_exists.mp hrecord
  obtain ⟨s, hs, hwritten, hfrom⟩ := hrecorded.written r hr
  rcases h.mirror hsince s hwritten with hmem | ⟨x, hx, hdescribes⟩
  · rw [hcalls] at hmem
    cases hmem
  · refine ⟨x, r, s, hx, hr, hs, hdescribes, hfrom, ?_⟩
    intro d hd
    rcases h.delivered_known d hd with hknown | ⟨identity, hmem⟩
    · exact h.known_le hsince hwritten hknown
    · rw [hcalls] at hmem
      cases hmem

/-- A record's draft is open. -/
theorem Recorded.record_draft (h : Recorded w) {r : SessionPullRequestRecord}
    (hr : w.record = some r) (hdraft : r.isDraft = true) : r.lifecycleState = .opened := by
  obtain ⟨s, -, -, hfrom⟩ := h.written r hr
  have hsdraft : s.isDraft = true := (congrArg Facts.isDraft hfrom.facts).symm.trans hdraft
  exact (congrArg Facts.lifecycleState hfrom.facts).trans (s.draft_open hsdraft)

/-- **The mirror and the record converge** in every run whose steps are orderly. In every run
timestamps do not decrease, drafts are open and unknown keys stay. -/
theorem mirror_converges {w₀ : World} (hstart : Start w₀) :
    (∀ w, applySystem.Reachable anyStep w₀ w →
      (∀ x, w.artifact = some x → x.properties.DraftOpen) ∧
      (∀ r, w.record = some r → r.isDraft = true → r.lifecycleState = .opened) ∧
      ∀ a w', applySystem.step w a = some w' → Advances w w') ∧
    ∀ w, applySystem.Reachable Orderly w₀ w → w.calls = [] → w.failedSince = false →
      w.record.isSome → Agree w := by
  refine ⟨?_, ?_⟩
  · intro w hreach
    have hrecorded : Recorded w :=
      hreach.inv Recorded (.of_start hstart) fun _ _ _ h _ hstep => h.stepped hstep
    refine ⟨?_, fun r hr => hrecorded.record_draft hr, fun a w' hstep => hrecorded.advances hstep⟩
    intro x hx
    obtain ⟨y, hy, hdraft⟩ := hrecorded.artifact
    rw [hx] at hy
    cases hy
    exact hdraft
  · intro w hreach hcalls hsince hrecord
    obtain ⟨hrecorded, hmirrored⟩ : Recorded w ∧ Mirrored w :=
      hreach.inv (fun w => Recorded w ∧ Mirrored w) ⟨.of_start hstart, .of_start hstart⟩
        fun _ _ _ h horder hstep => ⟨h.1.stepped hstep, h.2.stepped h.1 horder hstep⟩
    exact hmirrored.agrees hrecorded hcalls hsince hrecord

/-! ## Two runs -/

/-- A pull request as it is after its creation, on a branch. -/
def sampleSnapshot (head : String) (updatedAt : Int) : PullRequestSnapshotInput :=
  { number := 7
    url := "https://example.test/pull/7"
    lifecycleState := .opened
    isDraft := false
    headBranch := head
    baseBranch := "main"
    headSha := none
    repoOwner := "acme"
    repoName := "api"
    repositoryExternalId := some "42"
    providerCreatedAt := none
    providerUpdatedAt := some updatedAt
    mergedAt := none
    closedAt := none
    draft_open := fun _ => rfl }

def sampleIdentity : RecordIdentity :=
  { artifactId := "artifact", sessionId := "session", createdAt := 1, updatedAt := 1 }

def sampleArtifact : ArtifactRow :=
  { id := "artifact"
    url := some "https://example.test/pull/7"
    metadata := some (mergeSnapshotMetadata [("note", .string "kept")] (sampleSnapshot "feature" 1))
    created_at := 1
    updated_at := 1 }

def sampleWorld : World :=
  { artifact := some sampleArtifact
    record := some (snapshotToRecord (sampleSnapshot "feature" 1) sampleIdentity)
    calls := []
    delivered := [sampleSnapshot "feature" 1]
    written := some (sampleSnapshot "feature" 1)
    failed := []
    failedSince := false }

theorem sampleWorld_start : Start sampleWorld :=
  .tracked rfl ⟨⟨rfl, rfl, rfl, rfl, rfl, rfl, rfl⟩, fun _ h => by cases h; rfl, rfl⟩ ⟨rfl, rfl, rfl⟩

/-- A newer snapshot is recorded and mirrored. -/
theorem mirror_converges_renamed :
    ∃ w, applySystem.Reachable Orderly sampleWorld w ∧
      w.record.any (·.headBranch = "renamed") = true ∧ Agree w := by
  have hstarted : applySystem.Reachable Orderly sampleWorld _ :=
    .step (a := .start (sampleSnapshot "renamed" 2) sampleIdentity) .refl (by exact trivial) rfl
  have hrecorded : applySystem.Reachable Orderly sampleWorld _ :=
    .step (a := .upserted 0) hstarted (by intro _ _ _ _ f hf; cases hf) rfl
  have hmirrored : applySystem.Reachable Orderly sampleWorld _ :=
    .step (a := .mirrored 0 2) hrecorded (by intro s hs; cases hs; rfl) rfl
  exact ⟨_, hmirrored, rfl, (mirror_converges sampleWorld_start).2 _ hmirrored rfl rfl rfl⟩

/-- **The mirror can keep what the record does not say.** Two snapshots of one timestamp: the
record takes the first and then the second, the mirror the second and then the first. -/
theorem mirror_diverges :
    ∃ w, applySystem.Reachable anyStep sampleWorld w ∧ w.calls = [] ∧ w.failedSince = false ∧
      w.record.isSome ∧ ¬ Agree w := by
  have hrun : (applySystem.run anyStep sampleWorld
      [.start (sampleSnapshot "first" 2) sampleIdentity,
        .start (sampleSnapshot "second" 2) sampleIdentity, .upserted 0, .upserted 1,
        .mirrored 1 3, .mirrored 0 3]).any (fun w =>
          w.calls = [] ∧ w.failedSince = false ∧ w.record.isSome ∧
            w.record.all (·.headBranch = "second") ∧
            w.artifact.all fun x => x.properties.get? "head" = some (.string "first")) = true := by
    decide +kernel
  obtain ⟨w, hw, hstate⟩ := (Option.any_eq_true _ _).mp hrun
  obtain ⟨hcalls, hsince, hsome, hrecord, hartifact⟩ := of_decide_eq_true hstate
  refine ⟨w, System.run_reachable hw, hcalls, hsince, hsome, ?_⟩
  rintro ⟨x, r, s, hx, hr, -, hdescribes, hfrom, -⟩
  rw [hx] at hartifact
  rw [hr] at hrecord
  have hhead : s.facts.headBranch = "second" := by
    rw [← hfrom.facts]
    simpa [SessionPullRequestRecord.facts] using hrecord
  have hshown := hdescribes.shows.headBranch
  rw [hhead] at hshown
  have hfirst : x.properties.get? "head" = some (.string "first") := by simpa using hartifact
  rw [hfirst] at hshown
  simp at hshown

end BackgroundAgents.PullRequests

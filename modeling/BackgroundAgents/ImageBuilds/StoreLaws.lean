import BackgroundAgents.ImageBuilds.Store

/-!
# What the image-build writes do to a row

Every write is read through `get?`: `Write.get?_run` says what it leaves under an
id, which is `Write.row` of the row that was there or the row it adds. The rest of
the module says, once for all writes (`StoreOp`), what `Write.row` can do: a row
keeps its build (`SameBuild`), its status moves forward (`StatusStep`), its
completion is written once and by an accepting statement (`row_completion`), it
becomes ready by a `markReady` alone (`row_ready`), and it is removed only when it
owes nothing (`removes_free`). No later proof looks at a single statement's columns
for these.
-/

namespace BackgroundAgents.ImageBuilds

variable {t : ImageBuildTable} {w : Write} {op : StoreOp} {r r' : ImageBuildRow}

/-! ## Writes on tables -/

theorem Write.row_of_touches (h : w.touches t r = true) (hr : w.removes (w.set r) = false) :
    w.row t r = some (w.set r) := by
  simp [Write.row, h, hr]

/-- A write rewrites a row or leaves it. -/
theorem Write.row_eq (h : w.row t r = some r') :
    (w.touches t r = true ∧ r' = w.set r) ∨ (w.touches t r = false ∧ r' = r) := by
  unfold Write.row at h
  cases ht : w.touches t r with
  | true =>
    simp only [ht, if_true, ite_eq_iff] at h
    simp_all
  | false =>
    simp only [ht, Bool.false_eq_true, if_false, ite_eq_iff] at h
    simp_all

theorem Write.row_id (h : w.row t r = some r') : r'.id = r.id := by
  rcases w.row_eq h with ⟨_, rfl⟩ | ⟨_, rfl⟩
  · exact w.keeps r
  · rfl

theorem Write.get?_swept (w : Write) (t : ImageBuildTable) (id : BuildId) :
    ((t.update (w.touches t) w.set w.keeps).delete w.removes).get? id =
      (t.get? id).bind (w.row t) := by
  rw [Table.get?_delete]
  have hu : (t.update (w.touches t) w.set w.keeps).get? id =
      (t.get? id).map fun r => if w.touches t r then w.set r else r := by
    exact Table.get?_update ..
  rw [hu]
  cases t.get? id with
  | none => rfl
  | some r =>
    simp only [Option.map_some, Option.filter, Option.bind_some, Write.row]
    by_cases hr : w.removes (if w.touches t r then w.set r else r) = true
    · simp [hr]
    · simp [hr]

/-- **What a write leaves under an id.** -/
theorem Write.get?_run (w : Write) (t : ImageBuildTable) (id : BuildId) :
    (w.run t).get? id =
      ((t.get? id).bind (w.row t)).or ((w.adds t).filter fun row => row.id = id) := by
  unfold Write.run
  cases ha : w.adds t with
  | none => simp [w.get?_swept]
  | some row =>
    simp only
    cases hi : ((t.update (w.touches t) w.set w.keeps).delete w.removes).insert? row with
    | none =>
      obtain ⟨x, hx⟩ := Table.insert?_eq_none.mp hi
      simp only [Option.getD_none, w.get?_swept]
      by_cases hid : row.id = id
      · rw [w.get?_swept, hid] at hx
        simp [hx]
      · simp [Option.filter, hid]
    | some t' =>
      simp only [Option.getD_some, Table.get?_insert? hi]
      by_cases hid : row.id = id
      · have hnone := Table.get?_of_insert? hi
        rw [w.get?_swept, hid] at hnone
        simp [hid, hnone, Option.filter]
      · simp [w.get?_swept, Option.filter, hid]

/-- Where a row of the written table comes from. -/
theorem Write.of_mem_run {x : ImageBuildRow} (h : x ∈ (w.run t).rows) :
    (∃ r ∈ t.rows, w.row t r = some x) ∨
      (w.adds t = some x ∧ (t.get? x.id).bind (w.row t) = none) := by
  rw [Table.mem_rows_iff, w.get?_run, Option.or_eq_some_iff] at h
  rcases h with h | ⟨hnone, h⟩
  · obtain ⟨r, hr, hx⟩ := Option.bind_eq_some_iff.mp h
    exact .inl ⟨r, Table.mem_of_get? hr, hx⟩
  · exact .inr ⟨Option.eq_some_of_filter_eq_some h, hnone⟩

theorem Write.mem_run_of_row {x : ImageBuildRow} (hr : r ∈ t.rows) (h : w.row t r = some x) :
    x ∈ (w.run t).rows := by
  rw [Table.mem_rows_iff, w.get?_run, Write.row_id h, Table.mem_rows_iff.mp hr]
  simp [h]

theorem Write.changes_iff (hadd : w.adds t = none) (hrem : ∀ r, w.removes r = false) :
    w.changes t = true ↔ ∃ r ∈ t.rows, w.touches t r = true := by
  simp [Write.changes, hadd, hrem]

/-- A write without effect leaves the table. -/
theorem Write.run_of_not_changes (h : w.changes t = false) : w.run t = t := by
  simp only [Write.changes, Bool.or_eq_false_iff, Option.isSome_eq_false_iff,
    Option.isNone_iff_eq_none, List.any_eq_false, Bool.not_eq_true] at h
  obtain ⟨hadd, hrows⟩ := h
  have hu : t.update (w.touches t) w.set w.keeps = t :=
    Table.update_of_none fun r hr => (hrows r hr).1
  have hd : t.rows.filter (fun r => !w.removes r) = t.rows :=
    List.filter_eq_self.mpr fun r hr => by simp [(hrows r hr).2]
  simp only [Write.run, hadd, hu]
  cases t
  simp only [Table.delete, Table.mk.injEq]
  exact hd

/-! ## What a statement can do to a row -/

/-- The columns that are written when the build is registered. -/
structure SameBuild (r r' : ImageBuildRow) : Prop where
  id : r'.id = r.id
  scope : r'.scope = r.scope
  provider : r'.provider = r.provider
  createdAt : r'.createdAt = r.createdAt
  tokenHash : r'.callbackTokenHash = r.callbackTokenHash
  tokenExpiresAt : r'.callbackTokenExpiresAt = r.callbackTokenExpiresAt

theorem SameBuild.refl (r : ImageBuildRow) : SameBuild r r :=
  ⟨rfl, rfl, rfl, rfl, rfl, rfl⟩

/-- The moves of `status`. -/
inductive StatusStep : ImageBuildStatus → ImageBuildStatus → Prop where
  | stay (s : ImageBuildStatus) : StatusStep s s
  | buildingReady : StatusStep .building .ready
  | buildingFailed : StatusStep .building .failed
  | buildingSuperseded : StatusStep .building .superseded
  | readyFailed : StatusStep .ready .failed
  | readySuperseded : StatusStep .ready .superseded

theorem StoreOp.row_build (h : op.write.row t r = some r') : SameBuild r r' := by
  rcases op.write.row_eq h with ⟨_, rfl⟩ | ⟨_, rfl⟩
  · cases op with
    | markReady call stage => cases stage <;> exact ⟨rfl, rfl, rfl, rfl, rfl, rfl⟩
    | _ => exact ⟨rfl, rfl, rfl, rfl, rfl, rfl⟩
  · exact .refl _

theorem StoreOp.row_status (h : op.write.row t r = some r') : StatusStep r.status r'.status := by
  rcases op.write.row_eq h with ⟨ht, rfl⟩ | ⟨_, rfl⟩
  · cases op with
    | markBuildFailed id p e =>
      have hb : r.status = .building := by
        simp only [write, ImageBuilds.markBuildFailed, decide_eq_true_eq] at ht
        exact ht.2.2.1
      rw [hb]
      exact .buildingFailed
    | markRestoreFailed id e =>
      have hr : r.status = .ready := by
        simp only [write, ImageBuilds.markRestoreFailed, decide_eq_true_eq] at ht
        exact ht.2
      rw [hr]
      exact .readyFailed
    | supersedeActiveImages scope =>
      have ha : r.status.active = true := by
        simp only [write, ImageBuilds.supersedeActiveImages, decide_eq_true_eq] at ht
        exact ht.2
      show StatusStep r.status .superseded
      cases hs : r.status with
      | building => exact .buildingSuperseded
      | ready => exact .readySuperseded
      | failed => simp [hs, ImageBuildStatus.active] at ha
      | superseded => simp [hs, ImageBuildStatus.active] at ha
    | markStaleBuildsAsFailed cutoff =>
      have hb : r.status = .building := by
        simp only [write, ImageBuilds.markStaleBuildsAsFailed, ImageBuildRow.stale,
          decide_eq_true_eq] at ht
        exact ht.1
      rw [hb]
      exact .buildingFailed
    | markScopeStaleBuildFailed scope p cutoff =>
      have hb : r.status = .building := by
        simp only [write, ImageBuilds.markScopeStaleBuildFailed, ImageBuildRow.stale,
          decide_eq_true_eq] at ht
        exact ht.2.1.1
      rw [hb]
      exact .buildingFailed
    | acceptFailedCompletion c e =>
      have hb : r.status = .building := by
        simp only [write, ImageBuilds.acceptFailedCompletion, ImageBuildRow.accepts,
          decide_eq_true_eq] at ht
        exact ht.2.2.2.1
      rw [hb]
      exact .buildingFailed
    | markFailed id token e =>
      have hb : r.status = .building := by
        simp only [write, ImageBuilds.markFailed, decide_eq_true_eq] at ht
        exact ht.2.1
      rw [hb]
      exact .buildingFailed
    | quarantineArtifact k image e =>
      show StatusStep r.status (if r.status = .building then .failed else r.status)
      split
      next hb =>
        rw [hb]
        exact .buildingFailed
      next => exact .stay _
    | markReady call stage =>
      cases stage with
      | updating build =>
        have hb : r.status = .building := by
          simp only [write, MarkReady.write, MarkReady.markReady, MarkReady.owns,
            Bool.and_eq_true, decide_eq_true_eq] at ht
          exact ht.1.2.2.1
        rw [hb]
        exact .buildingReady
      | supersedingBuild build =>
        have hb : r.status = .building := by
          simp only [write, MarkReady.write, MarkReady.tryMarkBuildingBuildSuperseded,
            MarkReady.owns, Bool.and_eq_true, decide_eq_true_eq] at ht
          exact ht.1.2.2.1
        rw [hb]
        exact .buildingSuperseded
      | supersedingOlder older =>
        have hr : r.status = .ready := by
          simp only [write, MarkReady.write, MarkReady.supersedeOlder, decide_eq_true_eq] at ht
          exact ht.2
        rw [hr]
        exact .readySuperseded
      | selecting => exact .stay _
      | selectingOlder build => exact .stay _
    | _ => exact .stay _
  · exact .stay _

/-- What a statement is for, as far as callers tell statements apart. -/
inductive StoreRole where
  | registers (buildId : BuildId)
  | accepts (callback : CompletionCallback)
  | marks
  | plain
  deriving DecidableEq

def StoreOp.role : StoreOp → StoreRole
  | .registerBuild build _ => .registers build.id
  | .acceptSuccessfulCompletion c _ _ _ => .accepts c
  | .acceptFailedCompletion c _ => .accepts c
  | .markReady _ _ => .marks
  | _ => .plain

/-- An accepting statement has an effect where some row accepts its callback. -/
theorem StoreOp.changes_of_accepts {c : CompletionCallback} (h : op.role = .accepts c) :
    op.write.changes t = true ↔ ∃ r ∈ t.rows, r.accepts c = true := by
  cases op with
  | acceptSuccessfulCompletion c' shas version duration =>
    cases h
    exact Write.changes_iff rfl fun _ => rfl
  | acceptFailedCompletion c' e =>
    cases h
    exact Write.changes_iff rfl fun _ => rfl
  | _ => cases h

/-- A completion is written once, to a row that has none, by a callback it accepts. -/
theorem StoreOp.row_completion (h : op.write.row t r = some r') :
    (r'.completionHash = r.completionHash ∧ r'.callbackTokenUsedAt = r.callbackTokenUsedAt) ∨
    ∃ c, op.role = .accepts c ∧ r.accepts c = true ∧ r'.completionHash = some c.completionHash ∧
      r'.callbackTokenUsedAt = some c.now := by
  rcases op.write.row_eq h with ⟨ht, rfl⟩ | ⟨_, rfl⟩
  · cases op with
    | acceptSuccessfulCompletion c shas version duration => exact .inr ⟨c, rfl, ht, rfl, rfl⟩
    | acceptFailedCompletion c e => exact .inr ⟨c, rfl, ht, rfl, rfl⟩
    | markReady call stage => cases stage <;> exact .inl ⟨rfl, rfl⟩
    | _ => exact .inl ⟨rfl, rfl⟩
  · exact .inl ⟨rfl, rfl⟩

/-- What a row shows once it has accepted a callback. -/
theorem StoreOp.row_of_accepts {c : CompletionCallback} (hop : op.role = .accepts c)
    (hacc : r.accepts c = true) (h : op.write.row t r = some r') :
    r'.completionHash = some c.completionHash ∧ r'.callbackTokenUsedAt = some c.now := by
  cases op with
  | acceptSuccessfulCompletion c' shas version duration =>
    cases hop
    rw [Write.row_of_touches (w := StoreOp.write (.acceptSuccessfulCompletion ..)) hacc rfl] at h
    cases h
    exact ⟨rfl, rfl⟩
  | acceptFailedCompletion c' e =>
    cases hop
    rw [Write.row_of_touches (w := StoreOp.write (.acceptFailedCompletion ..)) hacc rfl] at h
    cases h
    exact ⟨rfl, rfl⟩
  | _ => cases hop

/-- A row becomes ready by the update of a `tryMarkImageBuildReady` call that owns it and
that saw no newer ready row. -/
theorem StoreOp.row_ready (h : op.write.row t r = some r') (hr : r'.status = .ready) :
    r.status = .ready ∨ ∃ call build, op = .markReady call (.updating build) ∧
      call.owns r = true ∧ call.newerReady build t = false := by
  rcases op.write.row_eq h with ⟨ht, rfl⟩ | ⟨_, rfl⟩
  · cases op with
    | markBuildFailed id p e => cases hr
    | markRestoreFailed id e => cases hr
    | supersedeActiveImages scope => cases hr
    | markStaleBuildsAsFailed cutoff => cases hr
    | markScopeStaleBuildFailed scope p cutoff => cases hr
    | acceptFailedCompletion c e => cases hr
    | markFailed id token e => cases hr
    | quarantineArtifact k image e =>
      left
      have hset : (if r.status = .building then .failed else r.status) = .ready := hr
      split at hset
      next => cases hset
      next => exact hset
    | markReady call stage =>
      cases stage with
      | updating build =>
        simp only [write, MarkReady.write, MarkReady.markReady, Bool.and_eq_true,
          Bool.not_eq_true'] at ht
        exact .inr ⟨call, build, rfl, ht⟩
      | supersedingBuild build => cases hr
      | supersedingOlder older => cases hr
      | selecting => exact .inl hr
      | selectingOlder build => exact .inl hr
    | _ => exact .inl hr
  · exact .inl hr

/-- An owned row is the call's. -/
theorem MarkReady.owns_id {call : MarkReady} (h : call.owns r = true) : r.id = call.buildId := by
  simp only [MarkReady.owns, decide_eq_true_eq] at h
  exact h.1

/-- What a statement can do to a row's artifact. -/
inductive ArtifactMove (op : StoreOp) (r r' : ImageBuildRow) : Prop where
  | kept (same : r'.providerImageId = r.providerImageId)
  | recorded (k : FinalizationKey) (token : LeaseToken) (image : ArtifactId)
      (isOp : op = .recordArtifact k token image) (named : r.names k = true)
      (building : r.status = .building) (leased : r.finalizationLeaseToken = some token)
      (free : r.providerImageId = none) (result : r'.providerImageId = some image)
  | quarantined (k : FinalizationKey) (image : ArtifactId) (error : String)
      (isOp : op = .quarantineArtifact k image error) (named : r.names k = true)
      (free : r.providerImageId = none) (result : r'.providerImageId = some image)
      (discarded : r'.status.discarded = true)
  | marked (call : MarkReady) (stage : MarkReadyStage) (isOp : op = .markReady call stage)
      (owned : call.owns r = true) (result : r'.providerImageId = some call.providerImageId)
  | reaped (image : ArtifactId) (had : r.providerImageId = some image)
      (result : r'.providerImageId = none) (discarded : r.status.discarded = true)
      (isOp : op = .clearFailedImageArtifact r.id (some image) ∨
        op = .deleteSupersededImage r.id (some image))

theorem StoreOp.row_artifact (h : op.write.row t r = some r') : ArtifactMove op r r' := by
  rcases op.write.row_eq h with ⟨ht, rfl⟩ | ⟨_, rfl⟩
  · cases op with
    | recordArtifact k token image =>
      simp only [write, ImageBuilds.recordArtifact, decide_eq_true_eq] at ht
      exact .recorded k token image rfl ht.1 ht.2.1 ht.2.2.1 ht.2.2.2 rfl
    | quarantineArtifact k image error =>
      simp only [write, ImageBuilds.quarantineArtifact, decide_eq_true_eq] at ht
      refine .quarantined k image error rfl ht.1 ht.2.1 rfl ?_
      show (if r.status = .building then ImageBuildStatus.failed else r.status).discarded = true
      split
      next => rfl
      next hb => exact ht.2.2.resolve_left hb
    | markReady call stage =>
      cases stage with
      | updating build =>
        simp only [write, MarkReady.write, MarkReady.markReady, Bool.and_eq_true] at ht
        exact .marked call _ rfl ht.1 rfl
      | supersedingBuild build =>
        simp only [write, MarkReady.write, MarkReady.tryMarkBuildingBuildSuperseded,
          Bool.and_eq_true] at ht
        exact .marked call _ rfl ht.1 rfl
      | _ => exact .kept rfl
    | clearFailedImageArtifact id image =>
      simp only [write, ImageBuilds.clearFailedImageArtifact, decide_eq_true_eq] at ht
      obtain ⟨rfl, hs, hne, himage, _⟩ := ht
      obtain ⟨X, rfl⟩ := Option.ne_none_iff_exists'.mp hne
      exact .reaped X himage rfl (by rw [hs]; rfl) (.inl rfl)
    | deleteSupersededImage id image =>
      simp only [write, ImageBuilds.deleteSupersededImage, decide_eq_true_eq] at ht
      obtain ⟨rfl, hs, hne, himage, _⟩ := ht
      obtain ⟨X, rfl⟩ := Option.ne_none_iff_exists'.mp hne
      exact .reaped X himage rfl (by rw [hs]; rfl) (.inr rfl)
    | _ => exact .kept rfl
  · exact .kept rfl

/-- A row that lives on without its artifact has failed: a superseded one goes with it. -/
theorem StoreOp.row_reaped (h : op.write.row t r = some r') {image : ArtifactId}
    (himage : r.providerImageId = some image) (hnone : r'.providerImageId = none)
    (hop : r.providerOperationRef = none) : r.status = .failed := by
  cases op.row_artifact h with
  | kept same =>
    rw [same, himage] at hnone
    cases hnone
  | recorded _ _ _ _ _ _ _ _ result =>
    rw [result] at hnone
    cases hnone
  | quarantined _ _ _ _ _ _ result _ =>
    rw [result] at hnone
    cases hnone
  | marked _ _ _ _ result =>
    rw [result] at hnone
    cases hnone
  | reaped X had result _ isOp =>
    rcases op.write.row_eq h with ⟨ht, hset⟩ | ⟨_, rfl⟩
    · rcases isOp with rfl | rfl
      · simp only [write, ImageBuilds.clearFailedImageArtifact, decide_eq_true_eq] at ht
        exact ht.2.1
      · -- the batch goes on to remove the row
        exfalso
        have ht' := ht
        simp only [write, ImageBuilds.deleteSupersededImage, decide_eq_true_eq] at ht
        obtain ⟨hid, hs, _, _, hobl⟩ := ht
        rw [Write.row, ht'] at h
        simp only [if_true, write, ImageBuilds.deleteSupersededImage] at h
        rw [if_pos] at h
        · cases h
        · exact decide_eq_true ⟨trivial, hs, trivial, hobl, hop⟩
    · rw [himage] at hnone
      cases hnone

/-- What a statement can do to a row's reserved operation. -/
inductive OperationMove (op : StoreOp) (r r' : ImageBuildRow) : Prop where
  | kept (same : r'.providerOperationRef = r.providerOperationRef)
  | reserved (k : FinalizationKey) (token : LeaseToken) (ref : OperationRef) (deadlineAt : Millis)
      (isOp : op = .reserveProviderOperation k token ref deadlineAt) (named : r.names k = true)
      (free : r.providerOperationRef = none) (result : r'.providerOperationRef = some ref)
  | retired (k : FinalizationKey) (image : ArtifactId)
      (isOp : (∃ token, op = .recordArtifact k token image) ∨
        ∃ error, op = .quarantineArtifact k image error)
      (named : r.names k = true) (result : r'.providerImageId = some image)
      (retired : r'.providerOperationRef = none)
  | settled (ref : OperationRef) (isOp : op = .clearProviderOperation r.id ref)
      (had : r.providerOperationRef = some ref) (result : r'.providerOperationRef = none)

theorem StoreOp.row_operation (h : op.write.row t r = some r') : OperationMove op r r' := by
  rcases op.write.row_eq h with ⟨ht, rfl⟩ | ⟨_, rfl⟩
  · cases op with
    | recordArtifact k token image =>
      simp only [write, ImageBuilds.recordArtifact, decide_eq_true_eq] at ht
      exact .retired k image (.inl ⟨token, rfl⟩) ht.1 rfl rfl
    | quarantineArtifact k image error =>
      simp only [write, ImageBuilds.quarantineArtifact, decide_eq_true_eq] at ht
      exact .retired k image (.inr ⟨error, rfl⟩) ht.1 rfl rfl
    | reserveProviderOperation k token ref deadlineAt =>
      simp only [write, ImageBuilds.reserveProviderOperation, decide_eq_true_eq] at ht
      exact .reserved k token ref deadlineAt rfl ht.1 ht.2.2.2.1 rfl
    | clearProviderOperation id ref =>
      simp only [write, ImageBuilds.clearProviderOperation, decide_eq_true_eq] at ht
      obtain ⟨rfl, href, _⟩ := ht
      exact .settled ref rfl href rfl
    | markReady call stage => cases stage <;> exact .kept rfl
    | _ => exact .kept rfl
  · exact .kept rfl

/-- What a statement can do to a row's lease. -/
inductive LeaseMove (t : ImageBuildTable) (op : StoreOp) (r r' : ImageBuildRow) : Prop where
  | kept (same : r'.finalizationLeaseToken = r.finalizationLeaseToken)
  | claimed (hash : CompletionHash) (token : LeaseToken) (now expiresAt : Millis)
      (isOp : op = .claimLease r.id hash token now expiresAt)
      (touched : op.write.touches t r = true) (building : r.status = .building)
      (accepted : r.callbackTokenUsedAt ≠ none)
      (result : r' = { r with
        finalizationLeaseToken := some token, finalizationLeaseExpiresAt := some expiresAt })
  | released (token : LeaseToken) (isOp : op = .clearLease r.id token)
      (had : r.finalizationLeaseToken = some token)
      (result : r' = { r with finalizationLeaseToken := none, finalizationLeaseExpiresAt := none })
  | ended (off : r'.status ≠ .building) (result : r'.finalizationLeaseToken = none)

theorem StoreOp.row_lease (h : op.write.row t r = some r') : LeaseMove t op r r' := by
  rcases op.write.row_eq h with ⟨ht, rfl⟩ | ⟨_, rfl⟩
  · cases op with
    | claimLease id hash token now expiresAt =>
      have htouched := ht
      simp only [write, ImageBuilds.claimLease, decide_eq_true_eq] at ht
      obtain ⟨rfl, hs, _, hused, _⟩ := ht
      exact .claimed hash token now expiresAt rfl htouched hs hused rfl
    | clearLease id token =>
      simp only [write, ImageBuilds.clearLease, decide_eq_true_eq] at ht
      obtain ⟨rfl, hl⟩ := ht
      exact .released token rfl hl rfl
    | markFailed id token e => exact .ended nofun rfl
    | markStaleBuildsAsFailed cutoff => exact .ended nofun rfl
    | markScopeStaleBuildFailed scope p cutoff => exact .ended nofun rfl
    | quarantineArtifact k image e =>
      refine .ended ?_ rfl
      show (if r.status = .building then ImageBuildStatus.failed else r.status) ≠ .building
      split
      next => nofun
      next hb => exact hb
    | markReady call stage =>
      have hsettled : ∀ status, status ≠ ImageBuildStatus.building →
          LeaseMove t (.markReady call stage) r (call.settled status r) := by
        intro status hs
        by_cases hl : call.finalizationLeaseToken = none
        · exact .kept (by simp [MarkReady.settled, hl])
        · exact .ended hs (by simp [MarkReady.settled, hl])
      cases stage with
      | updating build => exact hsettled .ready nofun
      | supersedingBuild build => exact hsettled .superseded nofun
      | _ => exact .kept rfl
    | _ => exact .kept rfl
  · exact .kept rfl

/-- A building or superseded row that stays leased after its callback was accepted stays
as it is or is superseded. -/
theorem StoreOp.row_leased (h : op.write.row t r = some r')
    (hl : r'.finalizationLeaseToken ≠ none) (hs : r.status = .building ∨ r.status = .superseded)
    (hused : r.callbackTokenUsedAt ≠ none)
    (hmark : ∀ call stage, op = .markReady call stage → call.finalizationLeaseToken ≠ none) :
    r'.status = .building ∨ r'.status = .superseded := by
  rcases op.write.row_eq h with ⟨ht, rfl⟩ | ⟨_, rfl⟩
  · cases op with
    | markBuildFailed id p e =>
      simp only [write, ImageBuilds.markBuildFailed, decide_eq_true_eq] at ht
      exact absurd ht.2.2.2 hused
    | acceptFailedCompletion c e =>
      simp only [write, ImageBuilds.acceptFailedCompletion, ImageBuildRow.accepts,
        decide_eq_true_eq] at ht
      exact absurd ht.2.2.2.2.2.2 hused
    | markRestoreFailed id e =>
      simp only [write, ImageBuilds.markRestoreFailed, decide_eq_true_eq] at ht
      rcases hs with hs | hs <;> exact absurd (hs.symm.trans ht.2) nofun
    | supersedeActiveImages scope => exact .inr rfl
    | markFailed id token e => exact absurd rfl hl
    | markStaleBuildsAsFailed cutoff => exact absurd rfl hl
    | markScopeStaleBuildFailed scope p cutoff => exact absurd rfl hl
    | quarantineArtifact k image e => exact absurd rfl hl
    | markReady call stage =>
      have hnone := hmark call stage rfl
      cases stage with
      | updating build => exact absurd (by simp [write, MarkReady.write, MarkReady.markReady,
          MarkReady.settled, hnone]) hl
      | supersedingBuild build => exact .inr rfl
      | supersedingOlder older => exact .inr rfl
      | _ => exact hs
    | _ => exact hs
  · exact hs

/-- What a removed row owed: nothing, unless its artifact is the one just reaped. -/
structure Removable (op : StoreOp) (r : ImageBuildRow) : Prop where
  discarded : r.status.discarded = true
  session : r.noProviderSessionObligation = true
  operation : r.providerOperationRef = none
  artifact : r.providerImageId = none ∨
    r.providerImageId ≠ none ∧ op = .deleteSupersededImage r.id r.providerImageId

theorem StoreOp.row_removed (h : op.write.row t r = none) : Removable op r := by
  have hrem : op.write.removes (if op.write.touches t r then op.write.set r else r) = true := by
    unfold Write.row at h
    simpa using h
  cases op with
  | deleteSupersededImage id image =>
    simp only [write, ImageBuilds.deleteSupersededImage, decide_eq_true_eq] at hrem
    split at hrem
    next ht =>
      obtain ⟨rfl, hs, hne, himage, hobl⟩ := ht
      refine ⟨by rw [hs]; rfl, hobl, hrem.2.2.2.2, .inr ⟨?_, by rw [himage]⟩⟩
      rw [himage]
      exact hne
    next => exact ⟨by rw [hrem.2.1]; rfl, hrem.2.2.2.1, hrem.2.2.2.2, .inl hrem.2.2.1⟩
  | deleteOldFailedBuilds cutoff =>
    simp only [write, ImageBuilds.deleteOldFailedBuilds, Bool.false_eq_true, if_false,
      decide_eq_true_eq] at hrem
    exact ⟨by rw [hrem.1]; rfl, hrem.2.2.1, hrem.2.2.2.1, .inl hrem.2.1⟩
  | markReady call stage => cases stage <;> cases hrem
  | _ => cases hrem

/-- Rows are added by `registerBuild`, behind its `NOT EXISTS`. -/
theorem StoreOp.adds_eq (h : op.write.adds t = some r) :
    op.role = .registers r.id ∧ r.status = .building ∧ r.callbackTokenUsedAt = none ∧
      ∀ x ∈ t.rows, x.ofScope r.scope r.provider = true → x.status ≠ .building := by
  cases op with
  | registerBuild build now =>
    simp only [write, ImageBuilds.registerBuild] at h
    split at h
    next => cases h
    next hno =>
      cases h
      refine ⟨rfl, rfl, rfl, ?_⟩
      simpa using hno
  | markReady call stage => cases stage <;> cases h
  | _ => cases h

/-! ## Rows of the written table -/

/-- Two rows of a table with one id are one row. -/
theorem row_unique {x y : ImageBuildRow} (hx : x ∈ t.rows) (hy : y ∈ t.rows)
    (h : x.id = y.id) : x = y := by
  have hget := Table.mem_rows_iff.mp hx
  rw [h, Table.mem_rows_iff.mp hy] at hget
  cases hget
  rfl

/-- Where a row of the next table comes from: an earlier row that the statement
rewrote, or the registration of a new build. -/
theorem StoreOp.of_mem_run {x : ImageBuildRow}
    (h : x ∈ (op.write.run t).rows) :
    (∃ r ∈ t.rows, op.write.row t r = some x) ∨
      (op.role = .registers x.id ∧ x.status = .building ∧ x.callbackTokenUsedAt = none ∧
        ∀ r ∈ t.rows, r.ofScope x.scope x.provider = true → r.status ≠ .building) := by
  rcases Write.of_mem_run h with h | ⟨hadd, _⟩
  · exact .inl h
  · exact .inr (op.adds_eq hadd)

theorem SameBuild.ofScope (h : SameBuild r r') (scope : ImageBuildScope)
    (provider : ImageBuildProvider) : r'.ofScope scope provider = r.ofScope scope provider := by
  simp only [ImageBuildRow.ofScope, h.scope, h.provider]

/-- A row that is building was building. -/
theorem StatusStep.of_building {a : ImageBuildStatus} (h : StatusStep a .building) :
    a = .building := by
  cases h
  rfl

/-- A failed row stays failed. -/
theorem StatusStep.of_failed {a : ImageBuildStatus} (h : StatusStep .failed a) : a = .failed := by
  cases h
  rfl

/-- What a statement makes of each row. -/
theorem StoreOp.run_rows (op : StoreOp) (hr : r ∈ t.rows) :
    (∃ r' ∈ (op.write.run t).rows, op.write.row t r = some r') ∨
      (r.status.discarded = true ∧ (op.write.run t).get? r.id = none) := by
  cases hrow : op.write.row t r with
  | some r' => exact .inl ⟨r', Write.mem_run_of_row hr hrow, rfl⟩
  | none =>
    have hrem := op.row_removed hrow
    refine .inr ⟨hrem.discarded, ?_⟩
    rw [op.write.get?_run, Table.mem_rows_iff.mp hr, Option.bind_some, hrow]
    cases hadd : op.write.adds t with
    | none => rfl
    | some x =>
      -- a registration removes nothing
      exfalso
      obtain ⟨hreg, _⟩ := op.adds_eq hadd
      cases op with
      | registerBuild build now => cases hrow
      | markReady call stage => cases stage <;> cases hreg
      | _ => cases hreg

/-- The row a step leaves of a row it did not remove. -/
theorem StoreOp.row_of_mem (hr : r ∈ t.rows)
    (hr' : r' ∈ (op.write.run t).rows) (hid : r'.id = r.id)
    (hold : ∀ id, op.role = .registers id → id ≠ r.id) : op.write.row t r = some r' := by
  rcases StoreOp.of_mem_run hr' with ⟨x, hx, hrow⟩ | ⟨hreg, _⟩
  · have hxr : x = r := row_unique hx hr ((op.row_build hrow).id.symm.trans hid)
    rwa [hxr] at hrow
  · exact absurd hid (hold _ hreg)

theorem StatusStep.discarded {x y : ImageBuildStatus} (h : StatusStep x y)
    (hx : x.discarded = true) : y.discarded = true := by
  cases h with
  | stay => exact hx
  | _ => cases hx

/-- A row that a marking statement rewrites is no longer building. -/
theorem StoreOp.row_eq_of_markReady {call : MarkReady} {stage : MarkReadyStage}
    (h : (StoreOp.markReady call stage).write.row t r = some r') :
    r'.status ≠ .building ∨ r' = r := by
  rcases Write.row_eq h with ⟨ht, rfl⟩ | ⟨_, rfl⟩
  · cases stage with
    | selecting => cases ht
    | selectingOlder build => cases ht
    | _ => exact .inl nofun
  · exact .inr rfl

end BackgroundAgents.ImageBuilds

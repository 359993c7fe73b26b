import BackgroundAgents.ImageBuilds.Obligations

/-!
# What keeps a live image and its source

The workers of `Finalizer` delete artifacts, tear sources down and start attempts, each
on what it read a moment ago. `Guarded` says why none of them hits a live build:

* a delivery at work on an attempt holds the lease of its build while the build is
  building (`Leased`), so of two deliveries of a building build one has lost;
* a build whose attempt may not be repeated stays leased to it, or shows an artifact,
  or is out of the way (`AttemptOk`), so nobody starts another one;
* whoever deletes an artifact or tears a source down has seen its build settled
  (`Dead`, `Over`), and a settled build stays settled.

Leases pass from one delivery to the next only when the earlier attempt's result is on
record; that is `LeaseKept`. A `Deed` is one statement together with what is noted of
it, done by one delivery or by nobody in particular; `Deed.guarded` and `Deed.worker`
say what it leaves standing.
-/

namespace BackgroundAgents.ImageBuilds

open BackgroundAgents.Transition

/-! ## Histories -/

/-- The delivery an event belongs to. -/
def Event.token? : Event → Option LeaseToken
  | .started _ _ token | .ended token _ | .compensated token _ | .persisted token => some token
  | _ => none

/-- The attempt created nothing, or left nothing behind. -/
def Repeatable (history : List Event) (token : LeaseToken) : Prop :=
  .ended token .definitelyNotCreated ∈ history ∨ .ended token .pending ∈ history ∨
    ∃ image, .compensated token image ∈ history

/-- Every attempt on a build but the first comes after attempts that may be repeated. -/
def CapturesOnce : List Event → Prop
  | [] => True
  | .started b _ _ :: history =>
    (∀ p token, .started b p token ∈ history → Repeatable history token) ∧ CapturesOnce history
  | _ :: history => CapturesOnce history

/-- A deletion of the artifact has been asked for since it was last received. -/
def Doomed (image : ArtifactId) : List Event → Prop
  | [] => False
  | .deleteCalled other :: history => other = image ∨ Doomed image history
  | .received other _ _ :: history => other ≠ image ∧ Doomed image history
  | _ :: history => Doomed image history

variable {token : LeaseToken}

theorem Repeatable.mono {h h' : List Event} (hsub : h ⊆ h') (hr : Repeatable h token) :
    Repeatable h' token := by
  rcases hr with h | h | ⟨image, h⟩
  · exact .inl (hsub h)
  · exact .inr (.inl (hsub h))
  · exact .inr (.inr ⟨image, hsub h⟩)

variable {image : ArtifactId}

theorem Doomed.of_cons {e : Event} {h : List Event} (hd : Doomed image (e :: h)) :
    .deleteCalled image = e ∨ Doomed image h := by
  cases e with
  | deleteCalled other =>
    rcases hd with rfl | hd
    · exact .inl rfl
    · exact .inr hd
  | received other b ref => exact .inr hd.2
  | _ => exact .inr hd

theorem Doomed.of_append {events h : List Event} (hd : Doomed image (events ++ h)) :
    .deleteCalled image ∈ events ∨ Doomed image h := by
  induction events with
  | nil => exact .inr hd
  | cons e events ih =>
    rcases Doomed.of_cons hd with rfl | hd
    · exact .inl List.mem_cons_self
    · rcases ih hd with hmem | hd
      · exact .inl (List.mem_cons_of_mem _ hmem)
      · exact .inr hd

theorem CapturesOnce.append {events h : List Event} (hc : CapturesOnce h)
    (hev : ∀ b p token, .started b p token ∉ events) : CapturesOnce (events ++ h) := by
  induction events with
  | nil => exact hc
  | cons e events ih =>
    have hrest := ih fun b p token hmem => hev b p token (List.mem_cons_of_mem _ hmem)
    cases e with
    | started b p token => exact absurd List.mem_cons_self (hev b p token)
    | _ => exact hrest

/-! ## Facts about a build -/

/-- What holds of the build's row, if there is one. -/
def At (s : FinalizerState) (b : BuildId) (P : ImageBuildRow → Prop) : Prop :=
  ∀ r ∈ s.builds.rows, r.id = b → P r

def Received (s : FinalizerState) (image : ArtifactId) (b : BuildId) : Prop :=
  ∃ ref, .received image b ref ∈ s.history

/-- While the build is building, its lease is this delivery's. -/
def Leased (s : FinalizerState) (b : BuildId) (token : LeaseToken) : Prop :=
  At s b fun r => r.status = .building → r.finalizationLeaseToken = some token

/-- While the build is building, it shows this artifact. -/
def Exhibits (s : FinalizerState) (b : BuildId) (image : ArtifactId) : Prop :=
  At s b fun r => r.status = .building → r.providerImageId = some image

/-- The build is no longer building. -/
structure Over (s : FinalizerState) (b : BuildId) : Prop where
  issued : b ∈ s.issued
  off : At s b fun r => r.status ≠ .building

/-- The build has failed or is superseded. -/
structure Dead (s : FinalizerState) (b : BuildId) : Prop where
  issued : b ∈ s.issued
  discarded : At s b fun r => r.status.discarded = true

theorem ImageBuildStatus.ne_building_of_discarded {x : ImageBuildStatus}
    (h : x.discarded = true) : x ≠ .building := by
  rintro rfl
  cases h

variable {b : BuildId}

theorem Dead.over {s : FinalizerState} (h : Dead s b) : Over s b where
  issued := h.issued
  off r hr hid := ImageBuildStatus.ne_building_of_discarded (h.discarded r hr hid)

/-- No building or ready row shows the artifact. -/
def NotLive (s : FinalizerState) (image : ArtifactId) : Prop :=
  ∀ r ∈ s.builds.rows, r.providerImageId = some image → r.status.discarded = true

/-- What is known of an attempt for as long as its build has a row. -/
structure AttemptOk (s : FinalizerState) (b : BuildId) (token : LeaseToken) : Prop where
  issued : b ∈ s.issued
  /-- The build is out of reach of another attempt. -/
  kept : ¬Repeatable s.history token → At s b fun r =>
    r.finalizationLeaseToken = some token ∨ r.providerImageId ≠ none ∨
      (r.status ≠ .building ∧ r.finalizationLeaseToken = none)
  /-- It stays so without the lease once the result is on record. -/
  settled : .persisted token ∈ s.history → ¬Repeatable s.history token → At s b fun r =>
    r.providerImageId ≠ none ∨ r.status = .failed

/-! ## What each worker knows -/

/-- The delivery has not begun an attempt. -/
def Unstarted (s : FinalizerState) (token : LeaseToken) : Prop :=
  ∀ e ∈ s.history, e.token? ≠ some token

/-- The delivery works on this build and no other. -/
structure WorksOn (s : FinalizerState) (token : LeaseToken) (b : BuildId) : Prop where
  issued : b ∈ s.issued
  only : ∀ b' p, .started b' p token ∈ s.history → b' = b

/-- The delivery has an attempt whose result is not on record yet. -/
structure Attempting (s : FinalizerState) (token : LeaseToken) (b : BuildId) : Prop where
  works : WorksOn s token b
  started : ∃ p, .started b p token ∈ s.history
  unsettled : .persisted token ∉ s.history
  leased : Leased s b token

def StageGuard (s : FinalizerState) (token : LeaseToken) : ProcessStage → Prop
  | .reading _ | .claiming _ _ _ | .rereading _ _ => Unstarted s token
  | .attempting f => f.token = token ∧ Attempting s token f.key.buildId
  | .releasing f => Attempting s token f.key.buildId ∧ Repeatable s.history token
  | .recording f image => f.token = token ∧ Attempting s token f.key.buildId ∧
      Received s image f.key.buildId ∧
      At s f.key.buildId fun r => r.status = .building → ¬Doomed image s.history
  | .checkingRecord f image _ => f.token = token ∧ WorksOn s token f.key.buildId ∧
      Received s image f.key.buildId ∧
      (Attempting s token f.key.buildId ∨ Exhibits s f.key.buildId image)
  | .compensating f image _ => WorksOn s token f.key.buildId ∧ Received s image f.key.buildId ∧
      (Attempting s token f.key.buildId ∨ Over s f.key.buildId) ∧ NotLive s image
  | .releasingCompensated f image _ => WorksOn s token f.key.buildId ∧
      Received s image f.key.buildId ∧ Repeatable s.history token
  | .quarantining f image _ => WorksOn s token f.key.buildId ∧ Received s image f.key.buildId
  | .failing b _ => WorksOn s token b ∧ Leased s b token
  | .readingFailed b | .readingTerminal b => Over s b
  | .marking call stage => call.finalizationLeaseToken = some token ∧
      call.buildId ∈ s.issued ∧ Received s call.providerImageId call.buildId ∧
      Exhibits s call.buildId call.providerImageId ∧
      match stage with
      | .selecting | .updating _ | .supersedingBuild _ => True
      | .selectingOlder _ => Over s call.buildId
      | .supersedingOlder older => Over s call.buildId ∧
          ∀ o ∈ older, Over s o.imageBuildId ∧
            ∀ image, o.providerImageId = some image → Received s image o.imageBuildId
  | .readingUnmarked b | .releasingUnmarked b => b ∈ s.issued ∧
      At s b fun r => r.status = .building → r.providerImageId ≠ none

def WorkerGuard (s : FinalizerState) : Worker → Prop
  | .process token stage => token ∈ s.tokens ∧ StageGuard s token stage
  | .cleanup (.queued target) => Over s target.id
  | .cleanup _ => True
  | .reap (.queued row) => Dead s row.id ∧
      ∀ image, row.providerImageId = some image → Received s image row.id
  | .reap (.deleting image commit) => (∃ b, Received s image b ∧ Dead s b) ∧
      ∃ reaped, IsReap commit reaped
  | .reap (.committing commit) => ∃ reaped, IsReap commit reaped
  | .reconcile _ => True
  | .trigger g _ => g.build.id ∈ s.issued

/-- The lease token of a delivery. -/
def Worker.token? : Worker → Option LeaseToken
  | .process token _ => some token
  | _ => none

/-- Two workers are not deliveries under one token. -/
def Apart (v w : Worker) : Prop :=
  ∀ token, v.token? = some token → w.token? ≠ some token

structure Guarded (s : FinalizerState) : Prop where
  issued : ∀ r ∈ s.builds.rows, r.id ∈ s.issued
  received : ∀ image b, Received s image b → b ∈ s.issued
  distinct : ∀ image b b', Received s image b → Received s image b' → b = b'
  artifacts : ∀ r ∈ s.builds.rows, ∀ image, r.providerImageId = some image →
    Received s image r.id
  operations : ∀ r ∈ s.builds.rows, r.providerImageId ≠ none → r.providerOperationRef = none
  leases : ∀ r ∈ s.builds.rows, r.finalizationLeaseToken ≠ none →
    (r.status = .building ∨ r.status = .superseded) ∧ r.callbackTokenUsedAt ≠ none
  tokens : ∀ e ∈ s.history, ∀ token, e.token? = some token → token ∈ s.tokens
  attempts : ∀ b p token, .started b p token ∈ s.history → AttemptOk s b token
  torn : ∀ b, .tornDown b ∈ s.history → Over s b
  captures : CapturesOnce s.history
  live : ∀ r ∈ s.builds.rows, ∀ image, r.providerImageId = some image →
    r.status.discarded = false → ¬Doomed image s.history
  workers : ∀ w ∈ s.workers, WorkerGuard s w
  apart : s.workers.Pairwise Apart

/-! ## Deeds -/

/-- The delivery is done with the build: its attempt's result is on record, and it is
not about to fail the build. -/
structure Passable (s : FinalizerState) (b : BuildId) (token : LeaseToken) : Prop where
  settled : ∀ p, .started b p token ∈ s.history → .persisted token ∈ s.history
  notFailing : ∀ error, .process token (.failing b error) ∉ s.workers

/-- What is asked of a statement of the delivery `own`. -/
def Careful (s s' : FinalizerState) (own : Option LeaseToken) : StoreOp → Prop
  | .registerBuild build _ => build.id ∉ s.issued ∧ build.id ∈ s'.issued
  | .claimLease b hash token now expiresAt => own = some token ∧ At s b fun r =>
      (claimLease b hash token now expiresAt).touches s.builds r = true →
        ∀ earlier, r.finalizationLeaseToken = some earlier → Passable s b earlier
  | .clearLease b token => own = some token ∧ (Repeatable s'.history token ∨
      At s b fun r => r.status = .building → r.providerImageId ≠ none)
  | .recordArtifact k token image => own = some token ∧ Received s image k.buildId ∧
      At s k.buildId fun r => r.status = .building → ¬Doomed image s'.history
  | .quarantineArtifact k image _ => Received s image k.buildId
  | .markReady call _ => call.finalizationLeaseToken ≠ none ∧
      Received s call.providerImageId call.buildId ∧ Exhibits s call.buildId call.providerImageId
  | _ => True

/-- At most one statement, issued with care by the delivery `own` or by nobody in
particular. -/
structure Issues (s s' : FinalizerState) (own : Option LeaseToken) (op : Option StoreOp) :
    Prop where
  builds : s'.builds = s.written op
  issued : s.issued ⊆ s'.issued
  careful : ∀ o, op = some o → Careful s s' own o

/-- A statement with what is noted of it. -/
structure Deed (s s' : FinalizerState) (own : Option LeaseToken) (op : Option StoreOp)
    (events : List Event) : Prop extends Issues s s' own op where
  history : s'.history = events ++ s.history
  tokens : s.tokens ⊆ s'.tokens
  owned : ∀ e ∈ events, ∀ token, e.token? = some token → own = some token ∧ token ∈ s'.tokens
  receives : ∀ image b ref, .received image b ref ∈ events →
    events = [.received image b ref] ∧ b ∈ s.issued ∧ ∀ b', Received s image b' → b = b'
  /-- An artifact to be deleted is on no live row, and of no other delivery's build. -/
  deletes : ∀ image, .deleteCalled image ∈ events → NotLive s' image ∧
    ∀ b, Received s image b → ∀ token, own ≠ some token → Leased s b token →
      At s' b fun r => r.status ≠ .building
  tears : ∀ b, .tornDown b ∈ events → Over s' b
  starts : ∀ b p token, .started b p token ∈ events →
    events = [.started b p token] ∧ op = none ∧ b ∈ s.issued ∧ Unstarted s token ∧
      (At s b fun r => r.finalizationLeaseToken = some token) ∧
      ∀ p' token', .started b p' token' ∈ s.history → Repeatable s.history token'
  settles : ∀ token, .persisted token ∈ events → ∀ b p, .started b p token ∈ s.history →
    Repeatable s'.history token ∨
      At s' b fun r => r.providerImageId ≠ none ∨ r.status = .failed

variable {s s' : FinalizerState} {own : Option LeaseToken} {op : Option StoreOp}
  {events : List Event}

theorem Deed.sub (hd : Deed s s' own op events) : s.history ⊆ s'.history := by
  rw [hd.history]
  exact fun _ h => List.mem_append_right _ h

theorem Deed.event (hd : Deed s s' own op events) {e : Event} (h : e ∈ s'.history) :
    e ∈ events ∨ e ∈ s.history := by
  rw [hd.history] at h
  exact List.mem_append.mp h

/-- Where a row of a build that existed comes from. -/
theorem Issues.row (hd : Issues s s' own op) {x : ImageBuildRow} (hx : x ∈ s'.builds.rows) :
    x ∈ s.builds.rows ∨ (∃ o, op = some o ∧
      ((∃ r ∈ s.builds.rows, o.write.row s.builds r = some x) ∨
        (x.id ∉ s.issued ∧ x.id ∈ s'.issued ∧ x.providerImageId = none ∧
          x.finalizationLeaseToken = none))) := by
  rw [hd.builds] at hx
  unfold FinalizerState.written at hx
  cases op with
  | none => exact .inl hx
  | some o =>
    refine .inr ⟨o, rfl, ?_⟩
    rcases Write.of_mem_run hx with h | ⟨hadd, _⟩
    · exact .inl h
    · right
      have hrole := (o.adds_eq hadd).1
      have hc := hd.careful o rfl
      cases o with
      | registerBuild build now =>
        simp only [StoreOp.write, registerBuild] at hadd
        split at hadd
        next => cases hadd
        next =>
          cases hadd
          exact ⟨hc.1, hc.2, rfl, rfl⟩
      | _ => cases hrole

/-- What a deed leaves of a build that existed. -/
theorem At.deed (hd : Deed s s' own op events) (hb : b ∈ s.issued)
    {P Q : ImageBuildRow → Prop} (h : At s b P)
    (hstay : ∀ r, P r → Q r)
    (hrow : ∀ o r x, op = some o → r ∈ s.builds.rows → r.id = b → o.write.row s.builds r = some x →
      P r → Q x) : At s' b Q := by
  intro x hx hid
  rcases hd.row hx with hx | ⟨o, hop, ⟨r, hr, hrow'⟩ | ⟨hfresh, _⟩⟩
  · exact hstay x (h x hx hid)
  · have hrid : r.id = b := (o.row_build hrow').id.symm.trans hid
    exact hrow o r x hop hr hrid hrow' (h r hr hrid)
  · exact absurd (hid ▸ hb) hfresh

theorem Over.deed (hd : Deed s s' own op events) (h : Over s b) : Over s' b where
  issued := hd.issued h.issued
  off := by
    refine At.deed hd h.issued h.off (fun _ h => h) ?_
    intro o r x _ _ _ hrow hr hx
    have hstep := o.row_status hrow
    rw [hx] at hstep
    exact hr hstep.of_building

theorem Dead.deed (hd : Deed s s' own op events) (h : Dead s b) : Dead s' b where
  issued := hd.issued h.issued
  discarded := by
    refine At.deed hd h.issued h.discarded (fun _ h => h) ?_
    intro o r x _ _ _ hrow hr
    exact (o.row_status hrow).discarded hr

theorem Received.deed (hd : Deed s s' own op events) (h : Received s image b) :
    Received s' image b := by
  obtain ⟨ref, h⟩ := h
  exact ⟨ref, hd.sub h⟩

theorem Exhibits.deed (hd : Deed s s' own op events) (hb : b ∈ s.issued) (h : Exhibits s b image) :
    Exhibits s' b image := by
  refine At.deed hd hb h (fun _ h => h) ?_
  intro o r x _ _ _ hrow hr hx
  have hstep := o.row_status hrow
  rw [hx] at hstep
  exact building_keeps_artifact hrow hx (hr hstep.of_building)

/-- A building row that shows an artifact goes on showing one. -/
theorem At.shows_deed (hd : Deed s s' own op events) (hb : b ∈ s.issued)
    (h : At s b fun r => r.status = .building → r.providerImageId ≠ none) :
    At s' b fun r => r.status = .building → r.providerImageId ≠ none := by
  refine At.deed hd hb h (fun _ h => h) ?_
  intro o r x _ _ _ hrow hr hx
  have hstep := o.row_status hrow
  rw [hx] at hstep
  obtain ⟨image, himage⟩ := Option.ne_none_iff_exists'.mp (hr hstep.of_building)
  rw [building_keeps_artifact hrow hx himage]
  nofun

/-- **A delivery keeps its lease** as long as it is not done with the build. -/
theorem Leased.deed (hd : Deed s s' own op events) (hb : b ∈ s.issued) (hown : own ≠ some token)
    (hbusy : ¬Passable s b token) (h : Leased s b token) : Leased s' b token := by
  refine At.deed hd hb h (fun _ h => h) ?_
  intro o r x hop hr hid hrow hleased hx
  have hbuilding : r.status = .building := by
    have hstep := o.row_status hrow
    rw [hx] at hstep
    exact hstep.of_building
  have hlease := hleased hbuilding
  cases o.row_lease hrow with
  | kept same => exact same.trans hlease
  | claimed hash other now expiresAt isOp touched _ _ _ =>
    subst isOp
    exact absurd (hid ▸ (hd.careful _ hop).2 r hr rfl touched token hlease) hbusy
  | released other isOp had _ =>
    subst isOp
    have hother : other = token := Option.some.inj (had.symm.trans hlease)
    exact absurd (hother ▸ (hd.careful _ hop).1) hown
  | ended off _ => exact absurd hx off

/-- The artifact a statement puts on a row is one that was received for the build. -/
theorem Guarded.artifacts_row (hg : Guarded s) (hd : Issues s s' own op) {o : StoreOp}
    (hop : op = some o) {r x : ImageBuildRow} (hr : r ∈ s.builds.rows)
    (hrow : o.write.row s.builds r = some x) (himage : x.providerImageId = some image) :
    Received s image r.id := by
  have hc := hd.careful o hop
  cases o.row_artifact hrow with
  | kept same => exact hg.artifacts r hr image (same.symm.trans himage)
  | recorded k token other isOp named _ _ _ result =>
    subst isOp
    rw [ImageBuildRow.names_id named]
    exact (Option.some.inj (result.symm.trans himage)) ▸ hc.2.1
  | quarantined k other error isOp named _ result _ =>
    subst isOp
    rw [ImageBuildRow.names_id named]
    exact (Option.some.inj (result.symm.trans himage)) ▸ hc
  | marked call stage isOp owned result =>
    subst isOp
    rw [MarkReady.owns_id owned]
    exact (Option.some.inj (result.symm.trans himage)) ▸ hc.2.1
  | reaped _ _ result _ _ =>
    rw [result] at himage
    cases himage

/-- The artifact of a build that is dead is on no live row. -/
theorem Guarded.notLive (hg : Guarded s) (hd : Issues s s' own op) (hreceived : Received s image b)
    (hdead : Dead s' b) : NotLive s' image := by
  intro x hx himage
  refine hdead.discarded x hx ?_
  rcases hd.row hx with hx | ⟨o, hop, ⟨r, hr, hrow⟩ | ⟨_, _, hnone, _⟩⟩
  · exact hg.distinct image _ _ (hg.artifacts x hx image himage) hreceived
  · rw [(o.row_build hrow).id]
    exact hg.distinct image _ _ (hg.artifacts_row hd hop hr hrow himage) hreceived
  · rw [hnone] at himage
    cases himage

/-- A row shows no artifact next to an operation. -/
theorem Guarded.operations_row (hg : Guarded s) (hd : Deed s s' own op events) {o : StoreOp}
    (hop : op = some o) {r x : ImageBuildRow} (hr : r ∈ s.builds.rows)
    (hrow : o.write.row s.builds r = some x) (himage : x.providerImageId ≠ none) :
    x.providerOperationRef = none := by
  cases o.row_operation hrow with
  | kept same =>
    rw [same]
    cases o.row_artifact hrow with
    | kept himg => exact hg.operations r hr (himg ▸ himage)
    | recorded k token other isOp named hs hl hfree _ =>
      subst isOp
      have ht : (StoreOp.recordArtifact k token other).write.touches s.builds r = true :=
        decide_eq_true ⟨named, hs, hl, hfree⟩
      rw [Write.row_of_touches ht rfl] at hrow
      cases hrow
      exact same.symm
    | quarantined k other error isOp _ hfree result _ =>
      subst isOp
      rcases Write.row_eq hrow with ⟨_, rfl⟩ | ⟨_, rfl⟩
      · exact same.symm
      · rw [hfree] at result
        cases result
    | marked call stage isOp owned _ =>
      subst isOp
      have hc := hd.careful _ hop
      have hbuilding : r.status = .building := by
        simp only [MarkReady.owns, decide_eq_true_eq] at owned
        exact owned.2.2.1
      refine hg.operations r hr ?_
      rw [hc.2.2 r hr (MarkReady.owns_id owned) hbuilding]
      intro h
      cases h
    | reaped _ _ result _ _ => exact absurd result himage
  | reserved k token ref deadlineAt isOp named hfree result =>
    subst isOp
    rcases Write.row_eq hrow with ⟨ht, rfl⟩ | ⟨_, rfl⟩
    · simp only [StoreOp.write, reserveProviderOperation, decide_eq_true_eq] at ht
      exact absurd ht.2.2.2.2 himage
    · exact hfree
  | retired _ _ _ _ _ retired => exact retired
  | settled _ _ _ result => exact result

theorem Guarded.leases_row (hg : Guarded s) (hd : Deed s s' own op events) {o : StoreOp}
    (hop : op = some o) {r x : ImageBuildRow} (hr : r ∈ s.builds.rows)
    (hrow : o.write.row s.builds r = some x) (hl : x.finalizationLeaseToken ≠ none) :
    (x.status = .building ∨ x.status = .superseded) ∧ x.callbackTokenUsedAt ≠ none := by
  have hused : r.callbackTokenUsedAt ≠ none → x.callbackTokenUsedAt ≠ none := by
    intro hu
    rcases o.row_completion hrow with ⟨_, same⟩ | ⟨_, _, _, _, result⟩
    · rwa [same]
    · rw [result]
      nofun
  cases o.row_lease hrow with
  | kept same =>
    obtain ⟨hs, hu⟩ := hg.leases r hr (same ▸ hl)
    refine ⟨o.row_leased hrow hl hs hu ?_, hused hu⟩
    intro call stage hcall
    have hc := hd.careful o hop
    subst hcall
    exact hc.1
  | claimed _ _ _ _ _ _ building accepted result =>
    subst result
    exact ⟨.inl building, accepted⟩
  | released _ _ _ result =>
    subst result
    exact absurd rfl hl
  | ended _ result => exact absurd result hl

/-- **An attempt that may not be repeated stays out of reach** of another one. -/
theorem AttemptOk.deed (hg : Guarded s) (hd : Deed s s' own op events) {p : ImageBuildProvider}
    (hstarted : .started b p token ∈ s.history) :
    AttemptOk s' b token := by
  have ha := hg.attempts b p token hstarted
  -- a row that loses its artifact has failed, and a failed row has no lease
  have hgone : ∀ o r x, op = some o → r ∈ s.builds.rows → o.write.row s.builds r = some x →
      r.providerImageId ≠ none → x.providerImageId ≠ none ∨ x.status = .failed := by
    intro o r x hop hr hrow himage
    cases himg : x.providerImageId with
    | some image => exact .inl nofun
    | none =>
      obtain ⟨image, hsome⟩ := Option.ne_none_iff_exists'.mp himage
      have hfailed := o.row_reaped hrow hsome himg (hg.operations r hr himage)
      have hstep := o.row_status hrow
      rw [hfailed] at hstep
      exact .inr hstep.of_failed
  refine ⟨hd.issued ha.issued, ?_, ?_⟩
  · intro hrep
    have hrep' : ¬Repeatable s.history token := fun h => hrep (h.mono hd.sub)
    refine At.deed hd ha.issued (ha.kept hrep') (fun _ h => h) ?_
    intro o r x hop hr hid hrow hr'
    have hoff : r.status ≠ .building → x.status ≠ .building := by
      intro h hx
      have hstep := o.row_status hrow
      rw [hx] at hstep
      exact h hstep.of_building
    have hshow : r.providerImageId ≠ none → x.providerImageId ≠ none ∨
        (x.status ≠ .building ∧ x.finalizationLeaseToken = none) := by
      intro himage
      rcases hgone o r x hop hr hrow himage with h | h
      · exact .inl h
      · refine .inr ⟨by rw [h]; nofun, ?_⟩
        by_contra hl
        rcases (hg.leases_row hd hop hr hrow hl).1 with hs | hs <;> rw [h] at hs <;> cases hs
    cases o.row_lease hrow with
    | kept same =>
      rcases hr' with hl | himage | ⟨hs, hl⟩
      · exact .inl (same.trans hl)
      · exact .inr (hshow himage)
      · exact .inr (.inr ⟨hoff hs, same.trans hl⟩)
    | claimed hash other now expiresAt isOp touched building _ result =>
      subst isOp result
      rcases hr' with hl | himage | ⟨hs, _⟩
      · have hpass := (hd.careful _ hop).2 r hr rfl touched token hl
        rcases ha.settled (hpass.settled p (hid ▸ hstarted)) hrep' r hr hid with himage | hf
        · exact .inr (.inl himage)
        · rw [building] at hf
          cases hf
      · exact .inr (.inl himage)
      · exact absurd building hs
    | released other isOp had result =>
      subst isOp result
      rcases hr' with hl | himage | ⟨hs, _⟩
      · have hother : other = token := Option.some.inj (had.symm.trans hl)
        rcases (hd.careful _ hop).2 with h | h
        · exact absurd (hother ▸ h) hrep
        · by_cases hs : r.status = .building
          · exact .inr (.inl (h r hr rfl hs))
          · exact .inr (.inr ⟨hs, rfl⟩)
      · exact .inr (.inl himage)
      · exact .inr (.inr ⟨hs, rfl⟩)
    | ended off result => exact .inr (.inr ⟨off, result⟩)
  · intro hsettled hrep
    rcases hd.event hsettled with hev | hsettled
    · exact (hd.settles token hev b p hstarted).resolve_left hrep
    · have hrep' : ¬Repeatable s.history token := fun h => hrep (h.mono hd.sub)
      refine At.deed hd ha.issued (ha.settled hsettled hrep') (fun _ h => h) ?_
      intro o r x hop hr hid hrow hr'
      rcases hr' with himage | hf
      · exact hgone o r x hop hr hrow himage
      · have hstep := o.row_status hrow
        rw [hf] at hstep
        exact .inr hstep.of_failed

/-- No live row shows an artifact that is to be deleted. -/
theorem Guarded.live_deed (hg : Guarded s) (hd : Deed s s' own op events) {x : ImageBuildRow}
    (hx : x ∈ s'.builds.rows) (himage : x.providerImageId = some image)
    (hlive : x.status.discarded = false) : ¬Doomed image s'.history := by
  intro hdoomed
  have hbefore : Doomed image s.history := by
    rw [hd.history] at hdoomed
    rcases Doomed.of_append hdoomed with hdel | h
    · have hdead := (hd.deletes image hdel).1 x hx himage
      rw [hlive] at hdead
      cases hdead
    · exact h
  rcases hd.row hx with hx | ⟨o, hop, ⟨r, hr, hrow⟩ | ⟨_, _, hnone, _⟩⟩
  · exact hg.live x hx image himage hlive hbefore
  · have hrlive : r.status.discarded = false := by
      by_contra h
      rw [(o.row_status hrow).discarded (by simpa using h)] at hlive
      cases hlive
    have hc := hd.careful o hop
    cases o.row_artifact hrow with
    | kept same => exact hg.live r hr image (same.symm.trans himage) hrlive hbefore
    | recorded k token other isOp named building _ _ result =>
      subst isOp
      have hsame : other = image := Option.some.inj (result.symm.trans himage)
      exact hc.2.2 r hr (ImageBuildRow.names_id named) building (hsame ▸ hdoomed)
    | quarantined _ _ _ _ _ _ _ discarded =>
      rw [hlive] at discarded
      cases discarded
    | marked call stage isOp owned result =>
      subst isOp
      have hbuilding : r.status = .building := by
        simp only [MarkReady.owns, decide_eq_true_eq] at owned
        exact owned.2.2.1
      have hshown := hc.2.2 r hr (MarkReady.owns_id owned) hbuilding
      exact hg.live r hr image (hshown.trans (result.symm.trans himage)) hrlive hbefore
    | reaped _ _ result _ _ =>
      rw [result] at himage
      cases himage
  · rw [hnone] at himage
    cases himage

theorem Guarded.received_deed (hg : Guarded s) (hd : Deed s s' own op events)
    (h : Received s' image b) : b ∈ s.issued := by
  obtain ⟨ref, h⟩ := h
  rcases hd.event h with h | h
  · exact (hd.receives _ _ _ h).2.1
  · exact hg.received _ _ ⟨ref, h⟩

theorem Guarded.distinct_deed (hg : Guarded s) (hd : Deed s s' own op events) {b b' : BuildId}
    (h : Received s' image b) (h' : Received s' image b') :
    b = b' := by
  obtain ⟨ref, h⟩ := h
  obtain ⟨ref', h'⟩ := h'
  rcases hd.event h with h | h
  · obtain ⟨hev, _, hb⟩ := hd.receives _ _ _ h
    rcases hd.event h' with h' | h'
    · rw [hev] at h'
      cases List.mem_singleton.mp h'
      rfl
    · exact hb b' ⟨ref', h'⟩
  · rcases hd.event h' with h' | h'
    · exact ((hd.receives _ _ _ h').2.2 b ⟨ref, h⟩).symm
    · exact hg.distinct image b b' ⟨ref, h⟩ ⟨ref', h'⟩

/-- The attempts on record, the new one included. -/
theorem Guarded.attempts_deed (hg : Guarded s) (hd : Deed s s' own op events)
    {p : ImageBuildProvider} (h : .started b p token ∈ s'.history) :
    AttemptOk s' b token := by
  rcases hd.event h with h | h
  · obtain ⟨hev, hop, hb, hnew, hlease, _⟩ := hd.starts b p token h
    have hbuilds : s'.builds = s.builds := by
      rw [hd.builds, hop]
      rfl
    refine ⟨hd.issued hb, fun _ r hr hid => .inl (hlease r (hbuilds ▸ hr) hid), ?_⟩
    intro hsettled
    rcases hd.event hsettled with h' | h'
    · rw [hev] at h'
      cases List.mem_singleton.mp h'
    · exact absurd rfl (hnew _ h')
  · exact AttemptOk.deed hg hd h

theorem Guarded.captures_deed (hg : Guarded s) (hd : Deed s s' own op events) :
    CapturesOnce s'.history := by
  rw [hd.history]
  by_cases hstart : ∃ b p token, .started b p token ∈ events
  · obtain ⟨b, p, token, h⟩ := hstart
    obtain ⟨hev, _, _, _, _, hrep⟩ := hd.starts b p token h
    rw [hev]
    exact ⟨hrep, hg.captures⟩
  · exact hg.captures.append fun b p token h => hstart ⟨b, p, token, h⟩

/-! ## What a deed leaves to the other workers -/

theorem WorksOn.deed (hd : Deed s s' own op events) (hown : own ≠ some token)
    (h : WorksOn s token b) : WorksOn s' token b where
  issued := hd.issued h.issued
  only b' p hstart := by
    rcases hd.event hstart with hev | hstart
    · exact absurd (hd.owned _ hev token rfl).1 hown
    · exact h.only b' p hstart

theorem Attempting.deed (hd : Deed s s' own op events) (hown : own ≠ some token)
    (h : Attempting s token b) : Attempting s' token b where
  works := h.works.deed hd hown
  started := by
    obtain ⟨p, hp⟩ := h.started
    exact ⟨p, hd.sub hp⟩
  unsettled hset := by
    rcases hd.event hset with hev | hset
    · exact hown (hd.owned _ hev token rfl).1
    · exact h.unsettled hset
  leased := by
    obtain ⟨p, hp⟩ := h.started
    exact h.leased.deed hd h.works.issued hown fun hpass => h.unsettled (hpass.settled p hp)

theorem Unstarted.deed (hd : Deed s s' own op events) (hown : own ≠ some token)
    (h : Unstarted s token) : Unstarted s' token := by
  intro e he htoken
  rcases hd.event he with hev | he
  · exact hown (hd.owned e hev token htoken).1
  · exact h e he htoken

/-- An artifact about to be deleted comes onto no live row: its build's lease is held. -/
theorem NotLive.deed (hd : Deed s s' own op events) (hg : Guarded s) (hown : own ≠ some token)
    (hreceived : Received s image b) (hheld : Attempting s token b ∨ Over s b) (h : NotLive s image)
    :
    NotLive s' image := by
  intro x hx himage
  rcases hd.row hx with hx | ⟨o, hop, ⟨r, hr, hrow⟩ | ⟨_, _, hnone, _⟩⟩
  · exact h x hx himage
  · have hstays : r.providerImageId = some image → x.status.discarded = true :=
      fun hr' => (o.row_status hrow).discarded (h r hr hr')
    have hc := hd.careful o hop
    cases o.row_artifact hrow with
    | kept same => exact hstays (same.symm.trans himage)
    | recorded k other recorded isOp named building leased _ result =>
      exfalso
      subst isOp
      have hsame : recorded = image := Option.some.inj (result.symm.trans himage)
      have hb : k.buildId = b := hg.distinct image _ _ (hsame ▸ hc.2.1) hreceived
      have hid : r.id = b := (ImageBuildRow.names_id named).trans hb
      rcases hheld with ha | hover
      · have hother : other = token :=
          Option.some.inj (leased.symm.trans (ha.leased r hr hid building))
        exact hown (hother ▸ hc.1)
      · exact hover.off r hr hid building
    | quarantined _ _ _ _ _ _ _ discarded => exact discarded
    | marked call stage isOp owned result =>
      subst isOp
      have hbuilding : r.status = .building := by
        simp only [MarkReady.owns, decide_eq_true_eq] at owned
        exact owned.2.2.1
      exact hstays ((hc.2.2 r hr (MarkReady.owns_id owned) hbuilding).trans
        (result.symm.trans himage))
    | reaped _ _ result _ _ =>
      rw [result] at himage
      cases himage
  · rw [hnone] at himage
    cases himage

/-- A delivery about to record its artifact is not overtaken by a deletion. -/
theorem Guarded.recording_deed (hd : Deed s s' own op events) (hown : own ≠ some token)
    (hattempt : Attempting s token b) (hreceived : Received s image b)
    (h : At s b fun r => r.status = .building → ¬Doomed image s.history) :
    At s' b fun r => r.status = .building → ¬Doomed image s'.history := by
  have hbefore : At s' b fun r => r.status = .building → ¬Doomed image s.history := by
    refine At.deed hd hattempt.works.issued h (fun _ h => h) ?_
    intro o r x _ _ _ hrow hr hx
    have hstep := o.row_status hrow
    rw [hx] at hstep
    exact hr hstep.of_building
  intro x hx hid hbuilding hdoomed
  rw [hd.history] at hdoomed
  rcases Doomed.of_append hdoomed with hdel | hdoomed
  · exact (hd.deletes image hdel).2 b hreceived token hown hattempt.leased x hx hid hbuilding
  · exact hbefore x hx hid hbuilding hdoomed

/-- **A delivery's knowledge survives the deeds of others.** -/
theorem StageGuard.deed (hg : Guarded s) (hd : Deed s s' own op events) {stage : ProcessStage}
    (hmem : .process token stage ∈ s.workers) (hown : own ≠ some token)
    (h : StageGuard s token stage) : StageGuard s' token stage := by
  cases stage with
  | reading job => exact Unstarted.deed hd hown h
  | claiming job now expired => exact Unstarted.deed hd hown h
  | rereading job expired => exact Unstarted.deed hd hown h
  | attempting f => exact ⟨h.1, h.2.deed hd hown⟩
  | releasing f => exact ⟨h.1.deed hd hown, h.2.mono hd.sub⟩
  | recording f image =>
    obtain ⟨htoken, hattempt, hreceived, hfresh⟩ := h
    exact ⟨htoken, hattempt.deed hd hown, hreceived.deed hd,
      Guarded.recording_deed hd hown hattempt hreceived hfresh⟩
  | checkingRecord f image error =>
    obtain ⟨htoken, hworks, hreceived, hheld⟩ := h
    exact ⟨htoken, hworks.deed hd hown, hreceived.deed hd,
      hheld.imp (·.deed hd hown) (Exhibits.deed hd hworks.issued)⟩
  | compensating f image error =>
    obtain ⟨hworks, hreceived, hheld, hdead⟩ := h
    exact ⟨hworks.deed hd hown, hreceived.deed hd, hheld.imp (·.deed hd hown) (·.deed hd),
      hdead.deed hd hg hown hreceived hheld⟩
  | releasingCompensated f image error =>
    obtain ⟨hworks, hreceived, hrep⟩ := h
    exact ⟨hworks.deed hd hown, hreceived.deed hd, hrep.mono hd.sub⟩
  | quarantining f image error => exact ⟨h.1.deed hd hown, h.2.deed hd⟩
  | failing b error =>
    refine ⟨h.1.deed hd hown, h.2.deed hd h.1.issued hown ?_⟩
    exact fun hpass => hpass.notFailing error hmem
  | readingFailed b => exact Over.deed hd h
  | marking call stage =>
    obtain ⟨hlease, hissued, hreceived, hshown, hstage⟩ := h
    refine ⟨hlease, hd.issued hissued, hreceived.deed hd, hshown.deed hd hissued, ?_⟩
    cases stage with
    | selectingOlder build => exact Over.deed hd hstage
    | supersedingOlder older =>
      refine ⟨hstage.1.deed hd, fun o ho => ?_⟩
      obtain ⟨hover, himage⟩ := hstage.2 o ho
      exact ⟨hover.deed hd, fun image hi => (himage image hi).deed hd⟩
    | _ => trivial
  | readingUnmarked b => exact ⟨hd.issued h.1, At.shows_deed hd h.1 h.2⟩
  | releasingUnmarked b => exact ⟨hd.issued h.1, At.shows_deed hd h.1 h.2⟩
  | readingTerminal b => exact Over.deed hd h

/-- What a worker that is no delivery knows, nothing takes away. -/
theorem WorkerGuard.deed_of_none (hd : Deed s s' own op events) {w : Worker}
    (htoken : w.token? = none) (h : WorkerGuard s w) : WorkerGuard s' w := by
  cases w with
  | process token stage => cases htoken
  | cleanup stage =>
    cases stage with
    | queued target => exact Over.deed hd h
    | _ => trivial
  | reap stage =>
    cases stage with
    | queued row => exact ⟨h.1.deed hd, fun image hi => (h.2 image hi).deed hd⟩
    | deleting image commit =>
      obtain ⟨⟨b, hreceived, hdead⟩, hreap⟩ := h
      exact ⟨⟨b, hreceived.deed hd, hdead.deed hd⟩, hreap⟩
    | committing commit => exact h
  | reconcile stage => trivial
  | trigger g stage => exact hd.issued h

theorem WorkerGuard.deed (hg : Guarded s) (hd : Deed s s' own op events) {w : Worker}
    (hmem : w ∈ s.workers) (hown : ∀ token, w.token? = some token → own ≠ some token) :
    WorkerGuard s' w := by
  have h := hg.workers w hmem
  cases w with
  | process token stage =>
    exact ⟨hd.tokens h.1, StageGuard.deed hg hd hmem (hown token rfl) h.2⟩
  | cleanup stage => exact deed_of_none hd rfl h
  | reap stage => exact deed_of_none hd rfl h
  | reconcile stage => trivial
  | trigger g stage => exact hd.issued h

/-- **One deed keeps the guards**, if the workers it leaves behind know what they should. -/
theorem Deed.guarded (hg : Guarded s) (hd : Deed s s' own op events)
    (hworkers : ∀ w ∈ s'.workers, WorkerGuard s' w) (hapart : s'.workers.Pairwise Apart) :
    Guarded s' where
  issued x hx := by
    rcases hd.row hx with hx | ⟨o, _, ⟨r, hr, hrow⟩ | ⟨_, hid, _⟩⟩
    · exact hd.issued (hg.issued x hx)
    · rw [(o.row_build hrow).id]
      exact hd.issued (hg.issued r hr)
    · exact hid
  received image b h := hd.issued (hg.received_deed hd h)
  distinct image b b' h h' := hg.distinct_deed hd h h'
  artifacts x hx image himage := by
    rcases hd.row hx with hx | ⟨o, hop, ⟨r, hr, hrow⟩ | ⟨_, _, hnone, _⟩⟩
    · exact (hg.artifacts x hx image himage).deed hd
    · rw [(o.row_build hrow).id]
      exact (hg.artifacts_row hd.toIssues hop hr hrow himage).deed hd
    · rw [hnone] at himage
      cases himage
  operations x hx himage := by
    rcases hd.row hx with hx | ⟨o, hop, ⟨r, hr, hrow⟩ | ⟨_, _, hnone, _⟩⟩
    · exact hg.operations x hx himage
    · exact hg.operations_row hd hop hr hrow himage
    · exact absurd hnone himage
  leases x hx hl := by
    rcases hd.row hx with hx | ⟨o, hop, ⟨r, hr, hrow⟩ | ⟨_, _, _, hnone⟩⟩
    · exact hg.leases x hx hl
    · exact hg.leases_row hd hop hr hrow hl
    · exact absurd hnone hl
  tokens e he token htoken := by
    rcases hd.event he with hev | he
    · exact (hd.owned e hev token htoken).2
    · exact hd.tokens (hg.tokens e he token htoken)
  attempts b p token h := hg.attempts_deed hd h
  torn b h := by
    rcases hd.event h with hev | h
    · exact hd.tears b hev
    · exact (hg.torn b h).deed hd
  captures := hg.captures_deed hd
  live x hx image himage hlive := hg.live_deed hd hx himage hlive
  workers := hworkers
  apart := hapart

theorem Guarded.init : Guarded {} where
  issued _ h := absurd h List.not_mem_nil
  received _ _ h := by
    obtain ⟨ref, h⟩ := h
    cases h
  distinct _ _ _ h := by
    obtain ⟨ref, h⟩ := h
    cases h
  artifacts _ h := absurd h List.not_mem_nil
  operations _ h := absurd h List.not_mem_nil
  leases _ h := absurd h List.not_mem_nil
  tokens _ h := absurd h List.not_mem_nil
  attempts _ _ _ h := absurd h List.not_mem_nil
  torn _ h := absurd h List.not_mem_nil
  captures := trivial
  live _ h := absurd h List.not_mem_nil
  workers _ h := absurd h List.not_mem_nil
  apart := .nil

end BackgroundAgents.ImageBuilds

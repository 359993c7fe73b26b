import BackgroundAgents.ImageBuilds.Finalizer

/-!
# No image-build artifact is lost

Once an attempt has returned an artifact, somebody must know of it until the provider
has deleted it: the delivery that received it (`Worker.holds`), or a row, by
`provider_image_id` or by the operation reference it was created under
(`ImageBuildRow.carries`). `Tracked` keeps the account. An artifact leaves a row only
through the reaper, whose terminal action is committed after the provider's deletion
(`WorkerOk`); it leaves a delivery's hands by being recorded, by a confirmed deletion,
or by quarantine.

Quarantine is where the account has a hole: it matches on the build's session id,
which the session cleanup of a superseded row clears. `QuarantineHolds` is the
condition on the state before the quarantining statement under which it closes the
account, and `artifact_lost` is a run without it.

What the providers promise (`ProviderKeeps`): the name an operation is reserved under
is the build's own (`name`, `none` where one call returns a finished artifact), an
artifact is created under that name, and all artifacts of one name are one. An
artifact is its id: a confirmed deletion is final, and an operation that
reconciliation settles has been reclaimed or has produced nothing.
-/

namespace BackgroundAgents.ImageBuilds

open BackgroundAgents.Transition

/-! ## Obligations -/

/-- The provider has confirmed that the artifact is gone. -/
def Confirmed (history : List Event) (image : ArtifactId) (ref : Option OperationRef) : Prop :=
  .deleted image ∈ history ∨ ∃ f, ref = some f ∧ .settled f ∈ history

instance (history : List Event) (image : ArtifactId) (ref : Option OperationRef) :
    Decidable (Confirmed history image ref) :=
  inferInstanceAs (Decidable (_ ∨ _))

/-- The row knows of the artifact, by its id or by the operation it was created under. -/
def ImageBuildRow.carries (r : ImageBuildRow) (image : ArtifactId) (ref : Option OperationRef) :
    Prop :=
  r.providerImageId = some image ∨ (ref ≠ none ∧ r.providerOperationRef = ref)

instance (r : ImageBuildRow) (image : ArtifactId) (ref : Option OperationRef) :
    Decidable (r.carries image ref) :=
  inferInstanceAs (Decidable (_ ∨ _))

def Carried (t : ImageBuildTable) (image : ArtifactId) (buildId : BuildId)
    (ref : Option OperationRef) : Prop :=
  ∃ r ∈ t.rows, r.id = buildId ∧ r.carries image ref

instance (t : ImageBuildTable) (image : ArtifactId) (buildId : BuildId)
    (ref : Option OperationRef) : Decidable (Carried t image buildId ref) :=
  inferInstanceAs (Decidable (∃ r ∈ t.rows, _ ∧ _))

/-- The artifact a delivery has received and not yet accounted for. -/
def ProcessStage.hand : ProcessStage → Option (Finalization × ArtifactId)
  | .recording f image | .checkingRecord f image _ | .compensating f image _
  | .releasingCompensated f image _ | .quarantining f image _ => some (f, image)
  | _ => none

/-- The worker is a delivery of the build with this artifact in its hands. -/
def Worker.holds (image : ArtifactId) (buildId : BuildId) : Worker → Prop
  | .process _ stage => ∃ f, stage.hand = some (f, image) ∧ f.key.buildId = buildId
  | _ => False

/-! ## Promises and the condition -/

variable (name : BuildId → Option OperationRef)

/-- The attempt that worker `i` has in flight. -/
def FinalizerState.attemptAt (s : FinalizerState) (i : Nat) : Option Finalization :=
  match s.workers[i]? with
  | some (.process _ (.attempting f)) => some f
  | _ => none

/-- The artifact that worker `i` is about to quarantine. -/
def FinalizerState.quarantineAt (s : FinalizerState) (i : Nat) :
    Option (Finalization × ArtifactId) :=
  match s.workers[i]? with
  | some (.process _ (.quarantining f image _)) => some (f, image)
  | _ => none

/-- An artifact that arrived, and the operation it was created under. -/
def Event.receipt : Event → Option (ArtifactId × Option OperationRef)
  | .received image _ ref => some (image, ref)
  | _ => none

/-- The artifacts that were created under `ref` are `image`. -/
def OneArtifact (history : List Event) (ref : Option OperationRef) (image : ArtifactId) : Prop :=
  ∀ e ∈ history, ∀ p ∈ e.receipt, p.2 ≠ none → p.2 = ref → p.1 = image

instance (history : List Event) (ref : Option OperationRef) (image : ArtifactId) :
    Decidable (OneArtifact history ref image) :=
  inferInstanceAs (Decidable (∀ e ∈ history, ∀ p ∈ e.receipt, _ → _ → _))

/-- What the providers promise of their answers. -/
def ProviderKeeps (s : FinalizerState) : FinalizerStep → Prop
  | .work i (.reserve ref _ _) => ∀ f ∈ s.attemptAt i, name f.key.buildId = some ref
  | .work i (.artifact image) => ∀ f ∈ s.attemptAt i,
      f.ref = name f.key.buildId ∧ OneArtifact s.history f.ref image
  | _ => True

instance (s : FinalizerState) : ∀ a, Decidable (ProviderKeeps name s a)
  | .work i (.reserve ref _ _) =>
    inferInstanceAs (Decidable (∀ f ∈ s.attemptAt i, name f.key.buildId = some ref))
  | .work i (.artifact image) =>
    inferInstanceAs (Decidable (∀ f ∈ s.attemptAt i,
      f.ref = name f.key.buildId ∧ OneArtifact s.history f.ref image))
  | .work _ (.row _) | .work _ (.written _) | .work _ (.failed _ _ _) | .work _ (.bind _ _)
  | .work _ (.reconciled _) | .work _ .done | .work _ (.raised _) | .trigger _ _ | .deliver _ _
  | .listReapable _ | .listSessionCleanup _ | .listUnresolvedOperations _ | .write _ =>
    .isTrue trivial

/-- The row that `quarantineArtifact` looks for. -/
def Quarantinable (t : ImageBuildTable) (k : FinalizationKey) : Prop :=
  ∃ r ∈ t.rows, r.names k = true ∧ r.providerImageId = none ∧ r.status ≠ .ready

instance (t : ImageBuildTable) (k : FinalizationKey) : Decidable (Quarantinable t k) :=
  inferInstanceAs (Decidable (∃ r ∈ t.rows, _ ∧ _))

/-- A statement that quarantines an artifact of `kept` is not refused and finds its row,
or has nothing to save. -/
def QuarantineHolds (kept : ArtifactId → Prop) (s : FinalizerState) : FinalizerStep → Prop
  | .work i (.written w) => ∀ q ∈ s.quarantineAt i, kept q.2 →
      (w.applied = true ∧ Quarantinable s.builds q.1.key) ∨ Confirmed s.history q.2 q.1.ref ∨
        Carried s.builds q.2 q.1.key.buildId q.1.ref
  | _ => True

instance (kept : ArtifactId → Prop) [DecidablePred kept] (s : FinalizerState) :
    ∀ a, Decidable (QuarantineHolds kept s a)
  | .work i (.written w) =>
    inferInstanceAs (Decidable (∀ q ∈ s.quarantineAt i, kept q.2 →
      (w.applied = true ∧ Quarantinable s.builds q.1.key) ∨ _ ∨ _))
  | .work _ (.row _) | .work _ (.artifact _) | .work _ (.reserve _ _ _) | .work _ (.failed _ _ _)
  | .work _ (.bind _ _) | .work _ (.reconciled _) | .work _ .done | .work _ (.raised _)
  | .trigger _ _ | .deliver _ _ | .listReapable _ | .listSessionCleanup _
  | .listUnresolvedOperations _ | .write _ => .isTrue trivial

/-- What is asked of every step of a run. -/
def KeepsArtifacts (kept : ArtifactId → Prop) (s : FinalizerState) (a : FinalizerStep) : Prop :=
  ProviderKeeps name s a ∧ QuarantineHolds kept s a

instance (kept : ArtifactId → Prop) [DecidablePred kept] (s : FinalizerState)
    (a : FinalizerStep) : Decidable (KeepsArtifacts name kept s a) :=
  inferInstanceAs (Decidable (_ ∧ _))

/-! ## The account -/

/-- A terminal action of the reaper for the artifact `image`. -/
def IsReap (op : StoreOp) (image : Option ArtifactId) : Prop :=
  ∃ id, op = .clearFailedImageArtifact id image ∨ op = .deleteSupersededImage id image

/-- What a marking call relies on: while its row is building, it shows the call's artifact. -/
def Shows (t : ImageBuildTable) (call : MarkReady) : Prop :=
  ∀ r ∈ t.rows, r.id = call.buildId → r.status = .building →
    r.providerImageId = some call.providerImageId

def StageOk (s : FinalizerState) : ProcessStage → Prop
  | .attempting f => f.key.buildId ∈ s.issued
  | .marking call _ => call.buildId ∈ s.issued ∧ Shows s.builds call
  | .releasingCompensated f image _ =>
    .received image f.key.buildId f.ref ∈ s.history ∧ .deleted image ∈ s.history
  | stage => ∀ f image, stage.hand = some (f, image) →
      .received image f.key.buildId f.ref ∈ s.history

def WorkerOk (s : FinalizerState) : Worker → Prop
  | .process _ stage => StageOk s stage
  | .reap (.deleting image commit) => IsReap commit (some image)
  | .reap (.committing commit) =>
    ∃ image, IsReap commit image ∧ ∀ X, image = some X → .deleted X ∈ s.history
  | .reconcile (.clearing _ ref) => .settled ref ∈ s.history
  | _ => True

/-- Everybody who must know of an artifact of `kept` does. -/
structure Tracked (kept : ArtifactId → Prop) (s : FinalizerState) : Prop where
  issued : ∀ r ∈ s.builds.rows, r.id ∈ s.issued
  refs : ∀ r ∈ s.builds.rows, ∀ f, r.providerOperationRef = some f → name r.id = some f
  received : ∀ image b ref, .received image b ref ∈ s.history → b ∈ s.issued ∧ ref = name b
  unique : ∀ image b other b' f, .received image b (some f) ∈ s.history →
    .received other b' (some f) ∈ s.history → image = other
  workers : ∀ w ∈ s.workers, WorkerOk s w
  obligations : ∀ image, kept image → ∀ b ref, .received image b ref ∈ s.history →
    Confirmed s.history image ref ∨ (∃ w ∈ s.workers, w.holds image b) ∨
      Carried s.builds image b ref

theorem Tracked.init (kept : ArtifactId → Prop) : Tracked name kept {} where
  issued _ h := absurd h List.not_mem_nil
  refs _ h := absurd h List.not_mem_nil
  received _ _ _ h := absurd h List.not_mem_nil
  unique _ _ _ _ _ h := absurd h List.not_mem_nil
  workers _ h := absurd h List.not_mem_nil
  obligations _ _ _ _ h := absurd h List.not_mem_nil

/-! ### One statement -/

/-- What a statement must respect for the account to stand. -/
def OpSafe (s : FinalizerState) : StoreOp → Prop
  | .registerBuild _ _ => False
  | .clearFailedImageArtifact _ image | .deleteSupersededImage _ image =>
    ∀ X, image = some X → .deleted X ∈ s.history
  | .clearProviderOperation _ ref => .settled ref ∈ s.history
  | .reserveProviderOperation k _ ref _ => name k.buildId = some ref
  | .recordArtifact k _ image | .quarantineArtifact k image _ =>
    ∃ ref, .received image k.buildId ref ∈ s.history
  | .markReady call _ => Shows s.builds call
  | _ => True

variable {name} {kept : ArtifactId → Prop} {s s' : FinalizerState} {op : StoreOp}

theorem OpSafe.not_registers (h : OpSafe name s op) (id : BuildId) : op.role ≠ .registers id := by
  intro hrole
  cases op with
  | registerBuild build now => exact h
  | _ => cases hrole

theorem OpSafe.of_elsewhere (h : op.elsewhere = true) : OpSafe name s op := by
  cases op with
  | deleteSupersededImage id image =>
    cases image with
    | none => nofun
    | some image => cases h
  | attachRecoveredProviderSession _ _ _ => trivial
  | clearUnboundSourceIntent _ => trivial
  | markRestoreFailed _ _ => trivial
  | supersedeActiveImages _ => trivial
  | markStaleBuildsAsFailed _ => trivial
  | markScopeStaleBuildFailed _ _ _ => trivial
  | deleteOldFailedBuilds _ => trivial
  | acceptSuccessfulCompletion _ _ _ _ => trivial
  | acceptFailedCompletion _ _ => trivial
  | _ => cases h

theorem ImageBuildRow.names_id {r : ImageBuildRow} {k : FinalizationKey} (h : r.names k = true) :
    r.id = k.buildId := by
  simp only [names, decide_eq_true_eq] at h
  exact h.1

variable {image : ArtifactId}

/-- **A carried artifact stays carried**, unless the provider has deleted it. -/
theorem Tracked.carried_run (hi : Tracked name kept s) (hop : OpSafe name s op) {b : BuildId}
    {ref : Option OperationRef} (hrec : .received image b ref ∈ s.history)
    (h : Carried s.builds image b ref) :
    Confirmed s.history image ref ∨ Carried (op.write.run s.builds) image b ref := by
  obtain ⟨r, hr, hid, hcarries⟩ := h
  cases hrow : op.write.row s.builds r with
  | none =>
    left
    have hrem := op.row_removed hrow
    rcases hcarries with himage | ⟨hne, href⟩
    · rcases hrem.artifact with hnone | ⟨_, rfl⟩
      · rw [himage] at hnone
        cases hnone
      · exact .inl (hop image himage)
    · exact absurd (href.symm.trans hrem.operation) hne
  | some r' =>
    have hmem := Write.mem_run_of_row hr hrow
    have hid' : r'.id = b := (op.row_build hrow).id.trans hid
    rcases hcarries with himage | ⟨hne, href⟩
    · cases op.row_artifact hrow with
      | kept same => exact .inr ⟨r', hmem, hid', .inl (same.trans himage)⟩
      | recorded _ _ _ _ _ _ _ free _ =>
        rw [himage] at free
        cases free
      | quarantined _ _ _ _ _ free _ _ =>
        rw [himage] at free
        cases free
      | marked call stage isOp owned result =>
        subst isOp
        have hbuilding : r.status = .building := by
          simp only [MarkReady.owns, decide_eq_true_eq] at owned
          exact owned.2.2.1
        have hown := hop r hr (MarkReady.owns_id owned) hbuilding
        exact .inr ⟨r', hmem, hid', .inl (by rw [result, ← hown, himage])⟩
      | reaped X had _ _ isOp =>
        rw [himage] at had
        cases had
        rcases isOp with rfl | rfl
        · exact .inl (.inl (hop image rfl))
        · exact .inl (.inl (hop image rfl))
    · cases op.row_operation hrow with
      | kept same => exact .inr ⟨r', hmem, hid', .inr ⟨hne, same.trans href⟩⟩
      | reserved _ _ _ _ _ _ free _ => exact absurd (href.symm.trans free) hne
      | retired k other isOp named result _ =>
        obtain ⟨f, rfl⟩ := Option.ne_none_iff_exists'.mp hne
        have hother : ∃ ref', Event.received other k.buildId ref' ∈ s.history := by
          rcases isOp with ⟨_, rfl⟩ | ⟨_, rfl⟩
          · exact hop
          · exact hop
        obtain ⟨ref', hother⟩ := hother
        have hkb : k.buildId = b := (ImageBuildRow.names_id named).symm.trans hid
        have href' : ref' = some f := by
          rw [(hi.received _ _ _ hother).2, hkb]
          exact (hi.received _ _ _ hrec).2.symm
        rw [href'] at hother
        have heq := hi.unique _ _ _ _ _ hrec hother
        exact .inr ⟨r', hmem, hid', .inl (by rw [result, heq])⟩
      | settled f isOp had _ =>
        subst isOp
        exact .inl (.inr ⟨f, href.symm.trans had, hop⟩)

theorem Tracked.issued_run (hi : Tracked name kept s) (hop : OpSafe name s op) {x : ImageBuildRow}
    (hx : x ∈ (op.write.run s.builds).rows) : x.id ∈ s.issued := by
  rcases StoreOp.of_mem_run hx with ⟨r, hr, hrow⟩ | ⟨hreg, _⟩
  · rw [(op.row_build hrow).id]
    exact hi.issued r hr
  · exact absurd hreg (hop.not_registers _)

theorem Tracked.refs_run (hi : Tracked name kept s) (hop : OpSafe name s op) {x : ImageBuildRow}
    (hx : x ∈ (op.write.run s.builds).rows) {f : OperationRef}
    (hf : x.providerOperationRef = some f) : name x.id = some f := by
  rcases StoreOp.of_mem_run hx with ⟨r, hr, hrow⟩ | ⟨hreg, _⟩
  · rw [(op.row_build hrow).id]
    cases op.row_operation hrow with
    | kept same => exact hi.refs r hr f (same.symm.trans hf)
    | reserved k token ref deadlineAt isOp named _ result =>
      subst isOp
      rw [result] at hf
      cases hf
      rw [ImageBuildRow.names_id named]
      exact hop
    | retired _ _ _ _ _ retired =>
      rw [retired] at hf
      cases hf
    | settled _ _ _ result =>
      rw [result] at hf
      cases hf
  · exact absurd hreg (hop.not_registers _)

/-- A building row keeps the artifact it has. -/
theorem building_keeps_artifact {t : ImageBuildTable} {r x : ImageBuildRow}
    (hrow : op.write.row t r = some x) (hx : x.status = .building)
    (himage : r.providerImageId = some image) : x.providerImageId = some image := by
  cases op.row_artifact hrow with
  | kept same => exact same.trans himage
  | recorded _ _ _ _ _ _ _ free _ =>
    rw [himage] at free
    cases free
  | quarantined _ _ _ _ _ free _ _ =>
    rw [himage] at free
    cases free
  | marked call stage isOp owned result =>
    subst isOp
    rcases StoreOp.row_eq_of_markReady hrow with hset | rfl
    · exact absurd hx hset
    · exact himage
  | reaped _ _ _ discarded _ =>
    have hstep := (op.row_status hrow).discarded discarded
    rw [hx] at hstep
    cases hstep

theorem Shows.run {call : MarkReady} (hop : OpSafe name s op) (h : Shows s.builds call) :
    Shows (op.write.run s.builds) call := by
  intro x hx hid hbuilding
  rcases StoreOp.of_mem_run hx with ⟨r, hr, hrow⟩ | ⟨hreg, _⟩
  · have hwas : r.status = .building := by
      have hstep := op.row_status hrow
      rw [hbuilding] at hstep
      exact hstep.of_building
    exact building_keeps_artifact hrow hbuilding
      (h r hr ((op.row_build hrow).id.symm.trans hid) hwas)
  · exact absurd hreg (hop.not_registers _)

/-! ### One turn -/

/-- The table after a turn whose write, if any, is safe. -/
def Turn.Safe (name : BuildId → Option OperationRef) (s : FinalizerState) (t : Turn) : Prop :=
  ∀ op, t.op = some op → OpSafe name s op

/-- What workers that stay where they are rely on is still there. -/
structure Later (s s' : FinalizerState) : Prop where
  issued : s.issued ⊆ s'.issued
  history : s.history ⊆ s'.history
  shows : ∀ call : MarkReady, call.buildId ∈ s.issued → Shows s.builds call →
    Shows s'.builds call

theorem WorkerOk.mono {w : Worker} (hl : Later s s') (h : WorkerOk s w) : WorkerOk s' w := by
  cases w with
  | process token stage =>
    cases stage with
    | attempting f => exact hl.issued h
    | marking call stage => exact ⟨hl.issued h.1, hl.shows call h.1 h.2⟩
    | recording _ _ => exact fun f image hf => hl.history (h f image hf)
    | checkingRecord _ _ _ => exact fun f image hf => hl.history (h f image hf)
    | compensating _ _ _ => exact fun f image hf => hl.history (h f image hf)
    | releasingCompensated _ _ _ => exact ⟨hl.history h.1, hl.history h.2⟩
    | quarantining _ _ _ => exact fun f image hf => hl.history (h f image hf)
    | _ => nofun
  | cleanup stage => trivial
  | reap stage =>
    cases stage with
    | queued row => trivial
    | deleting image commit => exact h
    | committing commit =>
      obtain ⟨image, hreap, hdel⟩ := h
      exact ⟨image, hreap, fun X hX => hl.history (hdel X hX)⟩
  | reconcile stage =>
    cases stage with
    | clearing row ref => exact hl.history h
    | _ => trivial
  | trigger g stage => trivial

theorem Later.take {t : Turn} (hsafe : t.Safe name s) (i : Nat) : Later s (s.take i t) where
  issued _ h := h
  history _ h := List.mem_append_right _ h
  shows call _ h := by
    show Shows (s.written t.op) call
    unfold FinalizerState.written
    split
    next => exact h
    next op hop => exact h.run (hsafe op hop)

theorem Confirmed.mono {h h' : List Event} {ref : Option OperationRef} (hsub : h ⊆ h')
    (hc : Confirmed h image ref) : Confirmed h' image ref := by
  rcases hc with hdel | ⟨f, href, hsettled⟩
  · exact .inl (hsub hdel)
  · exact .inr ⟨f, href, hsub hsettled⟩

/-- What a turn of the worker `w` owes the account. -/
structure TurnOk (name : BuildId → Option OperationRef) (kept : ArtifactId → Prop)
    (s : FinalizerState) (i : Nat) (w : Worker) (t : Turn) : Prop where
  safe : t.Safe name s
  next : ∀ n, t.next = some n → WorkerOk (s.take i t) n
  spawned : ∀ n ∈ t.spawned, WorkerOk (s.take i t) n
  /-- What it receives it holds. -/
  received : ∀ image b ref, .received image b ref ∈ t.events →
    b ∈ s.issued ∧ ref = name b ∧ (∃ n, t.next = some n ∧ n.holds image b) ∧
      ∀ other b' f, ref = some f → .received other b' (some f) ∈ s.history → image = other
  /-- There is at most one receipt in a turn. -/
  single : ∀ image b ref image' b' ref', .received image b ref ∈ t.events →
    .received image' b' ref' ∈ t.events → image = image'
  /-- What it held it still holds, or it is accounted for. -/
  hand : ∀ image, kept image → ∀ b, w.holds image b → ∀ ref, .received image b ref ∈ s.history →
    (∃ n, t.next = some n ∧ n.holds image b) ∨ Confirmed (t.events ++ s.history) image ref ∨
      Carried (s.written t.op) image b ref

theorem Tracked.take (hi : Tracked name kept s) {i : Nat} {w : Worker} {t : Turn}
    (hget : s.workers[i]? = some w) (ht : TurnOk name kept s i w t) : Tracked name kept (s.take i t) := by
  have hsub : s.history ⊆ (s.take i t).history := fun _ h => List.mem_append_right _ h
  have hnext : ∀ n, t.next = some n → n ∈ (s.take i t).workers := by
    intro n hn
    refine List.mem_append_left _ ?_
    rw [hn]
    exact mem_advance_self hget
  have hevent : ∀ {image b ref}, Event.received image b ref ∈ (s.take i t).history →
      .received image b ref ∈ t.events ∨ .received image b ref ∈ s.history :=
    fun h => List.mem_append.mp h
  constructor
  · intro x hx
    simp only [FinalizerState.take, FinalizerState.written] at hx
    split at hx
    next => exact hi.issued x hx
    next op hop => exact hi.issued_run (ht.safe op hop) hx
  · intro x hx f hf
    simp only [FinalizerState.take, FinalizerState.written] at hx
    split at hx
    next => exact hi.refs x hx f hf
    next op hop => exact hi.refs_run (ht.safe op hop) hx hf
  · intro image b ref h
    rcases hevent h with h | h
    · obtain ⟨hb, href, _⟩ := ht.received _ _ _ h
      exact ⟨hb, href⟩
    · exact hi.received _ _ _ h
  · intro image b other b' f h h'
    rcases hevent h with h | h
    · rcases hevent h' with h' | h'
      · exact ht.single _ _ _ _ _ _ h h'
      · exact (ht.received _ _ _ h).2.2.2 _ _ _ rfl h'
    · rcases hevent h' with h' | h'
      · exact ((ht.received _ _ _ h').2.2.2 _ _ _ rfl h).symm
      · exact hi.unique _ _ _ _ _ h h'
  · intro n hn
    rcases List.mem_append.mp hn with hn | hn
    · rcases mem_of_mem_advance hn with hn | hn
      · exact (hi.workers n hn).mono (.take ht.safe i)
      · exact ht.next n hn
    · exact ht.spawned n hn
  · intro image hkept b ref h
    rcases hevent h with h | h
    · obtain ⟨_, _, ⟨n, hn, hholds⟩, _⟩ := ht.received _ _ _ h
      exact .inr (.inl ⟨n, hnext n hn, hholds⟩)
    · rcases hi.obligations _ hkept _ _ h with hc | ⟨v, hv, hholds⟩ | hcarried
      · exact .inl (hc.mono hsub)
      · rcases mem_advance_of_mem (o := t.next) hget hv with rfl | hv
        · rcases ht.hand _ hkept _ hholds _ h with ⟨n, hn, hholds⟩ | hc | hcarried
          · exact .inr (.inl ⟨n, hnext n hn, hholds⟩)
          · exact .inl hc
          · exact .inr (.inr hcarried)
        · exact .inr (.inl ⟨v, List.mem_append_left _ hv, hholds⟩)
      · show _ ∨ _ ∨ Carried (s.written t.op) image b ref
        simp only [FinalizerState.written]
        split
        next => exact .inr (.inr hcarried)
        next op hop =>
          rcases hi.carried_run (ht.safe op hop) h hcarried with hc | hcarried
          · exact .inl (hc.mono hsub)
          · exact .inr (.inr hcarried)

/-! ### Turns that hold no artifact -/

section Turns

variable {i : Nat} {a : Answer} {t : Turn}

/-- A turn of a worker that holds no artifact and receives none. -/
theorem TurnOk.quiet {w : Worker} (hholds : ∀ image b, ¬w.holds image b)
    (hevents : ∀ image b ref, Event.received image b ref ∉ t.events) (safe : t.Safe name s)
    (next : ∀ n, t.next = some n → WorkerOk (s.take i t) n)
    (spawned : ∀ n ∈ t.spawned, WorkerOk (s.take i t) n) : TurnOk name kept s i w t where
  safe := safe
  next := next
  spawned := spawned
  received _ _ _ h := absurd h (hevents _ _ _)
  single _ _ _ _ _ _ h := absurd h (hevents _ _ _)
  hand _ _ _ h := absurd h (hholds _ _)

variable {k : Option Bool → Turn} {b : ImageBuildTable} {w : WriteAnswer}

theorem issue_op {op' : StoreOp} (h : (issue b op w k).op = some op') : op' = op := by
  unfold issue at h
  simp only at h
  split at h
  next => exact (Option.some.inj h).symm
  next => cases h

/-- A turn that issues one statement is as safe as the statement. -/
theorem Turn.Safe.issue (h : OpSafe name s op) : (ImageBuilds.issue b op w k).Safe name s := by
  intro op' hop
  rw [issue_op hop]
  exact h

theorem Turn.Safe.none (h : t.op = none) : t.Safe name s := by
  intro op hop
  rw [h] at hop
  cases hop

/-- A worker that ends leaves none behind. -/
theorem Turn.ends {P : Worker → Prop} (h : t.next = none) : ∀ n, t.next = some n → P n := by
  intro n hn
  rw [h] at hn
  cases hn

theorem cleanupTerminalBuild_ok {w : Worker} (hholds : ∀ image b, ¬w.holds image b)
    (target : ImageBuildRow) : TurnOk name kept s i w (cleanupTerminalBuild target) := by
  unfold cleanupTerminalBuild
  split
  next => exact .quiet hholds (by simp) (.none rfl) (Turn.ends rfl) (by simp)
  next session _ =>
    split
    next => exact .quiet hholds (by simp) (.none rfl) (Turn.ends rfl) (by simp)
    next => exact .quiet hholds (by simp) (.none rfl) (by rintro n ⟨⟩; trivial) (by simp)

theorem CleanupStage.turn_ok {stage : CleanupStage} (h : stage.turn s.builds a = some t) :
    TurnOk name kept s i (.cleanup stage) t := by
  have hholds : ∀ image b, ¬(Worker.cleanup stage).holds image b := fun _ _ h => h
  unfold CleanupStage.turn at h
  split at h
  next target _ =>
    cases h
    exact cleanupTerminalBuild_ok hholds target
  next target session =>
    cases h
    exact .quiet hholds (by simp) (.none rfl) (by rintro n ⟨⟩; trivial) (by simp)
  next =>
    cases h
    exact .quiet hholds (by simp) (.none rfl) (Turn.ends rfl) (by simp)
  next target session w =>
    cases h
    exact .quiet hholds (by simp [issue]) (.issue trivial) (Turn.ends rfl) (by simp [issue])
  next => cases h

theorem reapCommit_isReap (row : ImageBuildRow) : IsReap (reapCommit row) row.providerImageId := by
  unfold reapCommit
  split
  · exact ⟨row.id, .inl rfl⟩
  · exact ⟨row.id, .inr rfl⟩

/-- A terminal action of the reaper is safe once the provider has deleted the artifact. -/
theorem IsReap.safe {image : Option ArtifactId} (h : IsReap op image)
    (hdel : ∀ X, image = some X → .deleted X ∈ s.history) : OpSafe name s op := by
  obtain ⟨id, rfl | rfl⟩ := h
  · exact hdel
  · exact hdel

theorem ReapStage.turn_ok {stage : ReapStage} (hw : WorkerOk s (.reap stage))
    (h : stage.turn s.builds a = some t) : TurnOk name kept s i (.reap stage) t := by
  have hholds : ∀ image b, ¬(Worker.reap stage).holds image b := fun _ _ h => h
  unfold ReapStage.turn at h
  split at h
  next row _ =>
    split at h
    next hnone =>
      cases h
      refine .quiet hholds (by simp) (.none rfl) ?_ (by simp)
      rintro n ⟨⟩
      exact ⟨none, hnone ▸ reapCommit_isReap row, fun X hX => by cases hX⟩
    next image hsome =>
      cases h
      refine .quiet hholds (by simp) (.none rfl) ?_ (by simp)
      rintro n ⟨⟩
      show IsReap _ _
      exact hsome ▸ reapCommit_isReap row
  next image commit =>
    cases h
    refine .quiet hholds (by simp) (.none rfl) ?_ (by simp)
    rintro n ⟨⟩
    refine ⟨some image, hw, ?_⟩
    rintro X ⟨⟩
    simp [FinalizerState.take]
  next =>
    cases h
    exact .quiet hholds (by simp) (.none rfl) (Turn.ends rfl) (by simp)
  next commit w =>
    cases h
    obtain ⟨image, hreap, hdel⟩ := hw
    exact .quiet hholds (by simp [issue]) (.issue (hreap.safe hdel)) (Turn.ends rfl) (by simp [issue])
  next => cases h

theorem ReconcileStage.turn_ok {stage : ReconcileStage} (hw : WorkerOk s (.reconcile stage))
    (h : stage.turn s.builds a = some t) : TurnOk name kept s i (.reconcile stage) t := by
  have hholds : ∀ image b, ¬(Worker.reconcile stage).holds image b := fun _ _ h => h
  have hend : TurnOk name kept s i (.reconcile stage) {} :=
    .quiet hholds (by simp) (.none rfl) (Turn.ends rfl) (by simp)
  unfold ReconcileStage.turn at h
  split at h
  next row now =>
    split at h
    next =>
      cases h
      exact hend
    next ref _ =>
      cases h
      exact .quiet hholds (by simp) (.none rfl) (by rintro n ⟨⟩; trivial) (by simp)
  next row ref now outcome =>
    have hsettled : ∀ next : Turn, next =
        { next := some (.reconcile (.clearing row ref)), events := [.settled ref] } →
        TurnOk name kept s i (.reconcile (.calling row ref now)) next := by
      rintro _ rfl
      refine .quiet hholds (by simp) (.none rfl) ?_ (by simp)
      rintro n ⟨⟩
      exact List.mem_append_left _ (List.mem_singleton_self _)
    split at h
    next =>
      cases h
      exact hend
    next =>
      split at h
      next =>
        cases h
        exact hend
      next =>
        cases h
        exact hsettled _ rfl
    next =>
      cases h
      exact hsettled _ rfl
  next =>
    cases h
    exact hend
  next row ref w =>
    cases h
    exact .quiet hholds (by simp [issue]) (.issue hw) (Turn.ends rfl) (by simp [issue])
  next => cases h

variable {stage : TriggerStage}

/-- A trigger's workers are always in order, and it holds no artifact. -/
theorem Trigger.turn_quiet {g : Trigger}
    (hev : ∀ image b ref, Event.received image b ref ∉ t.events) (hsafe : t.Safe name s)
    (hnext : ∀ n, t.next = some n → ∃ st, n = .trigger g st) (hspawned : t.spawned = []) :
    TurnOk name kept s i (.trigger g stage) t := by
  refine .quiet (fun _ _ h => h) hev hsafe ?_ (by simp [hspawned])
  intro n hn
  obtain ⟨st, rfl⟩ := hnext n hn
  trivial

theorem Trigger.cleanupFailedBuild_ok {g : Trigger} (session : Option SessionId) :
    TurnOk name kept s i (.trigger g stage) (g.cleanupFailedBuild session) := by
  cases session with
  | none => exact turn_quiet (by simp [cleanupFailedBuild]) (.none rfl) (Turn.ends rfl) rfl
  | some id =>
    exact turn_quiet (by simp [cleanupFailedBuild]) (.none rfl) (by rintro n ⟨⟩; exact ⟨_, rfl⟩) rfl

theorem Trigger.turn_ok {g : Trigger} (h : g.turn s.builds stage a = some t) :
    TurnOk name kept s i (.trigger g stage) t := by
  have hend : ∀ {st : TriggerStage}, TurnOk name kept s i (.trigger g st) {} :=
    turn_quiet (by simp) (.none rfl) (Turn.ends rfl) rfl
  have hgo : ∀ {st : TriggerStage} (st' : TriggerStage),
      TurnOk name kept s i (.trigger g st) { next := some (.trigger g st') } :=
    fun st' => turn_quiet (by simp) (.none rfl) (by rintro n ⟨⟩; exact ⟨st', rfl⟩) rfl
  unfold Trigger.turn at h
  split at h
  next =>
    split at h
    next =>
      cases h
      exact hend
    next =>
      cases h
      exact hgo _
  next =>
    cases h
    exact hgo _
  next =>
    cases h
    exact hgo _
  next w =>
    cases h
    refine turn_quiet ?_ (.issue trivial) ?_ ?_
    · simp only [issue]
      split <;> simp
    · intro n hn
      simp only [issue] at hn
      split at hn <;>
      · cases hn
        exact ⟨_, rfl⟩
    · simp only [issue]
      split <;> rfl
  next session id w =>
    cases h
    exact turn_quiet (by simp [issue]) (.issue trivial) (by rintro n ⟨⟩; exact ⟨_, rfl⟩) rfl
  next =>
    cases h
    exact hend
  next =>
    cases h
    exact hgo _
  next session error w =>
    cases h
    have hclean : (g.cleanupFailedBuild session).spawned = [] ∧
        (∀ image b ref, Event.received image b ref ∉ (g.cleanupFailedBuild session).events) ∧
        ∀ n, (g.cleanupFailedBuild session).next = some n → ∃ st, n = .trigger g st := by
      cases session with
      | none => exact ⟨rfl, by simp [cleanupFailedBuild], Turn.ends rfl⟩
      | some id => exact ⟨rfl, by simp [cleanupFailedBuild], by rintro n ⟨⟩; exact ⟨_, rfl⟩⟩
    refine turn_quiet ?_ (.issue trivial) ?_ ?_
    · simp only [issue]
      split
      · simp
      · exact hclean.2.1
      · simp
    · intro n hn
      simp only [issue] at hn
      split at hn
      · cases hn
      · exact hclean.2.2 n hn
      · cases hn
        exact ⟨_, rfl⟩
    · simp only [issue]
      split
      · rfl
      · exact hclean.1
      · rfl
  next session _ =>
    split at h
    next =>
      cases h
      exact hend
    next =>
      split at h
      next =>
        cases h
        exact hend
      next =>
        split at h
        next =>
          cases h
          exact cleanupFailedBuild_ok session
        next =>
          cases h
          exact hend
  next =>
    cases h
    exact hend
  next =>
    cases h
    exact hend
  next => cases h

/-! ### Turns of a delivery -/

variable {token : LeaseToken} {f : Finalization} {image : ArtifactId}

/-- The stages without an artifact and without a claim about the row. -/
def ProcessStage.plain : ProcessStage → Bool
  | .attempting _ | .marking _ _ | .recording _ _ | .checkingRecord _ _ _ | .compensating _ _ _
  | .releasingCompensated _ _ _ | .quarantining _ _ _ => false
  | _ => true

variable {stage : ProcessStage}

theorem StageOk.of_plain (h : stage.plain = true) : StageOk s stage := by
  cases stage with
  | attempting f => cases h
  | marking call stage => cases h
  | recording f image => cases h
  | checkingRecord f image error => cases h
  | compensating f image error => cases h
  | releasingCompensated f image error => cases h
  | quarantining f image error => cases h
  | _ =>
    intro f image hf
    cases hf

theorem WorkerOk.of_plain (h : stage.plain = true) :
    WorkerOk s (.process token stage) :=
  StageOk.of_plain h

theorem ProcessStage.not_holds (h : stage.hand = none) (image : ArtifactId) (b : BuildId) :
    ¬(Worker.process token stage).holds image b := by
  rintro ⟨f, hf, _⟩
  rw [h] at hf
  cases hf

/-- A delivery's stage keeps its artifact in hand. -/
theorem Worker.holds_of_hand {stage stage' : ProcessStage} (h : stage'.hand = stage.hand)
    {b : BuildId} (hholds : (Worker.process token stage).holds image b) :
    (Worker.process token stage').holds image b := by
  obtain ⟨f, hf, hb⟩ := hholds
  exact ⟨f, h.trans hf, hb⟩

/-- The marking call a delivery begins once the artifact is on its row. -/
theorem StageOk.marking {st : FinalizerState} {r : ImageBuildRow} (hr : r ∈ st.builds.rows)
    (hid : r.id = f.key.buildId) (himage : r.providerImageId = some image)
    (hissued : f.key.buildId ∈ st.issued) (stage : MarkReadyStage) :
    StageOk st (.marking (f.markReady image) stage) := by
  refine ⟨hissued, ?_⟩
  intro x hx hxid _
  rw [row_unique hx hr (hxid.trans hid.symm)]
  exact himage

theorem ProcessStage.read_ok (job : ImageBuildFinalizationJob) (now : Millis) :
    TurnOk name kept s i (.process token (.reading job)) (read s.builds token job now) := by
  have hholds := @not_holds token (.reading job) rfl
  have hend : TurnOk name kept s i (.process token (.reading job)) {} :=
    .quiet hholds (by simp) (.none rfl) (Turn.ends rfl) (by simp)
  unfold read
  split
  next => exact hend
  next build _ =>
    split
    next => exact hend
    next =>
      split
      next => exact cleanupTerminalBuild_ok hholds build
      next =>
        split
        next => exact hend
        next =>
          refine .quiet hholds (by simp) (.none rfl) ?_ (by simp)
          rintro n ⟨⟩
          exact WorkerOk.of_plain rfl

theorem ProcessStage.reread_ok (hi : Tracked name kept s) (job : ImageBuildFinalizationJob)
    (expired : Bool) :
    TurnOk name kept s i (.process token (.rereading job expired))
      (reread s.builds token job expired) := by
  have hholds := @not_holds token (.rereading job expired) rfl
  have hend : TurnOk name kept s i (.process token (.rereading job expired)) {} :=
    .quiet hholds (by simp) (.none rfl) (Turn.ends rfl) (by simp)
  unfold reread
  split
  next => exact hend
  next build hbuild =>
    have hmem := Table.mem_of_get? hbuild
    split
    next => exact hend
    next =>
      split
      next => exact hend
      next session _ =>
        dsimp only
        split
        next image himage =>
          refine .quiet hholds (by simp) (.none rfl) ?_ (by simp)
          rintro n ⟨⟩
          exact StageOk.marking (f := build.finalization token job.completionHash session) hmem
            rfl himage (hi.issued build hmem) .selecting
        next =>
          split
          next =>
            refine .quiet hholds (by simp) (.none rfl) ?_ (by simp)
            rintro n ⟨⟩
            exact WorkerOk.of_plain rfl
          next =>
            refine .quiet hholds (by simp) (.none rfl) ?_ (by simp)
            rintro n ⟨⟩
            exact hi.issued build hmem

/-- A statement of a delivery that leads to plain stages only. -/
theorem ProcessStage.issue_plain {op' : StoreOp} (hhand : stage.hand = none)
    (hop : OpSafe name s op') (hev : ∀ r image b ref, Event.received image b ref ∉ (k r).events)
    (hspawned : ∀ r, (k r).spawned = [])
    (hnext : ∀ r n, (k r).next = some n → ∃ stage', n = .process token stage' ∧ stage'.plain = true)
    :
    TurnOk name kept s i (.process token stage) (issue s.builds op' w k) := by
  refine .quiet (not_holds hhand) (fun image b ref => hev _ image b ref) (.issue hop) ?_ ?_
  · intro n hn
    obtain ⟨stage', rfl, hplain⟩ := hnext _ n hn
    exact WorkerOk.of_plain hplain
  · intro n hn
    simp only [issue, hspawned] at hn
    cases hn

theorem ProcessStage.fail_ok (failure : AttemptFailure) (error : String) :
    TurnOk name kept s i (.process token (.attempting f)) (fail token f failure error) := by
  refine .quiet (not_holds rfl) ?_ (.none ?_) ?_ ?_
  · cases failure <;> simp [fail]
  · cases failure <;> rfl
  · intro n hn
    cases failure <;>
    · cases hn
      exact WorkerOk.of_plain rfl
  · cases failure <;> simp [fail]

theorem deleteReplacedImages_ok (replaced : List SupersededImageBuild) (st : FinalizerState) :
    ∀ n ∈ (deleteReplacedImages replaced).1, WorkerOk st n := by
  intro n hn
  simp only [deleteReplacedImages, List.mem_map] at hn
  obtain ⟨b, _, rfl⟩ := hn
  exact ⟨b.1, .inr rfl⟩

theorem deleteReplacedImages_events (replaced : List SupersededImageBuild) (image : ArtifactId)
    (b : BuildId) (ref : Option OperationRef) :
    Event.received image b ref ∉ (deleteReplacedImages replaced).2 := by
  simp [deleteReplacedImages]

/-- What follows a statement of `tryMarkImageBuildReady`. -/
theorem ProcessStage.mark_facts (b : ImageBuildTable) (call : MarkReady)
    (stage : MarkReadyStage) :
    (mark b token call stage).op = none ∧
      (∀ image b' ref, Event.received image b' ref ∉ (mark b token call stage).events) ∧
      (∀ n, (mark b token call stage).next = some n →
        (∃ stage', n = .process token (.marking call stage')) ∨
        ∃ stage', n = .process token stage' ∧ stage'.plain = true) ∧
      ∀ st, ∀ n ∈ (mark b token call stage).spawned, WorkerOk st n := by
  unfold mark
  split
  next stage' _ =>
    exact ⟨rfl, by simp, by rintro n ⟨⟩; exact .inl ⟨stage', rfl⟩, by simp⟩
  next result _ =>
    cases result with
    | notAcceptingCompletion =>
      exact ⟨rfl, by simp [marked], by rintro n ⟨⟩; exact .inr ⟨_, rfl, rfl⟩, by simp [marked]⟩
    | markedReady images =>
      exact ⟨rfl, deleteReplacedImages_events images, by rintro n ⟨⟩; exact .inr ⟨_, rfl, rfl⟩,
        fun st => deleteReplacedImages_ok images st⟩
    | supersededByNewerReady old =>
      exact ⟨rfl, deleteReplacedImages_events [old], by rintro n ⟨⟩; exact .inr ⟨_, rfl, rfl⟩,
        fun st => deleteReplacedImages_ok [old] st⟩

/-- A statement of `tryMarkImageBuildReady` under the account. -/
theorem ProcessStage.marking_ok {call : MarkReady} {stage : MarkReadyStage} {t : Turn}
    (hw : StageOk s (.marking call stage)) (hop : ∀ op', t.op = some op' → op' = .markReady call stage)
    (hrest : (t.next = none ∧ t.events = [] ∧ t.spawned = []) ∨
      ∃ b, t.next = (mark b token call stage).next ∧ t.events = (mark b token call stage).events ∧
        t.spawned = (mark b token call stage).spawned) :
    TurnOk name kept s i (.process token (.marking call stage)) t := by
  have hsafe : t.Safe name s := by
    intro op' hop'
    rw [hop op' hop']
    exact hw.2
  rcases hrest with ⟨hnext, hev, hspawned⟩ | ⟨b, hnext, hev, hspawned⟩
  · exact .quiet (not_holds rfl) (by simp [hev]) hsafe (Turn.ends hnext) (by simp [hspawned])
  · obtain ⟨_, hevents, hnexts, hspawn⟩ := @mark_facts token b call stage
    refine .quiet (not_holds rfl) (by rw [hev]; exact hevents) hsafe ?_ ?_
    · intro n hn
      rcases hnexts n (hnext.symm.trans hn) with ⟨stage', rfl⟩ | ⟨stage', rfl, hplain⟩
      · exact WorkerOk.mono (w := .process token (.marking call stage')) (.take hsafe i) hw
      · exact WorkerOk.of_plain hplain
    · rw [hspawned]
      exact hspawn _

/-- A turn that keeps the artifact in hand. -/
theorem TurnOk.keep {stage n : ProcessStage} (hhand : n.hand = stage.hand)
    (hnext : t.next = some (.process token n)) (hok : StageOk (s.take i t) n)
    (hev : ∀ image b ref, Event.received image b ref ∉ t.events) (hsafe : t.Safe name s)
    (hspawned : t.spawned = []) : TurnOk name kept s i (.process token stage) t where
  safe := hsafe
  next w hw := by
    rw [hnext] at hw
    cases hw
    exact hok
  spawned n hn := by
    rw [hspawned] at hn
    cases hn
  received _ _ _ h := absurd h (hev _ _ _)
  single _ _ _ _ _ _ h := absurd h (hev _ _ _)
  hand _ _ _ hholds _ _ := .inl ⟨_, hnext, Worker.holds_of_hand hhand hholds⟩

/-- A turn after which the artifact in hand is accounted for. -/
theorem TurnOk.account (hhand : stage.hand = some (f, image))
    (hev : ∀ image b ref, Event.received image b ref ∉ t.events) (hsafe : t.Safe name s)
    (hnext : ∀ n, t.next = some n → WorkerOk (s.take i t) n) (hspawned : t.spawned = [])
    (hdone : kept image → ∀ ref, .received image f.key.buildId ref ∈ s.history →
      Confirmed (t.events ++ s.history) image ref ∨
        Carried (s.written t.op) image f.key.buildId ref) :
    TurnOk name kept s i (.process token stage) t where
  safe := hsafe
  next := hnext
  spawned n hn := by
    rw [hspawned] at hn
    cases hn
  received _ _ _ h := absurd h (hev _ _ _)
  single _ _ _ _ _ _ h := absurd h (hev _ _ _)
  hand X hkept b hholds ref hrec := by
    obtain ⟨f', hf, hb⟩ := hholds
    rw [hhand] at hf
    cases hf
    subst hb
    exact .inr (hdone hkept ref hrec)

/-- After a `recordArtifact` that had an effect, the row shows the artifact. -/
theorem recordArtifact_row (hc : (StoreOp.recordArtifact f.key token image).write.changes b = true)
    :
    ∃ x ∈ ((StoreOp.recordArtifact f.key token image).write.run b).rows,
      x.id = f.key.buildId ∧ x.providerImageId = some image := by
  obtain ⟨r, hr, ht⟩ := (Write.changes_iff rfl fun _ => rfl).mp hc
  have hrow := Write.row_of_touches (w := (StoreOp.recordArtifact f.key token image).write) ht rfl
  refine ⟨_, Write.mem_run_of_row hr hrow, ?_, rfl⟩
  simp only [StoreOp.write, ImageBuilds.recordArtifact, decide_eq_true_eq] at ht
  exact ImageBuildRow.names_id ht.1

theorem quarantineArtifact_row {b : ImageBuildTable} {error : String}
    (h : Quarantinable b f.key) :
    ∃ x ∈ ((StoreOp.quarantineArtifact f.key image error).write.run b).rows,
      x.id = f.key.buildId ∧ x.providerImageId = some image := by
  obtain ⟨r, hr, hnames, hnone, hstatus⟩ := h
  have ht : (StoreOp.quarantineArtifact f.key image error).write.touches b r = true := by
    simp only [StoreOp.write, ImageBuilds.quarantineArtifact, decide_eq_true_eq]
    refine ⟨hnames, hnone, ?_⟩
    cases hs : r.status with
    | building => exact .inl rfl
    | ready => exact absurd hs hstatus
    | failed => exact .inr rfl
    | superseded => exact .inr rfl
  have hrow := Write.row_of_touches
    (w := (StoreOp.quarantineArtifact f.key image error).write) ht rfl
  exact ⟨_, Write.mem_run_of_row hr hrow, ImageBuildRow.names_id hnames, rfl⟩

theorem ProcessStage.recording_ok (hi : Tracked name kept s) (w : WriteAnswer)
    (hw : StageOk s (.recording f image))
    (h : turn s.builds token (.recording f image) (.written w) = some t) :
    TurnOk name kept s i (.process token (.recording f image)) t := by
  have hrec := hw f image rfl
  have hsafe : OpSafe name s (.recordArtifact f.key token image) := ⟨f.ref, hrec⟩
  have hissued := (hi.received _ _ _ hrec).1
  simp only [turn, Option.some.injEq] at h
  subst h
  have hev : ∀ X b ref, Event.received X b ref ∉
      (if tookEffect s.builds (.recordArtifact f.key token image) w then
        [Event.persisted token] else []) := by
    intro X b ref
    split <;> simp
  cases w with
  | answered =>
    by_cases hc : (StoreOp.recordArtifact f.key token image).write.changes s.builds = true
    · obtain ⟨x, hx, hid, himage⟩ := recordArtifact_row hc
      refine @TurnOk.account _ _ _ _ _ _ f image _ rfl ?_ (.issue hsafe) ?_ (by simp [issue, hc])
        fun _ ref _ => .inr ⟨x, hx, hid, .inl himage⟩
      · simpa only [issue, hc] using hev
      · intro n hn
        simp only [issue, hc, Option.some.injEq] at hn
        subst hn
        exact @StageOk.marking _ _ (s.take _ _) _ hx hid himage hissued .selecting
    · have hcf : (StoreOp.recordArtifact f.key token image).write.changes s.builds = false := by
        simpa using hc
      refine .keep (n := .checkingRecord f image _) rfl (by simp only [issue, hcf]; rfl) ?_ ?_
        (.issue hsafe) (by simp [issue, hcf])
      · rintro f' X ⟨⟩
        exact List.mem_append_right _ hrec
      · simpa only [issue, hcf] using hev
  | lost =>
    refine .keep (n := .checkingRecord f image _) rfl rfl ?_ ?_ (.issue hsafe) rfl
    · rintro f' X ⟨⟩
      exact List.mem_append_right _ hrec
    · simpa only [issue] using hev
  | refused =>
    refine .keep (n := .checkingRecord f image _) rfl rfl ?_ ?_ (.issue hsafe) rfl
    · rintro f' X ⟨⟩
      exact List.mem_append_right _ hrec
    · simpa only [issue] using hev

theorem ProcessStage.checkingRecord_ok (hi : Tracked name kept s) {error : String} {now : Millis}
    (hw : StageOk s (.checkingRecord f image error))
    (h : turn s.builds token (.checkingRecord f image error) (.row now) = some t) :
    TurnOk name kept s i (.process token (.checkingRecord f image error)) t := by
  have hrec := hw f image rfl
  simp only [turn] at h
  split at h
  next hany =>
    cases h
    obtain ⟨r, hr, himage⟩ := (Option.any_eq_true _ _).mp hany
    have himage : r.providerImageId = some image := of_decide_eq_true himage
    have hmem := Table.mem_of_get? hr
    have hid := Table.key_of_get? hr
    refine @TurnOk.account _ _ _ _ _ _ f image _ rfl (by simp) (.none rfl) ?_ rfl
      fun _ ref _ => .inr ⟨r, hmem, hid, .inl himage⟩
    rintro n ⟨⟩
    exact @StageOk.marking _ _ (s.take _ _) _ hmem hid himage (hi.received _ _ _ hrec).1 .selecting
  next =>
    cases h
    refine .keep (n := .compensating f image error) rfl rfl ?_ (by simp) (.none rfl) rfl
    rintro f' X ⟨⟩
    exact List.mem_append_right _ hrec

theorem ProcessStage.quarantining_ok (hi : Tracked name kept s) {error : String}
    (hw : StageOk s (.quarantining f image error))
    (hhold : kept image → (w.applied = true ∧ Quarantinable s.builds f.key) ∨
      Confirmed s.history image f.ref ∨ Carried s.builds image f.key.buildId f.ref)
    (h : turn s.builds token (.quarantining f image error) (.written w) = some t) :
    TurnOk name kept s i (.process token (.quarantining f image error)) t := by
  have hrec := hw f image rfl
  have hsafe : OpSafe name s (.quarantineArtifact f.key image error) := ⟨f.ref, hrec⟩
  simp only [turn, Option.some.injEq] at h
  subst h
  refine @TurnOk.account _ _ _ _ _ _ f image _ rfl ?_ (.issue hsafe) (Turn.ends rfl) rfl ?_
  · intro X b ref
    simp only [issue]
    split <;> simp
  · intro hkept ref hrec'
    have href : ref = f.ref := (hi.received _ _ _ hrec').2.trans (hi.received _ _ _ hrec).2.symm
    subst href
    rcases hhold hkept with ⟨happlied, hq⟩ | hc | hcarried
    · obtain ⟨x, hx, hid, himage⟩ := @quarantineArtifact_row _ image _ error hq
      refine .inr ⟨x, ?_, hid, .inl himage⟩
      simpa only [issue, happlied, if_true, FinalizerState.written] using hx
    · exact .inl (hc.mono fun _ h => List.mem_append_right _ h)
    · cases happlied : w.applied with
      | false =>
        right
        simpa only [issue, happlied, Bool.false_eq_true, if_false, FinalizerState.written]
          using hcarried
      | true =>
        rcases hi.carried_run hsafe hrec hcarried with hc | hcarried
        · exact .inl (hc.mono fun _ h => List.mem_append_right _ h)
        · right
          simpa only [issue, happlied, if_true, FinalizerState.written] using hcarried

theorem ProcessStage.turn_ok (hi : Tracked name kept s)
    (hget : s.workers[i]? = some (.process token stage)) (hw : StageOk s stage)
    (hprov : ProviderKeeps name s (.work i a)) (hq : QuarantineHolds kept s (.work i a))
    (h : stage.turn s.builds token a = some t) : TurnOk name kept s i (.process token stage) t := by
  cases stage with
  | reading job =>
    cases a with
    | row now =>
      cases h
      exact read_ok job now
    | _ => cases h
  | claiming job now expired =>
    cases a with
    | written w =>
      cases h
      refine issue_plain rfl trivial ?_ ?_ ?_
      · rintro (_ | _ | _) <;> simp
      · rintro (_ | _ | _) <;> rfl
      · rintro (_ | _ | _) n hn <;> cases hn
        exact ⟨_, rfl, rfl⟩
    | _ => cases h
  | rereading job expired =>
    cases a with
    | row now =>
      cases h
      exact reread_ok hi job expired
    | _ => cases h
  | attempting f =>
    cases a with
    | reserve ref deadlineAt w =>
      cases h
      have hname := hprov f (by simp [FinalizerState.attemptAt, hget])
      refine .quiet (not_holds rfl) ?_ (.issue hname) ?_ ?_
      · intro X b ref'
        simp only [issue]
        split <;> simp
      · intro n hn
        simp only [issue] at hn
        split at hn <;>
        · cases hn
          exact hw
      · intro n hn
        simp only [issue] at hn
        split at hn <;> cases hn
    | artifact image =>
      cases h
      obtain ⟨href, hunique⟩ := hprov f (by simp [FinalizerState.attemptAt, hget])
      have hnew : .received image f.key.buildId f.ref ∈ (s.take i
          { next := some (.process token (.recording f image))
            events := [.received image f.key.buildId f.ref] }).history :=
        List.mem_append_left _ (List.mem_singleton_self _)
      refine ⟨.none rfl, ?_, by simp, ?_, ?_, fun _ _ _ h => absurd h (not_holds rfl _ _)⟩
      · rintro n ⟨⟩ f' X ⟨⟩
        exact hnew
      · intro X b ref hmem
        obtain ⟨rfl, rfl, rfl⟩ : X = image ∧ b = f.key.buildId ∧ ref = f.ref := by
          simpa using hmem
        refine ⟨hw, href, ⟨_, rfl, f, rfl, rfl⟩, ?_⟩
        intro other b' f' hf' hother
        exact (hunique _ hother _ rfl (by simp) hf'.symm).symm
      · intro X b ref X' b' ref' hX hX'
        have h1 : X = image := by simpa using And.left (by simpa using hX)
        have h2 : X' = image := by simpa using And.left (by simpa using hX')
        rw [h1, h2]
    | failed failure aborted error =>
      cases h
      exact fail_ok _ _
    | _ => cases h
  | releasing f =>
    cases a with
    | written w =>
      cases h
      refine issue_plain rfl trivial ?_ (fun _ => rfl) (fun _ => Turn.ends rfl)
      intro _ X b ref
      dsimp only
      split <;> simp
    | _ => cases h
  | recording f image =>
    cases a with
    | written w => exact recording_ok hi w hw h
    | _ => cases h
  | checkingRecord f image error =>
    cases a with
    | row now => exact checkingRecord_ok hi hw h
    | _ => cases h
  | compensating f image error =>
    have hrec := hw f image rfl
    cases a with
    | done =>
      cases h
      refine .keep (n := .releasingCompensated f image error) rfl rfl ?_ (by simp)
        (.none rfl) rfl
      exact ⟨List.mem_append_right _ hrec, List.mem_append_left _ (by simp)⟩
    | raised cleanupError =>
      cases h
      refine .keep (n := .quarantining f image _) rfl rfl ?_ (by simp) (.none rfl) rfl
      rintro f' X ⟨⟩
      exact List.mem_append_right _ hrec
    | _ => cases h
  | releasingCompensated f image error =>
    cases a with
    | written w =>
      obtain ⟨hrec, hdel⟩ := hw
      cases h
      refine @TurnOk.account _ _ _ _ _ _ f image _ rfl ?_ (.issue trivial) ?_ ?_ ?_
      · intro X b ref
        simp only [issue]
        cases w <;> simp only <;> split <;> simp
      · intro n hn
        cases w with
        | answered => cases hn
        | lost =>
          cases hn
          rintro f' X ⟨⟩
          exact List.mem_append_right _ hrec
        | refused =>
          cases hn
          rintro f' X ⟨⟩
          exact List.mem_append_right _ hrec
      · cases w <;> rfl
      · exact fun _ ref _ => .inl (.inl (List.mem_append_right _ hdel))
    | _ => cases h
  | quarantining f image error =>
    cases a with
    | written w =>
      have hholds := hq (f, image) (by simp [FinalizerState.quarantineAt, hget])
      exact quarantining_ok hi hw hholds h
    | _ => cases h
  | failing b error =>
    cases a with
    | written w =>
      cases h
      refine issue_plain rfl trivial ?_ ?_ ?_
      · rintro (_ | _) X b ref <;> dsimp only <;> split <;> simp
      · rintro (_ | _) <;> rfl
      · rintro (_ | _) n hn <;> cases hn
        exact ⟨_, rfl, rfl⟩
    | _ => cases h
  | readingFailed b =>
    cases a with
    | row now =>
      simp only [turn] at h
      split at h
      next =>
        cases h
        exact .quiet (not_holds rfl) (by simp) (.none rfl) (Turn.ends rfl) (by simp)
      next build _ =>
        cases h
        exact cleanupTerminalBuild_ok (not_holds rfl) build
    | _ => cases h
  | marking call stage =>
    cases a with
    | row now =>
      simp only [turn] at h
      split at h
      next =>
        cases h
        have hop := (@mark_facts token s.builds call stage).1
        refine marking_ok hw ?_ (.inr ⟨s.builds, rfl, rfl, rfl⟩)
        intro op' hop'
        rw [hop] at hop'
        cases hop'
      next => cases h
    | written w =>
      simp only [turn] at h
      split at h
      next => cases h
      next =>
        cases h
        refine marking_ok hw (fun op' hop' => issue_op hop') ?_
        cases w with
        | answered => exact .inr ⟨s.builds, rfl, rfl, rfl⟩
        | lost => exact .inl ⟨rfl, rfl, rfl⟩
        | refused => exact .inl ⟨rfl, rfl, rfl⟩
    | _ => cases h
  | readingUnmarked b =>
    have hgo : TurnOk name kept s i (.process token (.readingUnmarked b))
        { next := some (.process token (.releasingUnmarked b)) } := by
      refine .quiet (not_holds rfl) (by simp) (.none rfl) ?_ (by simp)
      rintro n ⟨⟩
      exact WorkerOk.of_plain rfl
    cases a with
    | row now =>
      simp only [turn] at h
      split at h
      next =>
        cases h
        exact hgo
      next current _ =>
        split at h
        next =>
          cases h
          exact cleanupTerminalBuild_ok (not_holds rfl) current
        next =>
          cases h
          exact hgo
    | _ => cases h
  | releasingUnmarked b =>
    cases a with
    | written w =>
      cases h
      exact issue_plain rfl trivial (by simp) (fun _ => rfl) (fun _ => Turn.ends rfl)
    | _ => cases h
  | readingTerminal b =>
    cases a with
    | row now =>
      simp only [turn] at h
      split at h
      next =>
        cases h
        exact .quiet (not_holds rfl) (by simp) (.none rfl) (Turn.ends rfl) (by simp)
      next build _ =>
        cases h
        exact cleanupTerminalBuild_ok (not_holds rfl) build
    | _ => cases h

/-- **A worker's turn keeps the account.** -/
theorem Worker.turn_ok (hi : Tracked name kept s) {w : Worker} (hget : s.workers[i]? = some w)
    (hprov : ProviderKeeps name s (.work i a)) (hq : QuarantineHolds kept s (.work i a))
    (h : w.turn s.builds a = some t) : TurnOk name kept s i w t := by
  have hw := hi.workers w (List.mem_of_getElem? hget)
  cases w with
  | process token stage => exact ProcessStage.turn_ok hi hget hw hprov hq h
  | cleanup stage => exact CleanupStage.turn_ok h
  | reap stage => exact ReapStage.turn_ok hw h
  | reconcile stage => exact ReconcileStage.turn_ok hw h
  | trigger g stage => exact Trigger.turn_ok h

end Turns

/-! ## Runs -/

/-- A new worker that holds nothing joins. -/
theorem Tracked.join (hi : Tracked name kept s) {w : Worker} {tokens : List LeaseToken}
    (hw : WorkerOk s w) :
    Tracked name kept { s with tokens, workers := s.workers ++ [w] } where
  issued := hi.issued
  refs := hi.refs
  received := hi.received
  unique := hi.unique
  workers n hn := by
    have hl : Later s { s with tokens, workers := s.workers ++ [w] } :=
      ⟨fun _ h => h, fun _ h => h, fun _ _ h => h⟩
    rcases List.mem_append.mp hn with hn | hn
    · exact (hi.workers n hn).mono hl
    · rw [List.mem_singleton.mp hn]
      exact hw.mono hl
  obligations image hkept b ref h := by
    rcases hi.obligations image hkept b ref h with hc | ⟨v, hv, hholds⟩ | hcarried
    · exact .inl hc
    · exact .inr (.inl ⟨v, List.mem_append_left _ hv, hholds⟩)
    · exact .inr (.inr hcarried)

/-- A sweep lists a row as it is. -/
theorem Tracked.list (hi : Tracked name kept s) {id : BuildId} {p : ImageBuildRow → Bool}
    {w : ImageBuildRow → Worker} (hw : ∀ r, WorkerOk s (w r)) (h : s.list id p w = some s') :
    Tracked name kept s' := by
  simp only [FinalizerState.list, Option.bind_eq_bind, Option.bind_eq_some_iff,
    Option.some.injEq] at h
  obtain ⟨r, _, rfl⟩ := h
  exact hi.join (hw r)

/-- A statement of another request. -/
theorem Tracked.write (hi : Tracked name kept s) (hop : OpSafe name s op) :
    Tracked name kept { s with builds := op.write.run s.builds } where
  issued _ hx := hi.issued_run hop hx
  refs _ hx _ hf := hi.refs_run hop hx hf
  received := hi.received
  unique := hi.unique
  workers n hn := by
    have hl : Later s { s with builds := op.write.run s.builds } :=
      ⟨fun _ h => h, fun _ h => h, fun _ _ h => h.run hop⟩
    exact (hi.workers n hn).mono hl
  obligations image hkept b ref h := by
    rcases hi.obligations image hkept b ref h with hc | hheld | hcarried
    · exact .inl hc
    · exact .inr (.inl hheld)
    · rcases hi.carried_run hop h hcarried with hc | hcarried
      · exact .inl hc
      · exact .inr (.inr hcarried)

/-- A trigger registers a new build and goes on. -/
theorem Tracked.register (hi : Tracked name kept s) {g : Trigger} {w : WriteAnswer}
    (hfresh : g.build.id ∉ s.issued) :
    Tracked name kept { s with
      builds := s.written (g.register s.builds w).op
      issued := g.build.id :: s.issued
      workers := s.workers ++ (g.register s.builds w).next.toList } := by
  -- the new row is the build's, and the others stay
  have hrows : ∀ x ∈ (s.written (g.register s.builds w).op).rows,
      x ∈ s.builds.rows ∨ (x.id = g.build.id ∧ x.providerOperationRef = none) := by
    intro x hx
    simp only [FinalizerState.written] at hx
    split at hx
    next => exact .inl hx
    next op hop =>
      rw [issue_op hop] at hx
      rcases Write.of_mem_run hx with ⟨r, hr, hrow⟩ | ⟨hadd, _⟩
      · cases hrow
        exact .inl hr
      · simp only [StoreOp.write, registerBuild] at hadd
        split at hadd
        next => cases hadd
        next =>
          cases hadd
          exact .inr ⟨rfl, rfl⟩
  have hstay : ∀ r ∈ s.builds.rows, r ∈ (s.written (g.register s.builds w).op).rows := by
    intro r hr
    simp only [FinalizerState.written]
    split
    next => exact hr
    next op hop =>
      rw [issue_op hop]
      exact Write.mem_run_of_row hr rfl
  have hnext : ∀ n ∈ (g.register s.builds w).next.toList, ∃ stage, n = .trigger g stage := by
    intro n hn
    simp only [Trigger.register, issue, Option.mem_toList] at hn
    split at hn <;>
    · cases hn
      exact ⟨_, rfl⟩
  refine ⟨?_, ?_, ?_, hi.unique, ?_, ?_⟩
  · intro x hx
    rcases hrows x hx with hx | ⟨hid, _⟩
    · exact List.mem_cons_of_mem _ (hi.issued x hx)
    · rw [hid]
      exact List.mem_cons_self
  · intro x hx f hf
    rcases hrows x hx with hx | ⟨_, hnone⟩
    · exact hi.refs x hx f hf
    · rw [hnone] at hf
      cases hf
  · intro image b ref h
    obtain ⟨hb, href⟩ := hi.received image b ref h
    exact ⟨List.mem_cons_of_mem _ hb, href⟩
  · intro n hn
    rcases List.mem_append.mp hn with hn | hn
    · refine (hi.workers n hn).mono ⟨fun _ h => List.mem_cons_of_mem _ h, fun _ h => h, ?_⟩
      intro call hcall hshows x hx hid
      rcases hrows x hx with hx | ⟨hxid, _⟩
      · exact hshows x hx hid
      · exact absurd (hxid.symm.trans hid ▸ hcall) hfresh
    · obtain ⟨stage, rfl⟩ := hnext n hn
      trivial
  · intro image hkept b ref h
    rcases hi.obligations image hkept b ref h with hc | ⟨v, hv, hholds⟩ | ⟨r, hr, hcarries⟩
    · exact .inl hc
    · exact .inr (.inl ⟨v, List.mem_append_left _ hv, hholds⟩)
    · exact .inr (.inr ⟨r, hstay r hr, hcarries⟩)

variable {a : FinalizerStep}

/-- **One step keeps the account.** -/
theorem Tracked.step (hi : Tracked name kept s) (hok : KeepsArtifacts name kept s a)
    (h : s.step a = some s') : Tracked name kept s' := by
  cases a with
  | trigger g w =>
    simp only [FinalizerState.step] at h
    split at h
    next => cases h
    next hfresh =>
      cases h
      exact hi.register hfresh
  | deliver job token =>
    simp only [FinalizerState.step] at h
    split at h
    next => cases h
    next =>
      cases h
      exact hi.join (WorkerOk.of_plain rfl)
  | listReapable id => exact hi.list (w := fun r => .reap (.queued r)) (fun _ => trivial) h
  | listSessionCleanup id =>
    exact hi.list (w := fun r => .cleanup (.queued r)) (fun _ => trivial) h
  | listUnresolvedOperations id =>
    exact hi.list (w := fun r => .reconcile (.queued r)) (fun _ => trivial) h
  | write op =>
    simp only [FinalizerState.step] at h
    split at h
    next hop =>
      cases h
      exact hi.write (.of_elsewhere hop)
    next => cases h
  | work i a =>
    simp only [FinalizerState.step, Option.bind_eq_bind, Option.bind_eq_some_iff,
      Option.some.injEq] at h
    obtain ⟨w, hget, t, ht, rfl⟩ := h
    exact hi.take hget (Worker.turn_ok hi hget hok.1 hok.2 ht)

theorem Tracked.of_reachable (h : finalization.Reachable (KeepsArtifacts name kept) {} s) :
    Tracked name kept s :=
  h.inv (Tracked name kept) (.init name kept) fun _ _ _ hi hok hstep => hi.step hok hstep

/-- What a step does to the table. -/
theorem Tracked.statement (hi : Tracked name kept s) (hok : KeepsArtifacts name kept s a)
    (h : s.step a = some s') :
    s'.builds = s.builds ∨ ∃ op, s'.builds = op.write.run s.builds ∧
      ((∃ build now, op = .registerBuild build now) ∨ OpSafe name s op) := by
  have hlist : ∀ {id p w}, s.list id p w = some s' → s'.builds = s.builds := by
    intro id p w hl
    simp only [FinalizerState.list, Option.bind_eq_bind, Option.bind_eq_some_iff,
      Option.some.injEq] at hl
    obtain ⟨r, _, rfl⟩ := hl
    rfl
  have hwritten : ∀ op : Option StoreOp, s.written op = s.builds ∨
      ∃ o, op = some o ∧ s.written op = o.write.run s.builds := by
    rintro (_ | op)
    · exact .inl rfl
    · exact .inr ⟨op, rfl, rfl⟩
  cases a with
  | trigger g w =>
    simp only [FinalizerState.step] at h
    split at h
    next => cases h
    next =>
      cases h
      rcases hwritten (g.register s.builds w).op with hs | ⟨op, hop, hs⟩
      · exact .inl hs
      · exact .inr ⟨op, hs, .inl ⟨_, _, issue_op hop⟩⟩
  | deliver job token =>
    simp only [FinalizerState.step] at h
    split at h
    next => cases h
    next =>
      cases h
      exact .inl rfl
  | listReapable id => exact .inl (hlist h)
  | listSessionCleanup id => exact .inl (hlist h)
  | listUnresolvedOperations id => exact .inl (hlist h)
  | write op =>
    simp only [FinalizerState.step] at h
    split at h
    next hop =>
      cases h
      exact .inr ⟨op, rfl, .inr (.of_elsewhere hop)⟩
    next => cases h
  | work i a =>
    simp only [FinalizerState.step, Option.bind_eq_bind, Option.bind_eq_some_iff,
      Option.some.injEq] at h
    obtain ⟨w, hget, t, ht, rfl⟩ := h
    rcases hwritten t.op with hs | ⟨op, hop, hs⟩
    · exact .inl hs
    · exact .inr ⟨op, hs, .inr ((Worker.turn_ok hi hget hok.1 hok.2 ht).safe op hop)⟩

/-- A row is removed only when it owes nothing that the provider has not confirmed. -/
theorem Tracked.removed (hi : Tracked name kept s) (hok : KeepsArtifacts name kept s a)
    (h : s.step a = some s') {r : ImageBuildRow} (hr : r ∈ s.builds.rows)
    (hgone : s'.builds.get? r.id = none) :
    r.providerOperationRef = none ∧ r.noProviderSessionObligation = true ∧
      ∀ image, r.providerImageId = some image → .deleted image ∈ s.history := by
  rcases hi.statement hok h with hs | ⟨op, hs, hop⟩
  · rw [hs, Table.mem_rows_iff.mp hr] at hgone
    cases hgone
  · rw [hs, op.write.get?_run, Table.mem_rows_iff.mp hr, Option.bind_some,
      Option.or_eq_none_iff] at hgone
    have hrem := op.row_removed hgone.1
    refine ⟨hrem.operation, hrem.session, ?_⟩
    intro image himage
    rcases hrem.artifact with hnone | ⟨_, rfl⟩
    · rw [himage] at hnone
      cases hnone
    · rcases hop with ⟨_, _, hop⟩ | hop
      · cases hop
      · exact hop image himage

/-- A build is triggered, completes, and its delivery makes an attempt. -/
def attemptStarted : List FinalizerStep :=
  let scope : ImageBuildScope := ⟨.environment, "env"⟩
  let build : ImageBuildRegistration := ⟨1, scope, .modal, "fp", some 5, some 100⟩
  [.trigger ⟨build, false, 10⟩ .answered, .work 0 .done, .work 0 (.bind 7 .answered),
    .work 0 .done, .write (.acceptSuccessfulCompletion ⟨1, .modal, 7, 5, 9, 20⟩ [] "v1" 3),
    .deliver ⟨1, 9⟩ 100, .work 0 (.row 30), .work 0 (.written .answered), .work 0 (.row 31)]

/-- The artifact arrives, is not recorded, and its compensating deletion fails. -/
def compensationFails (recorded : WriteAnswer) : List FinalizerStep :=
  [.work 0 (.artifact 50), .work 0 (.written recorded), .work 0 (.row 32),
    .work 0 (.raised "provider unavailable"), .work 0 (.written .answered)]

/-- A secret change supersedes the build, and the sweep tears its session down. -/
def supersededAndCleanedUp : List FinalizerStep :=
  [.write (.supersedeActiveImages ⟨.environment, "env"⟩), .listSessionCleanup 1,
    .work 1 (.row 31), .work 1 .done, .work 1 (.written .answered)]

end BackgroundAgents.ImageBuilds

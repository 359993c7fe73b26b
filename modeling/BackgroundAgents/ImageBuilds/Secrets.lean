import BackgroundAgents.ImageBuilds.StoreLaws
import BackgroundAgents.Lib.Transition
import BackgroundAgents.Lib.Workers

/-!
# Secret changes and image builds

A trigger registers its row first and reads the scope's secrets afterwards, in
`planBuild`; a secret change writes first and supersedes the scope's live rows
afterwards. Whatever else the store does in between, a row that is building or
ready after the supersede was therefore planned with secrets the change had
already written.

The system is the store with any statement at any moment (`SecretsStep.write`), any
number of triggers in their planning phase, and any number of secret changes between
their write and their supersede. A planning trigger reads as often as it likes. The
version of a scope's secrets is the number of writes committed to it; `reads` notes
the version each build was planned with, and `invalidated` the version each finished
change had written.
-/

namespace BackgroundAgents.ImageBuilds

open BackgroundAgents.Transition

structure SecretsState where
  builds : ImageBuildTable := Table.empty
  issued : List BuildId := []
  /-- Triggers between `registerBuild` and `startBuild`. -/
  planning : List (BuildId × ImageBuildScope) := []
  /-- Committed secret writes. -/
  writes : List ImageBuildScope := []
  /-- Changes that have written and not yet superseded. -/
  pending : List (ImageBuildScope × Nat) := []
  invalidated : List (ImageBuildScope × Nat) := []
  reads : List (BuildId × Nat) := []
  deriving DecidableEq

inductive SecretsStep where
  | write (op : StoreOp)
  | register (build : ImageBuildRegistration) (now : Millis)
  | readSecrets (trigger : Nat)
  | startBuild (trigger : Nat)
  | writeSecrets (scope : ImageBuildScope)
  | supersedeActiveImages (change : Nat)
  deriving DecidableEq

namespace SecretsState

/-- How often the scope's secrets have been written. -/
def version (s : SecretsState) (scope : ImageBuildScope) : Nat :=
  s.writes.count scope

def step (s : SecretsState) : SecretsStep → Option SecretsState
  | .write op =>
    match op with
    | .registerBuild _ _ => none
    | op => some { s with builds := op.write.run s.builds }
  | .register build now =>
    if build.id ∈ s.issued then none
    else
      let op := StoreOp.registerBuild build now
      some { s with
        builds := op.write.run s.builds
        issued := build.id :: s.issued
        planning :=
          if op.write.changes s.builds then s.planning ++ [(build.id, build.scope)]
          else s.planning }
  | .readSecrets i => do
    let (id, scope) ← s.planning[i]?
    some { s with reads := (id, s.version scope) :: s.reads }
  | .startBuild i => do
    let _ ← s.planning[i]?
    some { s with planning := advance s.planning i none }
  | .writeSecrets scope =>
    let s' := { s with writes := scope :: s.writes }
    some { s' with pending := s.pending ++ [(scope, s'.version scope)] }
  | .supersedeActiveImages i => do
    let (scope, version) ← s.pending[i]?
    some { s with
      builds := (ImageBuilds.supersedeActiveImages scope).run s.builds
      pending := advance s.pending i none
      invalidated := (scope, version) :: s.invalidated }

end SecretsState

def secretChanges : System SecretsState SecretsStep where
  step := SecretsState.step

variable {s s' : SecretsState} {a : SecretsStep}

/-! ## The invariant -/

structure SecretsInv (s : SecretsState) : Prop where
  issued : ∀ r ∈ s.builds.rows, r.id ∈ s.issued
  /-- A planning trigger is about a registered build of its scope. -/
  planned : ∀ e ∈ s.planning, e.1 ∈ s.issued ∧ ∀ r ∈ s.builds.rows, r.id = e.1 → r.scope = e.2
  readIssued : ∀ e ∈ s.reads, e.1 ∈ s.issued
  pendingVersion : ∀ e ∈ s.pending, e.2 ≤ s.version e.1
  invalidatedVersion : ∀ e ∈ s.invalidated, e.2 ≤ s.version e.1
  /-- A live row was planned with nothing older than any finished change. -/
  fresh : ∀ e ∈ s.invalidated, ∀ r ∈ s.builds.rows, r.scope = e.1 → r.status.active = true →
    ∀ version, (r.id, version) ∈ s.reads → e.2 ≤ version

theorem SecretsInv.init : SecretsInv {} where
  issued _ h := absurd h List.not_mem_nil
  planned _ h := absurd h List.not_mem_nil
  readIssued _ h := absurd h List.not_mem_nil
  pendingVersion _ h := absurd h List.not_mem_nil
  invalidatedVersion _ h := absurd h List.not_mem_nil
  fresh _ h := absurd h List.not_mem_nil

/-- A row that is live was live: nothing revives a discarded build. -/
theorem StatusStep.active {x y : ImageBuildStatus} (h : StatusStep x y)
    (hy : y.active = true) : x.active = true := by
  cases h with
  | stay => exact hy
  | buildingReady => rfl
  | _ => cases hy

/-- The rows of a scope after its supersede are not live. -/
theorem not_active_of_superseded {t : ImageBuildTable} {scope : ImageBuildScope}
    {r : ImageBuildRow} (hr : r ∈ ((supersedeActiveImages scope).run t).rows)
    (hscope : r.scope = scope) : r.status.active = false := by
  obtain ⟨x, hx, hrow⟩ :=
    (@StoreOp.of_mem_run _ (.supersedeActiveImages scope) _ hr).resolve_right nofun
  have hb := StoreOp.row_build hrow
  rcases Write.row_eq hrow with ⟨_, rfl⟩ | ⟨hno, rfl⟩
  · rfl
  · simp only [StoreOp.write, ImageBuilds.supersedeActiveImages, hscope, true_and] at hno
    simpa using hno

/-- **Any statement keeps the live rows fresh**; a registered row has no reads yet. -/
theorem SecretsInv.run (hi : SecretsInv s) (op : StoreOp) {issued' : List BuildId}
    (hsub : s.issued ⊆ issued')
    (hnew : ∀ id, op.role = .registers id → id ∈ issued' ∧ id ∉ s.issued) :
    SecretsInv { s with builds := op.write.run s.builds, issued := issued' } where
  issued x hx := by
    rcases StoreOp.of_mem_run hx with ⟨r, hr, hrow⟩ | ⟨hreg, _⟩
    · rw [(op.row_build hrow).id]
      exact hsub (hi.issued r hr)
    · exact (hnew _ hreg).1
  planned e he := by
    obtain ⟨hissued, hrows⟩ := hi.planned e he
    refine ⟨hsub hissued, ?_⟩
    intro x hx hid
    rcases StoreOp.of_mem_run hx with ⟨r, hr, hrow⟩ | ⟨hreg, _⟩
    · have hb := op.row_build hrow
      rw [hb.scope]
      exact hrows r hr (hb.id.symm.trans hid)
    · exact absurd hissued (hid ▸ (hnew _ hreg).2)
  readIssued e he := hsub (hi.readIssued e he)
  pendingVersion := hi.pendingVersion
  invalidatedVersion := hi.invalidatedVersion
  fresh e he x hx hscope hactive version hread := by
    rcases StoreOp.of_mem_run hx with ⟨r, hr, hrow⟩ | ⟨hreg, _⟩
    · have hb := op.row_build hrow
      exact hi.fresh e he r hr (hb.scope.symm.trans hscope) ((op.row_status hrow).active hactive)
        version (hb.id ▸ hread)
    · exact absurd (hi.readIssued _ hread) (hnew _ hreg).2

theorem SecretsInv.step (hi : SecretsInv s) (h : secretChanges.step s a = some s') :
    SecretsInv s' := by
  cases a with
  | write op =>
    simp only [secretChanges, SecretsState.step] at h
    split at h
    next => cases h
    next hop =>
      cases h
      refine hi.run op (List.Subset.refl _) ?_
      intro id hreg
      cases op with
      | registerBuild build now => exact absurd rfl (hop build now)
      | _ => cases hreg
  | register build now =>
    simp only [secretChanges, SecretsState.step] at h
    split at h
    next => cases h
    next hfresh =>
      cases h
      have hrun := hi.run (.registerBuild build now) (fun _ h => List.mem_cons_of_mem build.id h)
        (by rintro id ⟨⟩; exact ⟨List.mem_cons_self .., hfresh⟩)
      refine { hrun with planned := ?_ }
      intro e he
      have hcases : e ∈ s.planning ∨ e = (build.id, build.scope) := by
        split at he
        next => simpa using he
        next => exact .inl he
      rcases hcases with he | rfl
      · exact hrun.planned e he
      · refine ⟨List.mem_cons_self .., ?_⟩
        intro x hx hid
        rcases Write.of_mem_run hx with ⟨r, hr, hrow⟩ | ⟨hadd, _⟩
        · have hrid := (@StoreOp.row_build _ (.registerBuild build now) _ _ hrow).id
          exact absurd (hi.issued r hr) (by rw [← hrid, hid]; exact hfresh)
        · simp only [StoreOp.write, ImageBuilds.registerBuild] at hadd
          split at hadd
          next => cases hadd
          next =>
            cases hadd
            rfl
  | readSecrets i =>
    simp only [secretChanges, SecretsState.step, Option.bind_eq_bind,
      Option.bind_eq_some_iff] at h
    obtain ⟨⟨id, scope⟩, hget, h⟩ := h
    cases h
    obtain ⟨hissued, hrows⟩ := hi.planned _ (List.mem_of_getElem? hget)
    refine { hi with readIssued := ?_, fresh := ?_ }
    · intro e he
      rcases List.mem_cons.mp he with rfl | he
      · exact hissued
      · exact hi.readIssued e he
    · intro e he r hr hscope hactive version hread
      rcases List.mem_cons.mp hread with heq | hread
      · -- the read sees every change that has written by now
        obtain ⟨hid, rfl⟩ := Prod.mk.inj heq
        rw [← hrows r hr hid, hscope]
        exact hi.invalidatedVersion e he
      · exact hi.fresh e he r hr hscope hactive version hread
  | startBuild i =>
    simp only [secretChanges, SecretsState.step, Option.bind_eq_bind,
      Option.bind_eq_some_iff] at h
    obtain ⟨_, _, h⟩ := h
    cases h
    exact { hi with planned := fun e he => hi.planned e (advance_subset_of_none he) }
  | writeSecrets scope =>
    cases h
    have hmono : ∀ x, s.version x ≤ ({ s with writes := scope :: s.writes } : SecretsState).version x :=
      fun x => List.count_le_count_cons
    refine { hi with pendingVersion := ?_, invalidatedVersion := ?_ }
    · intro e he
      rcases List.mem_append.mp he with he | he
      · exact (hi.pendingVersion e he).trans (hmono _)
      · rw [List.mem_singleton.mp he]
        exact le_rfl
    · intro e he
      exact (hi.invalidatedVersion e he).trans (hmono _)
  | supersedeActiveImages i =>
    simp only [secretChanges, SecretsState.step, Option.bind_eq_bind,
      Option.bind_eq_some_iff] at h
    obtain ⟨⟨scope, version⟩, hget, h⟩ := h
    cases h
    have hrun := hi.run (.supersedeActiveImages scope) (List.Subset.refl _) fun _ h => by cases h
    have hversion := hi.pendingVersion _ (List.mem_of_getElem? hget)
    refine { hrun with pendingVersion := ?_, invalidatedVersion := ?_, fresh := ?_ }
    · intro e he
      exact hi.pendingVersion e (advance_subset_of_none he)
    · intro e he
      rcases List.mem_cons.mp he with rfl | he
      · exact hversion
      · exact hi.invalidatedVersion e he
    · intro e he r hr hscope hactive v hread
      rcases List.mem_cons.mp he with rfl | he
      · rw [not_active_of_superseded hr hscope] at hactive
        cases hactive
      · exact hrun.fresh e he r hr hscope hactive v hread

/-! ## No outdated secrets -/

theorem getLatestReadyForSpawn_some {t : ImageBuildTable} {scope : ImageBuildScope}
    {provider : ImageBuildProvider} {r : ImageBuildRow}
    (h : getLatestReadyForSpawn t scope provider = some r) :
    r ∈ t.rows ∧ r.scope = scope ∧ r.status = .ready := by
  have hmem := List.mem_filter.mp (List.argmax_mem h)
  simp only [ImageBuildRow.ofScope, decide_eq_true_eq] at hmem
  exact ⟨hmem.1, hmem.2.1.1, hmem.2.2⟩

/-- The build was planned with a read of the scope's secrets older than `version`. -/
def PlannedBefore (s : SecretsState) (r : ImageBuildRow) (version : Nat) : Prop :=
  ∃ v, (r.id, v) ∈ s.reads ∧ v < version

/-- **No selectable image carries outdated secrets.** After the supersede of a change, no
live row of the scope was planned with secrets read before the change's write, and what
spawn selects is such a row. -/
theorem no_outdated_secrets (h : secretChanges.Reachable anyStep {} s) :
    ∀ scope version, (scope, version) ∈ s.invalidated →
      (∀ r ∈ s.builds.rows, r.scope = scope → r.status = .building ∨ r.status = .ready →
        ¬PlannedBefore s r version) ∧
      ∀ provider r, getLatestReadyForSpawn s.builds scope provider = some r →
        ¬PlannedBefore s r version := by
  have hi := h.inv SecretsInv .init fun _ _ _ hi _ hstep => hi.step hstep
  intro scope version hmem
  have hrows : ∀ r ∈ s.builds.rows, r.scope = scope → r.status = .building ∨ r.status = .ready →
      ¬PlannedBefore s r version := by
    rintro r hr hscope hlive ⟨v, hread, hlt⟩
    have hactive : r.status.active = true := by
      rcases hlive with hs | hs <;> rw [hs] <;> rfl
    exact absurd (hi.fresh _ hmem r hr hscope hactive v hread) (Nat.not_le_of_lt hlt)
  refine ⟨hrows, ?_⟩
  intro provider r hsel
  obtain ⟨hr, hscope, hready⟩ := getLatestReadyForSpawn_some hsel
  exact hrows r hr hscope (.inr hready)

/-- A trigger reads, the secrets change, and a second trigger builds the image that is
served: the first build is superseded before it can finish. -/
def changedDuringBuildRun (scope : ImageBuildScope) : List SecretsStep :=
  let markReady (id : BuildId) (stage : MarkReadyStage) : SecretsStep :=
    .write (.markReady ⟨id, .vercel, 30 + id, [], "v60", 5, none⟩ stage)
  [.register ⟨1, scope, .vercel, "fp", some 5, some 100⟩ 10, .readSecrets 0, .startBuild 0,
    .writeSecrets scope, .supersedeActiveImages 0, markReady 1 (.updating ⟨scope, none, 10⟩),
    .register ⟨2, scope, .vercel, "fp", some 6, some 100⟩ 20, .readSecrets 0, .startBuild 0,
    markReady 2 (.updating ⟨scope, none, 20⟩)]

theorem no_outdated_secrets_changed_during_build :
    ∃ s, secretChanges.run anyStep {} (changedDuringBuildRun ⟨.environment, "env"⟩) = some s ∧
      (⟨.environment, "env"⟩, 1) ∈ s.invalidated ∧
      (getLatestReadyForSpawn s.builds ⟨.environment, "env"⟩ .vercel).map ImageBuildRow.id =
        some 2 ∧
      ∀ provider r, getLatestReadyForSpawn s.builds ⟨.environment, "env"⟩ provider = some r →
        ¬PlannedBefore s r 1 := by
  have hrun : (secretChanges.run anyStep {} (changedDuringBuildRun ⟨.environment, "env"⟩)).map
      (fun s => (s.invalidated,
        (getLatestReadyForSpawn s.builds ⟨.environment, "env"⟩ .vercel).map ImageBuildRow.id)) =
        some ([(⟨.environment, "env"⟩, 1)], some 2) := by decide
  obtain ⟨s, hs, hshape⟩ := Option.map_eq_some_iff.mp hrun
  obtain ⟨hinv, hsel⟩ := Prod.mk.inj hshape
  have hmem : (⟨.environment, "env"⟩, 1) ∈ s.invalidated := by rw [hinv]; decide
  exact ⟨s, hs, hmem, hsel, (no_outdated_secrets (System.run_reachable hs) _ _ hmem).2⟩

end BackgroundAgents.ImageBuilds

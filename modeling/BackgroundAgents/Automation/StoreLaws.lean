import BackgroundAgents.Automation.Firing

/-!
# What a statement does

One lemma for each kind of statement, for the invariants of the later modules:

* `RunStatement.exec_rows`: a statement on `automation_runs` rewrites every row
  on its own, by a `RunMove`. A run leaves the active statuses for good, but for
  the timeout that a late success corrects; its attempt grows only when a retry
  is claimed; and it stays in a state that some sweep will pick up.
* `Quiet`: every statement outside a firing, and what it may change.
* `insertChildren_…`, `insertChildless_…`, `insertInvocationGuarded_…`: what a
  firing's batch adds.
* The frames: which tables a statement leaves alone.
-/

namespace BackgroundAgents.Automation

open AutomationDb

/-! ## Statements on runs -/

/-- How a statement may move the status of a run. -/
inductive StatusMove : AutomationRunStatus → AutomationRunStatus → Prop where
  | kept (status : AutomationRunStatus) : StatusMove status status
  | claimed : StatusMove .starting .running
  | settled {status outcome : AutomationRunStatus} : status.launching = true →
    outcome = .completed ∨ outcome = .failed ∨ outcome = .unauthorized →
    StatusMove status outcome
  | waiting {status : AutomationRunStatus} : status.launching = true →
    StatusMove status .retrying
  | relaunched : StatusMove .retrying .starting
  | withdrawn : StatusMove .retrying .failed
  | corrected : StatusMove .failed .completed

/-- A state of a run that some sweep picks up. -/
def AutomationRunRow.Sweepable (r : AutomationRunRow) : Prop :=
  match r.status with
  | .running => r.executionDeadlineAt ≠ none ∨ r.startedAt ≠ none
  | .retrying => r.retryAt ≠ none
  | _ => True

/-- A waiting run was launched again. -/
def Relaunched (r r' : AutomationRunRow) : Prop :=
  r.status = .retrying ∧ r'.status = .starting

/-- What a statement may make of a run. -/
structure RunMove (db : AutomationDb) (r r' : AutomationRunRow) : Prop where
  id : r'.id = r.id
  automationId : r'.automationId = r.automationId
  invocationId : r'.invocationId = r.invocationId
  status : StatusMove r.status r'.status
  correction : r.status = .failed → r'.status ≠ .failed →
    r.failureReason = some executionTimeoutFailureReason
  attempt : (¬Relaunched r r' ∧ r'.attempt = r.attempt) ∨
    (Relaunched r r' ∧ r'.attempt = r.attempt + 1 ∧ db.retryAllowed r = true)
  sweepable : r.Sweepable → r'.Sweepable

theorem not_relaunched_of_eq {r r' : AutomationRunRow} (h : r'.status = r.status) :
    ¬Relaunched r r' := by
  rintro ⟨hr, hr'⟩
  rw [h, hr] at hr'
  cases hr'

theorem not_relaunched_of_launching {r r' : AutomationRunRow} (h : r.status.launching = true) :
    ¬Relaunched r r' := by
  rintro ⟨hr, _⟩
  rw [hr] at h
  cases h

namespace RunMove

variable {db : AutomationDb} {r r' : AutomationRunRow}

theorem refl (r : AutomationRunRow) : RunMove db r r where
  id := rfl
  automationId := rfl
  invocationId := rfl
  status := .kept _
  correction h h' := absurd h h'
  attempt := .inl ⟨not_relaunched_of_eq rfl, rfl⟩
  sweepable h := h

/-- A run that is active now was active before. -/
theorem active (h : RunMove db r r') (ha : r'.status.active = true) :
    r.status.active = true := by
  have hm := h.status
  generalize r.status = status at hm ⊢
  generalize r'.status = status' at hm ha
  cases hm with
  | kept => exact ha
  | claimed => rfl
  | settled hl => cases status <;> first | rfl | cases hl
  | waiting hl => cases status <;> first | rfl | cases hl
  | relaunched => rfl
  | withdrawn => rfl
  | corrected => cases ha

end RunMove

variable {f : AutomationRunRow → AutomationRunRow} {p : AutomationRunRow → Bool} {db : AutomationDb}

/-- A guarded rewrite of one kind is a `RunMove` when it is one on the rows it matches. -/
theorem RunMove.guarded (h : ∀ r, p r = true → RunMove db r (f r)) (r : AutomationRunRow) :
    RunMove db r (if p r then f r else r) := by
  split
  next hp => exact h r hp
  next => exact .refl r

variable {r : AutomationRunRow}

theorem launching_of_updatable {id : Id} (h : updatable id r = true) : r.status.launching = true := by
  simp only [updatable, Bool.and_eq_true] at h
  exact h.2

theorem not_failed_of_launching {status : AutomationRunStatus}
    (h : status.launching = true) : status ≠ .failed := by
  rintro rfl
  cases h

theorem updateRun_move (db : AutomationDb) (id : Id) (outcome : RunOutcome)
    (completedAt : Millis) (r : AutomationRunRow) (h : updatable id r = true) :
    RunMove db r ((outcome.fields completedAt).apply r) := by
  have hl := launching_of_updatable h
  have hf := not_failed_of_launching hl
  have hn := @not_relaunched_of_launching _ ((outcome.fields completedAt).apply r) hl
  cases outcome with
  | completed => exact ⟨rfl, rfl, rfl, .settled hl (.inl rfl), fun h => absurd h hf,
      .inl ⟨hn, rfl⟩, fun _ => trivial⟩
  | failed reason => exact ⟨rfl, rfl, rfl, .settled hl (.inr (.inl rfl)),
      fun h => absurd h hf, .inl ⟨hn, rfl⟩, fun _ => trivial⟩
  | unauthorized reason => exact ⟨rfl, rfl, rfl, .settled hl (.inr (.inr rfl)),
      fun h => absurd h hf, .inl ⟨hn, rfl⟩, fun _ => trivial⟩

/-- Failing a run that is still launching. -/
theorem fail_move (db : AutomationDb) (r : AutomationRunRow) (reason : String)
    (completedAt : Millis) (hl : r.status.launching = true) :
    RunMove db r { r with status := .failed, failureReason := some reason
                          completedAt := some completedAt } where
  id := rfl
  automationId := rfl
  invocationId := rfl
  status := .settled hl (.inr (.inl rfl))
  correction h := absurd h (not_failed_of_launching hl)
  attempt := .inl ⟨not_relaunched_of_launching hl, rfl⟩
  sweepable _ := trivial

/-- The rows after one guarded update. -/
theorem updateRuns_rows (db : AutomationDb) (p : AutomationRunRow → Bool)
    (f : AutomationRunRow → AutomationRunRow) (hf : ∀ r, (f r).id = r.id) :
    (db.updateRuns p f hf).runs.rows = db.runs.rows.map fun r => if p r then f r else r :=
  rfl

theorem launching_of_orphaned {before : Millis} (h : orphanedStartingRun before r = true) :
    r.status.launching = true := by
  simp only [orphanedStartingRun, Bool.and_eq_true, decide_eq_true_eq] at h
  rw [h.1]
  rfl

theorem launching_of_pastDeadline {now default : Millis}
    (h : runPastExecutionDeadline now default r = true) : r.status.launching = true := by
  simp only [runPastExecutionDeadline, Bool.and_eq_true, decide_eq_true_eq] at h
  rw [h.1]
  rfl

theorem bulkFail_rows (db : AutomationDb) (ids : List Id) (reason : String)
    (completedAt : Millis) (predicate : AutomationRunRow → Bool)
    (hp : ∀ r, predicate r = true → r.status.launching = true) :
    ∃ g, (db.bulkFailRuns ids reason completedAt predicate).runs.rows = db.runs.rows.map g ∧
      ∀ r, RunMove db r (g r) := by
  refine ⟨_, updateRuns_rows .., RunMove.guarded ?_⟩
  intro r h
  rw [Bool.and_eq_true] at h
  exact fail_move db r reason completedAt (hp r h.2)

/-- **What a statement on runs does**: it moves every run on its own. -/
theorem RunStatement.exec_rows (st : RunStatement) (db : AutomationDb) :
    ∃ g, (st.exec db).runs.rows = db.runs.rows.map g ∧ ∀ r, RunMove db r (g r) := by
  cases st with
  | updateRun id outcome completedAt =>
    exact ⟨_, updateRuns_rows .., RunMove.guarded (updateRun_move db id outcome completedAt)⟩
  | claimRunSession id session startedAt deadline =>
    refine ⟨_, updateRuns_rows .., RunMove.guarded ?_⟩
    intro r h
    simp only [claimable, Bool.and_eq_true, decide_eq_true_eq] at h
    refine ⟨rfl, rfl, rfl, ?_, ?_, .inl ⟨nofun, rfl⟩, fun _ => .inl nofun⟩
    · rw [h.2]
      exact .claimed
    · intro hf
      rw [h.2] at hf
      cases hf
  | markRunFirstPromptQueued id =>
    refine ⟨_, updateRuns_rows .., RunMove.guarded ?_⟩
    intro r _
    exact ⟨rfl, rfl, rfl, .kept _, fun h h' => absurd h h',
      .inl ⟨not_relaunched_of_eq rfl, rfl⟩, fun h => h⟩
  | setRunExecutionDeadline id deadline =>
    refine ⟨_, updateRuns_rows .., RunMove.guarded ?_⟩
    intro r h
    simp only [Bool.and_eq_true, decide_eq_true_eq] at h
    refine ⟨rfl, rfl, rfl, .kept _, fun h h' => absurd h h',
      .inl ⟨not_relaunched_of_eq rfl, rfl⟩, fun _ => ?_⟩
    simp only [AutomationRunRow.Sweepable, h.2]
    exact .inl nofun
  | completeTimedOutRun id completedAt =>
    refine ⟨_, updateRuns_rows .., RunMove.guarded ?_⟩
    intro r h
    simp only [timedOut, Bool.and_eq_true, decide_eq_true_eq] at h
    refine ⟨rfl, rfl, rfl, ?_, fun _ _ => h.2, .inl ⟨nofun, rfl⟩, fun _ => trivial⟩
    rw [h.1.2]
    exact .corrected
  | bulkFailStartingRuns ids reason completedAt before =>
    exact bulkFail_rows db ids reason completedAt _ fun _ h => launching_of_orphaned h
  | bulkFailRunningRuns ids reason completedAt default =>
    exact bulkFail_rows db ids reason completedAt _ fun _ h => launching_of_pastDeadline h
  | failLaunchOrRetry id reason failedAt retryAt =>
    -- a run put back to wait is no longer one that the second statement matches
    refine ⟨_, (updateRuns_rows ..).trans ((congrArg _ (updateRuns_rows ..)).trans
      List.map_map), ?_⟩
    intro r
    simp only [Function.comp]
    split
    next h =>
      simp only [retryable, Bool.and_eq_true] at h
      have hl := launching_of_updatable h.1
      have hwait : updatable id { r with
          status := .retrying, failureReason := some reason, retryAt := some retryAt
          sessionId := none, startedAt := none, executionDeadlineAt := none
          firstPromptPending := false } = false := by
        simp [updatable, AutomationRunStatus.launching]
      rw [hwait]
      exact ⟨rfl, rfl, rfl, .waiting hl, fun h => absurd h (not_failed_of_launching hl),
        .inl ⟨nofun, rfl⟩, fun _ => nofun⟩
    next =>
      split
      next h => exact fail_move db r reason failedAt (launching_of_updatable h)
      next => exact .refl r
  | claimRetry id attempt now grants =>
    refine ⟨_, updateRuns_rows .., RunMove.guarded ?_⟩
    intro r h
    simp only [relaunchable, Bool.and_eq_true, decide_eq_true_eq] at h
    have hr : r.status = .retrying := h.1.1.1.1.2
    refine ⟨rfl, rfl, rfl, ?_, ?_, .inr ⟨⟨hr, rfl⟩, rfl, h.1.2⟩, fun _ => trivial⟩
    · rw [hr]
      exact .relaunched
    · intro hf
      rw [hr] at hf
      cases hf
  | failWithdrawnRetry id completedAt =>
    refine ⟨_, updateRuns_rows .., RunMove.guarded ?_⟩
    intro r h
    simp only [withdrawn, Bool.and_eq_true, decide_eq_true_eq] at h
    refine ⟨rfl, rfl, rfl, ?_, ?_, .inl ⟨nofun, rfl⟩, fun _ => trivial⟩
    · rw [h.1.2]
      exact .withdrawn
    · intro hf
      rw [h.1.2] at hf
      cases hf

variable {r' : AutomationRunRow}

variable {hf : ∀ r, (f r).id = r.id}

theorem mem_updateRuns (hr : r' ∈ (db.updateRuns p f hf).runs.rows) :
    ∃ r ∈ db.runs.rows, r' = if p r then f r else r := by
  obtain ⟨r, hmem, rfl⟩ := List.mem_map.mp hr
  exact ⟨r, hmem, rfl⟩

theorem updateRuns_retrying (h : ∀ r, (f r).status = .retrying → r.status = .retrying)
    (hr : r' ∈ (db.updateRuns p f hf).runs.rows) (hs : r'.status = .retrying) :
    ∃ r ∈ db.runs.rows, r.id = r'.id ∧ r.status = .retrying := by
  obtain ⟨r, hmem, rfl⟩ := mem_updateRuns hr
  split at hs
  next hp => exact ⟨r, hmem, by rw [if_pos hp, hf], h r hs⟩
  next hp => exact ⟨r, hmem, by rw [if_neg hp], hs⟩

/-- **Only `failLaunchOrRetry` makes a run wait**, and only its own. -/
theorem RunStatement.retrying_before (st : RunStatement) (hr : r' ∈ (st.exec db).runs.rows)
    (hs : r'.status = .retrying) :
    (∃ r ∈ db.runs.rows, r.id = r'.id ∧ r.status = .retrying) ∨
      ∃ r ∈ db.runs.rows, r.id = r'.id ∧ db.retryable r'.id r = true ∧
        ∃ reason failedAt retryAt, st = .failLaunchOrRetry r'.id reason failedAt retryAt := by
  cases st with
  | updateRun id outcome completedAt =>
    refine .inl (updateRuns_retrying ?_ hr hs)
    intro r h
    cases outcome <;> cases h
  | claimRunSession id session startedAt deadline =>
    exact .inl (updateRuns_retrying (fun _ h => by cases h) hr hs)
  | markRunFirstPromptQueued id =>
    refine .inl (updateRuns_retrying ?_ hr hs)
    exact fun _ h => h
  | setRunExecutionDeadline id deadline =>
    refine .inl (updateRuns_retrying ?_ hr hs)
    exact fun _ h => h
  | completeTimedOutRun id completedAt =>
    exact .inl (updateRuns_retrying (fun _ h => by cases h) hr hs)
  | bulkFailStartingRuns ids reason completedAt before =>
    exact .inl (updateRuns_retrying (fun _ h => by cases h) hr hs)
  | bulkFailRunningRuns ids reason completedAt default =>
    exact .inl (updateRuns_retrying (fun _ h => by cases h) hr hs)
  | failLaunchOrRetry id reason failedAt retryAt =>
    obtain ⟨r₁, hr₁, hid₁, hs₁⟩ :=
      updateRuns_retrying (fun _ h => by cases h) hr hs
    obtain ⟨r, hmem, rfl⟩ := mem_updateRuns hr₁
    split at hs₁
    next hp =>
      have hid : r.id = id := by
        have hmatch := hp
        simp only [retryable, updatable, Bool.and_eq_true, decide_eq_true_eq] at hmatch
        exact hmatch.1.1
      rw [if_pos hp] at hid₁
      have hid' : id = r'.id := hid.symm.trans hid₁
      exact .inr ⟨r, hmem, hid₁, hid' ▸ hp, reason, failedAt, retryAt, by rw [hid']⟩
    next hp =>
      rw [if_neg hp] at hid₁
      exact .inl ⟨r, hmem, hid₁, hs₁⟩
  | claimRetry id attempt now grants =>
    exact .inl (updateRuns_retrying (fun _ h => by cases h) hr hs)
  | failWithdrawnRetry id completedAt =>
    exact .inl (updateRuns_retrying (fun _ h => by cases h) hr hs)

theorem updateRuns_failed
    (h : p r = true → (f r).status = .failed ∧ (f r).invocationId = r.invocationId)
    (hr : r ∈ db.runs.rows) (hs : r.status = .failed) :
    ∃ r' ∈ (db.updateRuns p f hf).runs.rows,
      r'.invocationId = r.invocationId ∧ r'.status = .failed := by
  refine ⟨if p r then f r else r, List.mem_map_of_mem hr, ?_⟩
  split
  next hp => exact ⟨(h hp).2, (h hp).1⟩
  next => exact ⟨rfl, hs⟩

/-- **Only `completeTimedOutRun` takes a failure back.** -/
theorem RunStatement.failed_after (st : RunStatement) (hr : r ∈ db.runs.rows)
    (hs : r.status = .failed) :
    (∃ r' ∈ (st.exec db).runs.rows, r'.invocationId = r.invocationId ∧ r'.status = .failed) ∨
      ∃ id completedAt, st = .completeTimedOutRun id completedAt ∧ timedOut id r = true := by
  have hl : r.status.launching = false := by
    rw [hs]
    rfl
  have hupd : ∀ id, updatable id r = false := by
    intro id
    simp [updatable, hl]
  have hbulk : ∀ {ids : List Id} {reason : String} {completedAt : Millis}
      {predicate : AutomationRunRow → Bool},
      ∃ r' ∈ (db.bulkFailRuns ids reason completedAt predicate).runs.rows,
        r'.invocationId = r.invocationId ∧ r'.status = .failed :=
    updateRuns_failed (fun _ => ⟨rfl, rfl⟩) hr hs
  cases st with
  | updateRun id outcome completedAt =>
    refine .inl (updateRuns_failed (fun h => ?_) hr hs)
    rw [hupd id] at h
    cases h
  | claimRunSession id session startedAt deadline =>
    refine .inl (updateRuns_failed (fun h => ?_) hr hs)
    simp [claimable, hs] at h
  | markRunFirstPromptQueued id =>
    exact .inl (updateRuns_failed (fun _ => ⟨hs, rfl⟩) hr hs)
  | setRunExecutionDeadline id deadline =>
    exact .inl (updateRuns_failed (fun _ => ⟨hs, rfl⟩) hr hs)
  | completeTimedOutRun id completedAt =>
    by_cases h : timedOut id r = true
    · exact .inr ⟨id, completedAt, rfl, h⟩
    · exact .inl (updateRuns_failed (fun h' => absurd h' h) hr hs)
  | bulkFailStartingRuns ids reason completedAt before => exact .inl hbulk
  | bulkFailRunningRuns ids reason completedAt default => exact .inl hbulk
  | failLaunchOrRetry id reason failedAt retryAt =>
    have hfirst : (∃ r' ∈ (db.updateRuns (db.retryable id) fun r => { r with
        status := .retrying, failureReason := some reason, retryAt := some retryAt
        sessionId := none, startedAt := none, executionDeadlineAt := none
        firstPromptPending := false }).runs.rows,
        r'.invocationId = r.invocationId ∧ r'.status = .failed) := by
      refine updateRuns_failed (fun h => ?_) hr hs
      simp [retryable, hupd id] at h
    obtain ⟨r', hr', hinv, hs'⟩ := hfirst
    have hsecond : ∃ r'' ∈ (exec db (.failLaunchOrRetry id reason failedAt retryAt)).runs.rows,
        r''.invocationId = r'.invocationId ∧ r''.status = .failed :=
      updateRuns_failed (fun _ => ⟨rfl, rfl⟩) hr' hs'
    obtain ⟨r'', hr'', hinv', hs''⟩ := hsecond
    exact .inl ⟨r'', hr'', hinv'.trans hinv, hs''⟩
  | claimRetry id attempt now grants =>
    refine .inl (updateRuns_failed (fun h => ?_) hr hs)
    simp [relaunchable, hs] at h
  | failWithdrawnRetry id completedAt =>
    exact .inl (updateRuns_failed (fun _ => ⟨rfl, rfl⟩) hr hs)

/-- The runs of an invocation stay its runs. -/
theorem RunStatement.exec_children (st : RunStatement) (db : AutomationDb) :
    ∃ g, (∀ id, (st.exec db).children id = (db.children id).map g) ∧ ∀ r, RunMove db r (g r) := by
  obtain ⟨g, hrows, hmove⟩ := st.exec_rows db
  refine ⟨g, fun id => ?_, hmove⟩
  unfold AutomationDb.children
  rw [hrows, List.filter_map]
  congr 2
  funext r
  simp [(hmove r).invocationId]

/-- A statement on runs leaves the other tables alone. -/
theorem RunStatement.exec_frame (st : RunStatement) (db : AutomationDb) :
    (st.exec db).automations = db.automations ∧ (st.exec db).invocations = db.invocations ∧
      (st.exec db).receipts = db.receipts ∧ (st.exec db).teams = db.teams := by
  cases st <;> exact ⟨rfl, rfl, rfl, rfl⟩

/-! ## Statements that insert nothing -/

/-- The automation's executor is known. -/
def AutomationDb.OwnerKnown (db : AutomationDb) (a : Id) : Prop :=
  ∃ row, db.automations.get? a = some row ∧ row.userId ≠ none

/-- An invocation with its failure counted, or not. -/
def AutomationInvocationRow.Same (i i' : AutomationInvocationRow) : Prop :=
  ∃ countedAt, i' = { i with failureCountedAt := countedAt }

/-- A statement that inserts no invocation and no run: runs move, invocations keep all
but the accounting of their failure, and an executor that is known stays known. -/
structure Quiet (db db' : AutomationDb) : Prop where
  invocations : ∃ g : AutomationInvocationRow → AutomationInvocationRow,
    db'.invocations.table.rows = db.invocations.table.rows.map g ∧
      ∀ i : AutomationInvocationRow, i.Same (g i)
  runs : ∃ g, db'.runs.rows = db.runs.rows.map g ∧ ∀ r, RunMove db r (g r)
  owner : ∀ a, db.OwnerKnown a → db'.OwnerKnown a

namespace Quiet

variable {db db' : AutomationDb}

/-- A statement on neither table. -/
theorem of_eq (hi : db'.invocations = db.invocations) (hr : db'.runs = db.runs)
    (ho : ∀ a, db.OwnerKnown a → db'.OwnerKnown a) : Quiet db db' where
  invocations := ⟨id, by rw [hi, List.map_id], fun i => ⟨i.failureCountedAt, rfl⟩⟩
  runs := ⟨id, by rw [hr, List.map_id], fun r => .refl r⟩
  owner := ho

theorem ownerKnown_of_automations (h : db'.automations = db.automations) (a : Id)
    (hk : db.OwnerKnown a) : db'.OwnerKnown a := by
  rw [OwnerKnown, h]
  exact hk

theorem ownerKnown_update (p : AutomationRow → Bool) (f : AutomationRow → AutomationRow)
    (hf : ∀ r, (f r).id = r.id) (hu : ∀ r, r.userId ≠ none → (f r).userId ≠ none) (a : Id)
    (h : db.OwnerKnown a) : (db.updateAutomations p f hf).OwnerKnown a := by
  obtain ⟨row, hrow, huser⟩ := h
  refine ⟨if p row then f row else row, ?_, ?_⟩
  · rw [updateAutomations, Table.get?_update, hrow]
    rfl
  · split
    · exact hu row huser
    · exact huser

/-- An update of `automations` that keeps the executors. -/
theorem updateAutomations (p : AutomationRow → Bool) (f : AutomationRow → AutomationRow)
    (hf : ∀ r, (f r).id = r.id) (hu : ∀ r, r.userId ≠ none → (f r).userId ≠ none) :
    Quiet db (db.updateAutomations p f hf) :=
  .of_eq rfl rfl (ownerKnown_update p f hf hu)

theorem runStatement (st : RunStatement) : Quiet db (st.exec db) where
  invocations :=
    ⟨id, by rw [(st.exec_frame db).2.1, List.map_id], fun i => ⟨i.failureCountedAt, rfl⟩⟩
  runs := st.exec_rows db
  owner := ownerKnown_of_automations (st.exec_frame db).1

theorem scheduleEdit (st : ScheduleEdit) : Quiet db (st.exec db) := by
  cases st <;> exact updateAutomations _ _ _ fun _ h => h

theorem tryMark (invocationId : Id) (now : Millis) :
    Quiet db (db.tryMarkInvocationFailureCounted invocationId now) where
  invocations := by
    refine ⟨_, rfl, ?_⟩
    intro i
    show i.Same (if _ then _ else _)
    split
    · exact ⟨_, rfl⟩
    · exact ⟨i.failureCountedAt, rfl⟩
  runs := ⟨id, (List.map_id _).symm, fun r => .refl r⟩
  owner _ h := h

theorem ledgerStatement (st : LedgerStatement) : Quiet db (st.exec db) := by
  cases st with
  | incrementConsecutiveFailures id => exact updateAutomations _ _ _ fun _ h => h
  | resetConsecutiveFailures id => exact updateAutomations _ _ _ fun _ h => h
  | disableSettledOneShots id => exact updateAutomations _ _ _ fun _ h => h
  | tryMarkInvocationFailureCounted id now => exact tryMark id now
  | changeExecutor id userId => exact updateAutomations _ _ _ fun _ _ => nofun
  | insertFollowUpClaim id key claim invocation expiresAt =>
    simp only [LedgerStatement.exec, insertFollowUpClaim]
    cases db.receipts.insert? ⟨id, key, .claimed claim invocation expiresAt⟩ <;>
      exact of_eq rfl rfl fun _ h => h
  | reclaimFollowUp id key claim invocation expiresAt now => exact of_eq rfl rfl fun _ h => h
  | acceptFollowUpReceipt id key claim invocation acceptedAt => exact of_eq rfl rfl fun _ h => h
  | releaseFollowUpReceipt id key claim => exact of_eq rfl rfl fun _ h => h
  | bumpGrantsVersion team => exact of_eq rfl rfl fun _ h => h

/-- No statement outside a firing inserts an invocation or a run. -/
theorem storeStatement (st : StoreStatement) : Quiet db (st.exec db) := by
  cases st with
  | run st => exact runStatement st
  | edit st => exact scheduleEdit st
  | ledger st => exact ledgerStatement st

/-- The invocation a row was before. -/
theorem invocation_before (h : Quiet db db') {i' : AutomationInvocationRow}
    (hi : i' ∈ db'.invocations.table.rows) : ∃ i ∈ db.invocations.table.rows, i.Same i' := by
  obtain ⟨g, hg, hsame⟩ := h.invocations
  rw [hg] at hi
  obtain ⟨i, hmem, rfl⟩ := List.mem_map.mp hi
  exact ⟨i, hmem, hsame i⟩

/-- What an invocation becomes. -/
theorem invocation_after (h : Quiet db db') {i : AutomationInvocationRow}
    (hi : i ∈ db.invocations.table.rows) : ∃ i' ∈ db'.invocations.table.rows, i.Same i' := by
  obtain ⟨g, hg, hsame⟩ := h.invocations
  exact ⟨g i, hg ▸ List.mem_map_of_mem hi, hsame i⟩

/-- The run a row was before. -/
theorem run_before (h : Quiet db db') (hr : r' ∈ db'.runs.rows) :
    ∃ r ∈ db.runs.rows, RunMove db r r' := by
  obtain ⟨g, hg, hmove⟩ := h.runs
  rw [hg] at hr
  obtain ⟨r, hmem, rfl⟩ := List.mem_map.mp hr
  exact ⟨r, hmem, hmove r⟩

/-- What a run becomes. -/
theorem run_after (h : Quiet db db') (hr : r ∈ db.runs.rows) :
    ∃ r' ∈ db'.runs.rows, RunMove db r r' := by
  obtain ⟨g, hg, hmove⟩ := h.runs
  exact ⟨g r, hg ▸ List.mem_map_of_mem hr, hmove r⟩

end Quiet

/-! ## The batches of a firing -/

variable {children : List AutomationRunRow}

variable {d d' : AutomationDb} {invocationId : Id}

theorem insertChildren_frame (h : d.insertChildren invocationId children = some d') :
    d'.automations = d.automations ∧ d'.invocations = d.invocations ∧
      d'.receipts = d.receipts ∧ d'.teams = d.teams := by
  induction children generalizing d with
  | nil =>
    cases h
    exact ⟨rfl, rfl, rfl, rfl⟩
  | cons child children ih =>
    rw [insertChildren] at h
    split at h
    next =>
      obtain ⟨runs, _, h⟩ := Option.bind_eq_some_iff.mp h
      have hframe := ih h
      exact hframe
    next => exact ih h

/-- The children join the runs, under their invocation, if it exists; else none does. -/
theorem mem_insertChildren (h : d.insertChildren invocationId children = some d')
    (r : AutomationRunRow) :
    r ∈ d'.runs.rows ↔ r ∈ d.runs.rows ∨
      ((d.invocations.table.get? invocationId).isSome = true ∧
        ∃ child ∈ children, r = { child with invocationId }) := by
  induction children generalizing d with
  | nil =>
    cases h
    simp
  | cons child children ih =>
    rw [insertChildren] at h
    split at h
    next hex =>
      obtain ⟨runs, hins, h⟩ := Option.bind_eq_some_iff.mp h
      rw [ih h, Table.mem_insert? hins]
      simp only [hex, true_and, List.mem_cons, exists_eq_or_imp]
      exact or_assoc
    next hex =>
      rw [ih h]
      simp [hex]

/-- The runs of the other invocations stay. -/
theorem children_insertChildren (h : d.insertChildren invocationId children = some d') {id : Id}
    (hne : invocationId ≠ id) :
    d'.children id = d.children id := by
  induction children generalizing d with
  | nil =>
    cases h
    rfl
  | cons child children ih =>
    rw [insertChildren] at h
    split at h
    next =>
      obtain ⟨runs, hins, h⟩ := Option.bind_eq_some_iff.mp h
      rw [ih h]
      simp [AutomationDb.children, Table.rows_insert? hins, hne]
    next => exact ih h

/-- Children that went in have identifiers of their own, and new ones. -/
theorem insertChildren_new (h : d.insertChildren invocationId children = some d')
    (hex : (d.invocations.table.get? invocationId).isSome = true) :
    (children.map AutomationRunRow.id).Nodup ∧
      ∀ c ∈ children, ∀ r ∈ d.runs.rows, r.id ≠ c.id := by
  induction children generalizing d with
  | nil => exact ⟨List.nodup_nil, fun _ hc => absurd hc List.not_mem_nil⟩
  | cons child children ih =>
    rw [insertChildren, if_pos hex] at h
    obtain ⟨runs, hins, h⟩ := Option.bind_eq_some_iff.mp h
    obtain ⟨hnodup, hnew⟩ := ih h hex
    have hchild : ∀ c ∈ children, child.id ≠ c.id := fun c hc =>
      hnew c hc { child with invocationId } ((Table.mem_insert? hins).mpr (.inr rfl))
    have hnone := Table.get?_of_insert? hins
    have hfree : ∀ r ∈ d.runs.rows, r.id ≠ child.id := Table.get?_eq_none.mp hnone
    refine ⟨List.nodup_cons.mpr ⟨?_, hnodup⟩, ?_⟩
    · intro hmem
      obtain ⟨c, hc, he⟩ := List.mem_map.mp hmem
      exact hchild c hc he.symm
    · intro c hc r hr
      rcases List.mem_cons.mp hc with rfl | hc
      · exact hfree r hr
      · exact hnew c hc r ((Table.mem_insert? hins).mpr (.inl hr))

theorem insertChildless_frame (db : AutomationDb) (i : AutomationInvocationRow) :
    (db.insertChildless i).2.automations = db.automations ∧
      (db.insertChildless i).2.runs = db.runs ∧
      (db.insertChildless i).2.receipts = db.receipts := by
  unfold insertChildless
  split
  next =>
    split
    next => exact ⟨rfl, rfl, rfl⟩
    next => exact ⟨rfl, rfl, rfl⟩
  next => exact ⟨rfl, rfl, rfl⟩

/-- A childless insert adds its row or nothing. -/
theorem insertChildless_invocations (db : AutomationDb) (i : AutomationInvocationRow) :
    (db.insertChildless i).2.invocations = db.invocations ∨
      db.invocations.insert? i = some (db.insertChildless i).2.invocations := by
  unfold insertChildless
  split
  next =>
    split
    next h => exact .inr h
    next => exact .inl rfl
  next => exact .inl rfl

theorem advanceSchedule_frame (db : AutomationDb) (i : AutomationInvocationRow)
    (advance : Option ScheduleAdvance) (grants : Option TeamGrantsVersion) :
    (db.advanceSchedule i advance grants).runs = db.runs ∧
      (db.advanceSchedule i advance grants).invocations = db.invocations ∧
      (db.advanceSchedule i advance grants).receipts = db.receipts := by
  unfold advanceSchedule
  split <;> exact ⟨rfl, rfl, rfl⟩

/-- **What a guarded batch does** when it commits: the invocation goes in exactly if it
was admitted, the children follow it, and the schedule is advanced from there. -/
theorem insertInvocationGuarded_committed {db db' : AutomationDb} {p : GuardedInsert}
    {inserted : Bool} (h : db.insertInvocationGuarded p = .committed inserted db') :
    inserted = db.admits p ∧ ∃ invocations d,
      (if db.admits p then db.invocations.insert? p.invocation else some db.invocations) =
        some invocations ∧
      ({ db with invocations } : AutomationDb).insertChildren p.invocation.id p.children =
        some d ∧
      db' = d.advanceSchedule p.invocation p.advanceSchedule p.teamGrantsVersion := by
  simp only [insertInvocationGuarded] at h
  split at h
  next => cases h
  next invocations hi =>
    split at h
    next => cases h
    next d hd =>
      cases h
      exact ⟨rfl, invocations, d, hi, hd, rfl⟩

end BackgroundAgents.Automation

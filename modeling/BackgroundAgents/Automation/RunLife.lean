import BackgroundAgents.Automation.RunLaunch
import BackgroundAgents.Automation.Overlap

/-!
# The life of a run

A run is relaunched only by the retry sweep, and only after one of its own
launchers has put it back to wait. That launcher was the only one working on it,
had not sent its prompt, and is done. So whoever works on a run is alone with
it, and a run whose prompt was sent never waits again: `LifeInv`.

1. `waiting`: nobody works on a waiting run, and its prompt was not sent. Only
   `failLaunchOrRetry` makes a run wait (`RunStatement.retrying_before`), and a
   launcher calls it while its prompt is unsent.
2. `alone`: one launcher for each run. A relaunch starts from a waiting run, and
   a firing's children are new.
3. `unsent`: a launcher that may still send, or retry, has not sent; with
   `alone`, nobody else has.

The rest of `RunLife` is about single statements: `RunStatement.exec_rows` says
how they move a run, and the statements that are not about runs do not touch
those that exist.
-/

namespace BackgroundAgents.Automation

open AutomationDb
open BackgroundAgents.Transition

/-! ## A run's life -/

/-- `ORPHAN_THRESHOLD_MS`. -/
def orphanThresholdMs : Millis := 5 * 60 * 1000

/-- A status that a run keeps. -/
def AutomationRunStatus.terminal : AutomationRunStatus → Bool
  | .completed | .failed | .skipped | .unauthorized => true
  | _ => false

/-- The run that the recovery sweep of a time, or its retry sweep, takes up. -/
def AutomationDb.takenUp (db : AutomationDb) (now defaultDeadlineMs : Millis)
    (r : AutomationRunRow) : Prop :=
  orphanedStartingRun (now - orphanThresholdMs) r = true ∨
    runPastExecutionDeadline now defaultDeadlineMs r = true ∨ r ∈ db.getRetriesToSettle now

/-- What one step may make of a run. -/
structure RunStep (db : AutomationDb) (r r' : AutomationRunRow) : Prop where
  id : r'.id = r.id
  /-- A relaunch is the only thing that counts an attempt, and the limit of that
  moment allows it. -/
  attempt : (¬Relaunched r r' ∧ r'.attempt = r.attempt) ∨
    (Relaunched r r' ∧ r'.attempt = r.attempt + 1 ∧
      ∃ a, db.automations.get? r.automationId = some a ∧ (r.attempt : Int) ≤ a.maxRetries)
  terminal : r.status.terminal = true → r'.status = r.status ∨
    (r.status = .failed ∧ r.failureReason = some executionTimeoutFailureReason ∧
      r'.status = .completed)

/-- What holds of the runs in every state reached. -/
structure RunLife (s : LifeState) : Prop where
  oneLauncher : ∀ (m n : Nat) l k, s.launchers[m]? = some l → s.launchers[n]? = some k →
    l.working = true → k.working = true → l.runId = k.runId → m = n
  onePrompt : ∀ id, s.prompts.count id ≤ 1
  evolves : ∀ act t, life.step s act = some t → ∀ r ∈ s.base.db.runs.rows,
    ∃ r' ∈ t.base.db.runs.rows, RunStep s.base.db r r'
  swept : ∀ defaultDeadlineMs, ∀ r ∈ s.base.db.runs.rows, r.status.active = true →
    ∃ due, ∀ now, due ≤ now → s.base.db.takenUp now defaultDeadlineMs r

/-! ## Statements on runs -/

section Store

variable {db db' : AutomationDb}

theorem not_terminal_of_launching {status : AutomationRunStatus}
    (h : status.launching = true) : status.terminal = false := by
  cases status <;> first | rfl | cases h

/-- A move is a step of the run's life. -/
theorem RunMove.runStep {r r' : AutomationRunRow} (h : RunMove db r r') : RunStep db r r' where
  id := h.id
  attempt := by
    rcases h.attempt with hsame | ⟨hre, hatt, hallowed⟩
    · exact .inl hsame
    · obtain ⟨a, ha, hok⟩ := Option.any_eq_true .. |>.mp hallowed
      simp only [Bool.and_eq_true, decide_eq_true_eq] at hok
      exact .inr ⟨hre, hatt, a, ha, hok.1.2⟩
  terminal ht := by
    have hmove := h.status
    have hcorrection := h.correction
    generalize r.status = status at hmove ht hcorrection
    generalize r'.status = status' at hmove hcorrection
    cases hmove with
    | kept => exact .inl rfl
    | claimed => cases ht
    | settled hl => exact absurd ht (by simp [not_terminal_of_launching hl])
    | waiting hl => exact absurd ht (by simp [not_terminal_of_launching hl])
    | relaunched => cases ht
    | withdrawn => cases ht
    | corrected => exact .inr ⟨rfl, hcorrection rfl nofun, rfl⟩

/-- A claimed retry no longer waits, and it waited before. -/
theorem claimRetry_claimed {id : Id} {attempt : Nat} {now : Millis}
    {grants : Option TeamGrantsVersion}
    (h : db.matchesRun (db.relaunchable id attempt now grants) = true) :
    (∃ r ∈ db.runs.rows, r.id = id ∧ r.status = .retrying) ∧
      ∀ r' ∈ (db.claimRetry id attempt now grants).runs.rows, r'.id = id →
        r'.status ≠ .retrying := by
  obtain ⟨r, hmem, hr⟩ := List.find?_isSome.mp h
  have hmatch := hr
  simp only [relaunchable, Bool.and_eq_true, decide_eq_true_eq] at hmatch
  refine ⟨⟨r, hmem, hmatch.1.1.1.1.1, hmatch.1.1.1.1.2⟩, ?_⟩
  intro r' hr' hid
  obtain ⟨r₀, hr₀, rfl⟩ := mem_updateRuns hr'
  have hid₀ : r₀.id = id := by
    split at hid <;> exact hid
  have heq : r₀ = r := Table.eq_of_key hr₀ hmem (hid₀.trans hmatch.1.1.1.1.1.symm)
  rw [heq, if_pos hr]
  intro h
  cases h

end Store

/-! ## Firings -/

/-- What a step of the firings does to the runs. -/
structure Fired (db db' : AutomationDb) : Prop where
  kept : ∀ r ∈ db.runs.rows, r ∈ db'.runs.rows
  born : ∀ r ∈ db'.runs.rows, r ∈ db.runs.rows ∨ r.status = .starting ∨ r.status = .failed

variable {db db' : AutomationDb}

/-- A step that leaves the runs alone. -/
theorem Fired.of_eq (h : db'.runs = db.runs) : Fired db db' where
  kept r hr := by rwa [h]
  born r hr := .inl (by rwa [h] at hr)

/-- The children of a firing are starting, or failed before they started. -/
theorem child_status {f : Firing} {invocationId : Id} {target : Id × Option String} :
    (f.child invocationId target).status = .starting ∨
      (f.child invocationId target).status = .failed := by
  unfold Firing.child
  cases target.2 with
  | none => exact .inl rfl
  | some error => exact .inr rfl

/-- A batch that admitted its firing. -/
theorem Fired.admitted {f : Firing} {generatedId : Id} {targets : List (Id × Option String)}
    {grants : Option TeamGrantsVersion}
    (h : Admitted db (f.guardedInsert generatedId targets grants) db') : Fired db db' where
  kept r hr := (h.runs r).mpr (.inl hr)
  born r hr := by
    rcases (h.runs r).mp hr with hr | ⟨c, hc, rfl⟩
    · exact .inl hr
    · obtain ⟨target, _, rfl⟩ := List.mem_map.mp hc
      exact .inr child_status

/-- A batch that refused its firing leaves the runs alone. -/
theorem refused_runs {p : GuardedInsert} (hfree : db.Unused p.invocation.id)
    (hb : db.insertInvocationGuarded p = .committed false db') : db'.runs = db.runs := by
  obtain ⟨hadmits, invocations, d, hi, hd, rfl⟩ := insertInvocationGuarded_committed hb
  rw [← hadmits] at hi
  cases hi
  rw [insertChildren_absent hfree.1] at hd
  cases hd
  exact (advanceSchedule_frame ..).1

theorem ledgerStatement_runs (st : LedgerStatement) (db : AutomationDb) :
    (st.exec db).runs = db.runs := by
  cases st with
  | insertFollowUpClaim id key claim invocation expiresAt =>
    simp only [LedgerStatement.exec, insertFollowUpClaim]
    cases db.receipts.insert? ⟨id, key, .claimed claim invocation expiresAt⟩ <;> rfl
  | _ => rfl

/-- **What a step of the firings does** to the runs, other than a statement on them. -/
theorem firing_fired {s t : FiringState} {act : FiringAct} (h : OverlapInv s)
    (hrun : ∀ st, act ≠ .other (.run st)) (hs : firingStep s act = some t) :
    Fired s.db t.db := by
  cases act with
  | begin caller =>
    simp only [firingStep] at hs
    split at hs
    next =>
      obtain ⟨f, _, rfl⟩ := Option.map_eq_some_iff.mp hs
      exact .of_eq rfl
    next => cases hs
  | other statement =>
    cases hs
    cases statement with
    | run st => exact absurd rfl (hrun st)
    | edit st => cases st <;> exact .of_eq rfl
    | ledger st => exact .of_eq (ledgerStatement_runs st s.db)
  | resume n answer =>
    simp only [firingStep] at hs
    split at hs
    next =>
      obtain ⟨f, hf, hs⟩ := Option.bind_eq_some_iff.mp hs
      obtain ⟨⟨db', f'⟩, hstep, rfl⟩ := Option.map_eq_some_iff.mp hs
      have hmem := List.mem_of_getElem? hf
      cases (Firing.step_stepped hstep).wrote with
      | nothing => exact .of_eq rfl
      | ownerRepaired => exact .of_eq rfl
      | recovered => exact .of_eq rfl
      | accepted => exact .of_eq rfl
      | @skipped _ reason advance id now =>
        have hskip := advanceSchedule_frame
          (s.db.insertChildless (f.skippedInvocation id reason now)).2
          (f.skippedInvocation id reason now) advance none
        exact .of_eq (hskip.1.trans (insertChildless_frame ..).2.1)
      | @denied _ reason _ id now =>
        exact .of_eq (insertChildless_frame s.db (f.deniedInvocation id reason now)).2.1
      | @batch _ _ p inserted hpc hp hb ha =>
        cases inserted with
        | false =>
          have hown : p.invocation.id ∈ f.owned := by
            unfold Firing.owned
            rw [hp]
            exact .head _
          exact .of_eq (refused_runs (h.unused f hmem (by rw [hpc]; rfl) _ hown) hb)
        | true =>
          obtain ⟨_, generatedId, targets, grants, rfl⟩ := (h.coherent f hmem).prepared p hp
          exact .admitted (insertInvocationGuarded_admitted hb)
    next => cases hs

/-- The launches that a step begins. -/
structure Launches (db db' : AutomationDb) (launches : List Launcher) : Prop where
  launched : ∀ l ∈ launches, l.pc = .claiming ∧ (∃ r ∈ db'.runs.rows, r.id = l.runId) ∧
    ∀ r ∈ db.runs.rows, r.id ≠ l.runId
  distinct : (launches.map Launcher.runId).Nodup

theorem Launches.none (db db' : AutomationDb) : Launches db db' [] where
  launched _ hl := absurd hl List.not_mem_nil
  distinct := List.nodup_nil

/-- The launches of the children of a firing that was admitted. -/
theorem Launches.admitted {p : GuardedInsert} (f : Firing) (h : Admitted db p db') :
    Launches db db' ((p.children.filter fun c => c.status = .starting).map f.launcher) where
  launched l hl := by
    obtain ⟨c, hc, rfl⟩ := List.mem_map.mp hl
    have hmem := (List.mem_filter.mp hc).1
    exact ⟨rfl, ⟨_, (h.runs _).mpr (.inr ⟨c, hmem, rfl⟩), rfl⟩, h.childrenNew.2 c hmem⟩
  distinct := by
    rw [List.map_map]
    exact h.childrenNew.1.sublist (List.filter_sublist.map AutomationRunRow.id)

/-- **The launches that a step of the firings begins** are those of new runs. -/
theorem firing_launches {s t : FiringState} {act : FiringAct}
    (hs : firingStep s act = some t) : Launches s.db t.db (beginLaunches s act) := by
  unfold beginLaunches
  split
  next n answer =>
    split
    next f hf =>
      split
      next now p hpc hp =>
        split
        next d hb =>
          have ht : t.db = d := by
            simp only [firingStep] at hs
            split at hs
            next =>
              simp only [hf, Option.bind_some, Firing.step, hpc, hp, Option.map_some, hb,
                Option.some.injEq] at hs
              rw [← hs]
            next => cases hs
          rw [ht]
          exact .admitted f (insertInvocationGuarded_admitted hb)
        next => exact .none ..
      next => exact .none ..
    next => exact .none ..
  next => exact .none ..

/-! ## Launches and retries -/

namespace Launcher

/-- The launcher may still send the prompt, or put its run back to wait. -/
def unsent (l : Launcher) : Bool :=
  match l.pc with
  | .claiming | .creating => true
  | .recording _ retryable => retryable
  | _ => false

theorem working_of_unsent {l : Launcher} (h : l.unsent = true) : l.working = true := by
  unfold working
  cases hpc : l.pc with
  | done =>
    rw [unsent, hpc] at h
    cases h
  | _ => simp

/-- What one step of a launch does. -/
structure Stepped (db : AutomationDb) (l : Launcher) (db' : AutomationDb) (l' : Launcher)
    (sends : Bool) : Prop where
  runId : l'.runId = l.runId
  working : l.working = true
  sent : sends = true → l.unsent = true
  unsent : l'.unsent = true → l.unsent = true ∧ sends = false
  wrote : db' = db ∨ ∃ st : RunStatement, db' = st.exec db ∧
    ∀ id reason failedAt retryAt, st = .failLaunchOrRetry id reason failedAt retryAt →
      id = l.runId ∧ l.unsent = true ∧ sends = false ∧ l'.working = false

theorem working_of_pc {l : Launcher} (h : l.pc ≠ .done) : l.working = true := by
  simp [working, h]

/-- **What a launch does**, one await at a time. -/
theorem step_stepped {l l' : Launcher} {answer : LauncherAnswer} {sends : Bool}
    (hs : l.step db answer = some (db', l', sends)) :
    Stepped db l db' l' sends := by
  unfold step at hs
  split at hs
  next hpc =>
    cases hs
    refine ⟨rfl, working_of_pc (by rw [hpc]; nofun), nofun, fun _ => ⟨?_, rfl⟩, .inl rfl⟩
    rw [unsent, hpc]
  next sessionId now budgetMs lost hpc =>
    have hw : l.working = true := working_of_pc (by rw [hpc]; nofun)
    have hu : l.unsent = true := by rw [unsent, hpc]
    have hwrote : ∃ st : RunStatement,
        db.claimRunSession l.runId sessionId now (now + budgetMs) = st.exec db ∧
          ∀ id reason failedAt retryAt, st = .failLaunchOrRetry id reason failedAt retryAt →
            False :=
      ⟨.claimRunSession l.runId sessionId now (now + budgetMs), rfl, nofun⟩
    obtain ⟨st, hdb, hno⟩ := hwrote
    simp only at hs
    split at hs
    next =>
      cases hs
      exact ⟨rfl, hw, nofun, fun _ => ⟨hu, rfl⟩,
        .inr ⟨st, hdb, fun _ _ _ _ h => (hno _ _ _ _ h).elim⟩⟩
    next =>
      split at hs
      next =>
        cases hs
        exact ⟨rfl, hw, nofun, fun _ => ⟨hu, rfl⟩,
          .inr ⟨st, hdb, fun _ _ _ _ h => (hno _ _ _ _ h).elim⟩⟩
      next =>
        cases hs
        exact ⟨rfl, hw, nofun, fun _ => ⟨hu, rfl⟩,
          .inr ⟨st, hdb, fun _ _ _ _ h => (hno _ _ _ _ h).elim⟩⟩
  next hpc =>
    cases hs
    refine ⟨rfl, working_of_pc (by rw [hpc]; nofun), nofun, fun _ => ⟨?_, rfl⟩, .inl rfl⟩
    rw [unsent, hpc]
  next hpc =>
    -- the prompt is sent here
    cases hs
    refine ⟨rfl, working_of_pc (by rw [hpc]; nofun), fun _ => ?_, nofun, .inl rfl⟩
    rw [unsent, hpc]
  next hpc =>
    cases hs
    refine ⟨rfl, working_of_pc (by rw [hpc]; nofun), nofun, ?_, .inl rfl⟩
    simp [unsent, fail]
  next hpc =>
    cases hs
    exact ⟨rfl, working_of_pc (by rw [hpc]; nofun), nofun, nofun, .inl rfl⟩
  next hpc =>
    cases hs
    exact ⟨rfl, working_of_pc (by rw [hpc]; nofun), nofun, nofun, .inl rfl⟩
  next hpc =>
    cases hs
    exact ⟨rfl, working_of_pc (by rw [hpc]; nofun), nofun, nofun,
      .inr ⟨.markRunFirstPromptQueued l.runId, rfl, nofun⟩⟩
  next hpc =>
    cases hs
    exact ⟨rfl, working_of_pc (by rw [hpc]; nofun), nofun, nofun, .inl rfl⟩
  next error retryable now hpc =>
    cases hs
    refine ⟨rfl, working_of_pc (by rw [hpc]; nofun), nofun, nofun, .inr ?_⟩
    unfold record
    split
    next reason =>
      exact ⟨.updateRun l.runId (.unauthorized reason) now, rfl, nofun⟩
    next message =>
      refine ⟨.failLaunchOrRetry l.runId message now (now + launchRetryDelayMs l.attempt), rfl, ?_⟩
      intro id reason failedAt retryAt h
      cases h
      exact ⟨rfl, by rw [unsent, hpc], rfl, rfl⟩
    next message =>
      exact ⟨.updateRun l.runId (.failed message) now, rfl, nofun⟩
    next message =>
      exact ⟨.updateRun l.runId (.failed message) now, rfl, nofun⟩
  next => cases hs

end Launcher

/-- **What a retry does**: it claims its run and begins a launch of it, or it writes
without making a run wait. -/
theorem Relaunch.step_wrote {r r' : Relaunch} {answer : RelaunchAnswer} {launch : Option Launcher}
    (hs : r.step db answer = some (db', r', launch)) :
    (launch = none ∧ (db' = db ∨ ∃ st : RunStatement, db' = st.exec db ∧
      ∀ id reason failedAt retryAt, st ≠ .failLaunchOrRetry id reason failedAt retryAt)) ∨
    ∃ now grants l,
      db.matchesRun (db.relaunchable r.run.id r.run.attempt now grants) = true ∧
      db' = db.claimRetry r.run.id r.run.attempt now grants ∧ launch = some l ∧
      l.runId = r.run.id := by
  unfold step at hs
  split at hs
  next =>
    cases hs
    exact .inl ⟨rfl, .inl rfl⟩
  next =>
    cases hs
    exact .inl ⟨rfl, .inl rfl⟩
  next admission now _ =>
    split at hs
    next hmatch =>
      cases hs
      exact .inr ⟨now, grants admission, _, hmatch, rfl, rfl, rfl⟩
    next =>
      cases hs
      exact .inl ⟨rfl, .inl rfl⟩
  next admission now _ =>
    cases hs
    exact .inl ⟨rfl, .inr ⟨.claimRetry r.run.id r.run.attempt now (grants admission), rfl, nofun⟩⟩
  next =>
    cases hs
    exact .inl ⟨rfl, .inl rfl⟩
  next now _ =>
    cases hs
    exact .inl ⟨rfl, .inr ⟨.failWithdrawnRetry r.run.id now, rfl, nofun⟩⟩
  next now _ =>
    cases hs
    exact .inl ⟨rfl, .inr ⟨.failWithdrawnRetry r.run.id now, rfl, nofun⟩⟩
  next =>
    cases hs
    exact .inl ⟨rfl, .inl rfl⟩
  next => cases hs

/-! ## The invariant -/

structure LifeInv (s : LifeState) : Prop where
  base : OverlapInv s.base
  sweepable : ∀ r ∈ s.base.db.runs.rows, r.Sweepable
  stored : ∀ l ∈ s.launchers, ∃ r ∈ s.base.db.runs.rows, r.id = l.runId
  sent : ∀ id ∈ s.prompts, ∃ r ∈ s.base.db.runs.rows, r.id = id
  alone : ∀ (m n : Nat) l k, s.launchers[m]? = some l → s.launchers[n]? = some k →
    l.working = true → k.working = true → l.runId = k.runId → m = n
  /-- A waiting run was not prompted, and nobody works on it. -/
  waiting : ∀ r ∈ s.base.db.runs.rows, r.status = .retrying →
    r.id ∉ s.prompts ∧ ∀ l ∈ s.launchers, l.working = true → l.runId ≠ r.id
  unsent : ∀ l ∈ s.launchers, l.unsent = true → l.runId ∉ s.prompts
  once : s.prompts.Nodup

namespace LifeInv

variable {s : LifeState}

theorem initial (automations : Table AutomationRow.id) (teams : Table TeamRow.id) :
    LifeInv (.initial (.created automations teams)) where
  base := .initial automations teams
  sweepable _ hr := absurd hr List.not_mem_nil
  stored _ hl := absurd hl List.not_mem_nil
  sent _ hid := absurd hid List.not_mem_nil
  alone m n l k hl := by cases hl
  waiting _ hr := absurd hr List.not_mem_nil
  unsent _ hl := absurd hl List.not_mem_nil
  once := List.nodup_nil

/-- A statement that makes a run wait only when nobody works on it any more. -/
theorem wrote (h : LifeInv s) {db' : AutomationDb} (q : Quiet s.base.db db')
    (hwait : ∀ r' ∈ db'.runs.rows, r'.status = .retrying →
      (∃ r ∈ s.base.db.runs.rows, r.id = r'.id ∧ r.status = .retrying) ∨
      (r'.id ∉ s.prompts ∧ ∀ l ∈ s.launchers, l.working = true → l.runId ≠ r'.id)) :
    LifeInv { s with base := { s.base with db := db' } } where
  base := h.base.quiet q
  sweepable r' hr' := by
    obtain ⟨r, hr, hmove⟩ := q.run_before hr'
    exact hmove.sweepable (h.sweepable r hr)
  stored l hl := by
    obtain ⟨r, hr, hid⟩ := h.stored l hl
    obtain ⟨r', hr', hmove⟩ := q.run_after hr
    exact ⟨r', hr', hmove.id.trans hid⟩
  sent id hid := by
    obtain ⟨r, hr, he⟩ := h.sent id hid
    obtain ⟨r', hr', hmove⟩ := q.run_after hr
    exact ⟨r', hr', hmove.id.trans he⟩
  alone := h.alone
  waiting r' hr' hs := by
    rcases hwait r' hr' hs with ⟨r, hr, hid, hretry⟩ | hfree
    · rw [← hid]
      exact h.waiting r hr hretry
    · exact hfree
  unsent := h.unsent
  once := h.once

/-- A statement on runs that makes none wait. -/
theorem ran (h : LifeInv s) (st : RunStatement)
    (hno : ∀ id reason failedAt retryAt, st ≠ .failLaunchOrRetry id reason failedAt retryAt) :
    LifeInv { s with base := { s.base with db := st.exec s.base.db } } := by
  refine h.wrote (.runStatement st) ?_
  intro r' hr' hs
  rcases st.retrying_before hr' hs with hold | ⟨_, _, _, _, reason, failedAt, retryAt, hst⟩
  · exact .inl hold
  · exact absurd hst (hno _ _ _ _)

/-- A step of the firings, without the launches it begins. -/
theorem fired (h : LifeInv s) {base : FiringState} (hb : OverlapInv base)
    (hf : Fired s.base.db base.db) : LifeInv { s with base } where
  base := hb
  sweepable r hr := by
    rcases hf.born r hr with hr | hstart | hfail
    · exact h.sweepable r hr
    · simp only [AutomationRunRow.Sweepable, hstart]
    · simp only [AutomationRunRow.Sweepable, hfail]
  stored l hl := by
    obtain ⟨r, hr, hid⟩ := h.stored l hl
    exact ⟨r, hf.kept r hr, hid⟩
  sent id hid := by
    obtain ⟨r, hr, he⟩ := h.sent id hid
    exact ⟨r, hf.kept r hr, he⟩
  alone := h.alone
  waiting r hr hs := by
    rcases hf.born r hr with hr | hstart | hfail
    · exact h.waiting r hr hs
    · cases hs.symm.trans hstart
    · cases hs.symm.trans hfail
  unsent := h.unsent
  once := h.once

/-- New launchers, each for a run that nobody works on, that does not wait and whose
prompt was not sent. -/
theorem launched (h : LifeInv s) (launches : List Launcher)
    (hstored : ∀ l ∈ launches, ∃ r ∈ s.base.db.runs.rows, r.id = l.runId)
    (hwait : ∀ l ∈ launches, ∀ r ∈ s.base.db.runs.rows, r.status = .retrying → l.runId ≠ r.id)
    (hfree : ∀ l ∈ launches, l.runId ∉ s.prompts ∧
      ∀ k ∈ s.launchers, k.working = true → k.runId ≠ l.runId)
    (hdistinct : (launches.map Launcher.runId).Nodup) :
    LifeInv { s with launchers := s.launchers ++ launches } where
  base := h.base
  sweepable := h.sweepable
  stored l hl := by
    rcases List.mem_append.mp hl with hl | hl
    · exact h.stored l hl
    · exact hstored l hl
  sent := h.sent
  alone m n l k hl hk hlw hkw hid := by
    rw [List.getElem?_append] at hl hk
    split at hl
    next =>
      split at hk
      next => exact h.alone m n l k hl hk hlw hkw hid
      next =>
        have hne := (hfree k (List.mem_of_getElem? hk)).2 l (List.mem_of_getElem? hl) hlw
        exact absurd hid hne
    next hm =>
      split at hk
      next =>
        have hne := (hfree l (List.mem_of_getElem? hl)).2 k (List.mem_of_getElem? hk) hkw
        exact absurd hid.symm hne
      next hn =>
        have hlt : m - s.launchers.length < (launches.map Launcher.runId).length := by
          rw [List.length_map]
          exact (List.getElem?_eq_some_iff.mp hl).1
        have heq : m - s.launchers.length = n - s.launchers.length := by
          refine (List.getElem?_inj hlt hdistinct).mp ?_
          rw [List.getElem?_map, List.getElem?_map, hl, hk, Option.map_some, Option.map_some, hid]
        omega
  waiting r hr hs := by
    obtain ⟨hprompt, hidle⟩ := h.waiting r hr hs
    refine ⟨hprompt, ?_⟩
    intro l hl hw
    rcases List.mem_append.mp hl with hl | hl
    · exact hidle l hl hw
    · exact hwait l hl r hr hs
  unsent l hl hu := by
    rcases List.mem_append.mp hl with hl | hl
    · exact h.unsent l hl hu
    · exact (hfree l hl).1
  once := h.once

/-- A launcher that moves on, before what it wrote. -/
theorem resumed (h : LifeInv s) {n : Nat} {l l' : Launcher} {db' : AutomationDb} {sends : Bool}
    (hl : s.launchers[n]? = some l) (hstep : Launcher.Stepped s.base.db l db' l' sends) :
    LifeInv { s with
      launchers := s.launchers.set n l'
      prompts := if sends then l.runId :: s.prompts else s.prompts } := by
  have hmem := List.mem_of_getElem? hl
  have hget : ∀ (m : Nat) k, (s.launchers.set n l')[m]? = some k →
      (m = n ∧ k = l') ∨ (m ≠ n ∧ s.launchers[m]? = some k) := by
    intro m k hk
    rw [List.getElem?_set] at hk
    split at hk
    next hmn =>
      split at hk
      next => exact .inl ⟨hmn.symm, (Option.some.inj hk).symm⟩
      next => cases hk
    next hmn => exact .inr ⟨fun he => hmn he.symm, hk⟩
  have hprompts : ∀ id, id ∈ (if sends then l.runId :: s.prompts else s.prompts) →
      id ∈ s.prompts ∨ (sends = true ∧ id = l.runId) := by
    intro id hid
    split at hid
    next hs =>
      rcases List.mem_cons.mp hid with rfl | hid
      · exact .inr ⟨hs, rfl⟩
      · exact .inl hid
    next => exact .inl hid
  refine ⟨h.base, h.sweepable, ?_, ?_, ?_, ?_, ?_, ?_⟩
  · intro k hk
    rcases List.mem_or_eq_of_mem_set hk with hk | rfl
    · exact h.stored k hk
    · rw [hstep.runId]
      exact h.stored l hmem
  · intro id hid
    rcases hprompts id hid with hid | ⟨_, rfl⟩
    · exact h.sent id hid
    · exact h.stored l hmem
  · intro i j a b ha hb haw hbw hid
    rcases hget i a ha with ⟨rfl, rfl⟩ | ⟨_, ha'⟩
    · rcases hget j b hb with ⟨rfl, _⟩ | ⟨_, hb'⟩
      · rfl
      · exact h.alone i j l b hl hb' hstep.working hbw (hstep.runId ▸ hid)
    · rcases hget j b hb with ⟨rfl, rfl⟩ | ⟨_, hb'⟩
      · exact h.alone i j a l ha' hl haw hstep.working (hstep.runId ▸ hid)
      · exact h.alone i j a b ha' hb' haw hbw hid
  · intro r hr hs
    obtain ⟨hprompt, hidle⟩ := h.waiting r hr hs
    constructor
    · intro hid
      rcases hprompts r.id hid with hid | ⟨_, hid⟩
      · exact hprompt hid
      · exact hidle l hmem hstep.working hid.symm
    · intro k hk hw
      rcases List.mem_or_eq_of_mem_set hk with hk | rfl
      · exact hidle k hk hw
      · rw [hstep.runId]
        exact hidle l hmem hstep.working
  · intro k hk hu hid
    obtain ⟨m, hm⟩ := List.mem_iff_getElem?.mp hk
    rcases hget m k hm with ⟨_, rfl⟩ | ⟨hmn, hm⟩
    · obtain ⟨hlu, hno⟩ := hstep.unsent hu
      rw [hno, hstep.runId] at hid
      exact h.unsent l hmem hlu hid
    · rcases hprompts k.runId hid with hid | ⟨_, hid⟩
      · exact h.unsent k (List.mem_of_getElem? hm) hu hid
      · exact hmn (h.alone m n k l hm hl (Launcher.working_of_unsent hu) hstep.working hid)
  · split
    next hs => exact List.nodup_cons.mpr ⟨h.unsent l hmem (hstep.sent hs), h.once⟩
    next => exact h.once

/-- **One step keeps the invariant.** -/
theorem step {t : LifeState} {act : LifeAct} (h : LifeInv s)
    (hs : life.step s act = some t) : LifeInv t := by
  simp only [life] at hs
  unfold lifeStep at hs
  split at hs
  next => cases hs
  next act hrun =>
    obtain ⟨base, hbase, rfl⟩ := Option.map_eq_some_iff.mp hs
    have hfired := firing_fired h.base (fun st he => hrun st he) hbase
    have hnew := firing_launches hbase
    refine (h.fired (h.base.step hbase) hfired).launched _ ?_ ?_ ?_ hnew.distinct
    · exact fun l hl => (hnew.launched l hl).2.1
    · intro l hl r hr hretry he
      -- a waiting run is an old one
      rcases hfired.born r hr with hr | hstart | hfail
      · exact (hnew.launched l hl).2.2 r hr he.symm
      · cases hretry.symm.trans hstart
      · cases hretry.symm.trans hfail
    · intro l hl
      have hfree := (hnew.launched l hl).2.2
      constructor
      · intro hid
        obtain ⟨r, hr, he⟩ := h.sent _ hid
        exact hfree r hr he
      · intro k hk _ he
        obtain ⟨r, hr, hid⟩ := h.stored k hk
        exact hfree r hr (hid.trans he)
  next n answer =>
    obtain ⟨l, hl, hs⟩ := Option.bind_eq_some_iff.mp hs
    obtain ⟨⟨db', l', sends⟩, hstep, rfl⟩ := Option.map_eq_some_iff.mp hs
    have hst := Launcher.step_stepped hstep
    have hres := h.resumed hl hst
    rcases hst.wrote with rfl | ⟨st, rfl, hfail⟩
    · exact hres
    · refine hres.wrote (.runStatement st) ?_
      intro r' hr' hretry
      rcases st.retrying_before hr' hretry with hold | ⟨_, _, _, _, reason, failedAt, retryAt, hst'⟩
      · exact .inl hold
      · -- the launcher puts its own run back to wait, and is done
        obtain ⟨hid, hu, hno, hdone⟩ := hfail _ _ _ _ hst'
        refine .inr ⟨?_, ?_⟩
        · rw [hno, hid]
          exact h.unsent l (List.mem_of_getElem? hl) hu
        · intro k hk hw he
          obtain ⟨m, hm⟩ := List.mem_iff_getElem?.mp hk
          have hm' := hm
          rw [List.getElem?_set] at hm
          split at hm
          next =>
            split at hm
            next =>
              cases hm
              rw [hdone] at hw
              cases hw
            next => cases hm
          next hmn =>
            exact hmn (h.alone n m l k hl hm hst.working hw (hid.symm.trans he.symm))
  next runId now =>
    obtain ⟨run, _, rfl⟩ := Option.map_eq_some_iff.mp hs
    exact ⟨h.base, h.sweepable, h.stored, h.sent, h.alone, h.waiting, h.unsent, h.once⟩
  next n answer =>
    obtain ⟨r, hr, hs⟩ := Option.bind_eq_some_iff.mp hs
    obtain ⟨⟨db', r', launch⟩, hstep, rfl⟩ := Option.map_eq_some_iff.mp hs
    rcases Relaunch.step_wrote hstep with ⟨rfl, hwrote⟩ | ⟨now, grants, l, hmatch, rfl, rfl, hid⟩
    · have hran : LifeInv { s with base := { s.base with db := db' } } := by
        rcases hwrote with rfl | ⟨st, rfl, hno⟩
        · exact h
        · exact h.ran st hno
      simp only [Option.toList, List.append_nil]
      exact ⟨hran.base, hran.sweepable, hran.stored, hran.sent, hran.alone, hran.waiting,
        hran.unsent, hran.once⟩
    · obtain ⟨⟨run, hmem, hrun, hretry⟩, hclaimed⟩ := claimRetry_claimed hmatch
      obtain ⟨hprompt, hidle⟩ := h.waiting run hmem hretry
      have hran := h.ran (.claimRetry r.run.id r.run.attempt now grants) nofun
      have hnew := hran.launched [l] ?_ ?_ ?_ (List.nodup_singleton _)
      · exact ⟨hnew.base, hnew.sweepable, hnew.stored, hnew.sent, hnew.alone, hnew.waiting,
          hnew.unsent, hnew.once⟩
      · intro k hk
        rw [List.mem_singleton.mp hk, hid]
        obtain ⟨r', hr', hmove⟩ :=
          (Quiet.runStatement (.claimRetry r.run.id r.run.attempt now grants)).run_after hmem
        exact ⟨r', hr', hmove.id.trans hrun⟩
      · intro k hk r' hr' hs' he
        rw [List.mem_singleton.mp hk, hid] at he
        exact hclaimed r' hr' he.symm hs'
      · intro k hk
        rw [List.mem_singleton.mp hk, hid, ← hrun]
        exact ⟨hprompt, hidle⟩
  next statement =>
    split at hs
    next hun =>
      cases hs
      refine h.ran statement ?_
      rintro id reason failedAt retryAt rfl
      cases hun
    next => cases hs

end LifeInv

/-! ## The result -/

/-- What a step makes of the runs there are. -/
theorem LifeInv.evolves {s t : LifeState} {act : LifeAct} (h : LifeInv s)
    (hs : life.step s act = some t) : ∀ r ∈ s.base.db.runs.rows,
      ∃ r' ∈ t.base.db.runs.rows, RunStep s.base.db r r' := by
  have hsame : ∀ r, RunStep s.base.db r r := fun r => (RunMove.refl r).runStep
  have hquiet : ∀ {db' : AutomationDb}, Quiet s.base.db db' → ∀ r ∈ s.base.db.runs.rows,
      ∃ r' ∈ db'.runs.rows, RunStep s.base.db r r' := by
    intro db' q r hr
    obtain ⟨r', hr', hmove⟩ := q.run_after hr
    exact ⟨r', hr', hmove.runStep⟩
  simp only [life] at hs
  unfold lifeStep at hs
  split at hs
  next => cases hs
  next act hrun =>
    obtain ⟨base, hbase, rfl⟩ := Option.map_eq_some_iff.mp hs
    intro r hr
    exact ⟨r, (firing_fired h.base (fun st he => hrun st he) hbase).kept r hr, hsame r⟩
  next n answer =>
    obtain ⟨l, hl, hs⟩ := Option.bind_eq_some_iff.mp hs
    obtain ⟨⟨db', l', sends⟩, hstep, rfl⟩ := Option.map_eq_some_iff.mp hs
    rcases (Launcher.step_stepped hstep).wrote with rfl | ⟨st, rfl, _⟩
    · exact fun r hr => ⟨r, hr, hsame r⟩
    · exact hquiet (.runStatement st)
  next runId now =>
    obtain ⟨run, _, rfl⟩ := Option.map_eq_some_iff.mp hs
    exact fun r hr => ⟨r, hr, hsame r⟩
  next n answer =>
    obtain ⟨r, hr, hs⟩ := Option.bind_eq_some_iff.mp hs
    obtain ⟨⟨db', r', launch⟩, hstep, rfl⟩ := Option.map_eq_some_iff.mp hs
    rcases Relaunch.step_wrote hstep with ⟨_, rfl | ⟨st, rfl, _⟩⟩ | ⟨now, grants, l, _, rfl, _⟩
    · exact fun r hr => ⟨r, hr, hsame r⟩
    · exact hquiet (.runStatement st)
    · exact hquiet (.runStatement (.claimRetry r.run.id r.run.attempt now grants))
  next statement =>
    split at hs
    next =>
      cases hs
      exact hquiet (.runStatement statement)
    next => cases hs

/-- A run in one of the states of `Sweepable` is taken up in time. -/
theorem AutomationRunRow.Sweepable.takenUp {db : AutomationDb} {r : AutomationRunRow}
    (h : r.Sweepable) (hr : r ∈ db.runs.rows) (hactive : r.status.active = true)
    (defaultDeadlineMs : Millis) :
    ∃ due, ∀ now, due ≤ now → db.takenUp now defaultDeadlineMs r := by
  unfold AutomationRunRow.Sweepable at h
  cases hs : r.status with
  | starting =>
    refine ⟨r.createdAt + orphanThresholdMs + 1, fun now hnow => .inl ?_⟩
    have hlt : r.createdAt < now - orphanThresholdMs := Nat.lt_sub_of_add_lt hnow
    simp [orphanedStartingRun, hs, hlt]
  | running =>
    rw [hs] at h
    cases hdeadline : r.executionDeadlineAt with
    | some deadline =>
      refine ⟨deadline + 1, fun now hnow => .inr (.inl ?_)⟩
      have hlt : deadline < now := hnow
      simp [runPastExecutionDeadline, hs, hdeadline, hlt]
    | none =>
      obtain ⟨startedAt, hstarted⟩ := Option.ne_none_iff_exists'.mp
        (h.resolve_left fun hne => hne hdeadline)
      refine ⟨startedAt + defaultDeadlineMs + 1, fun now hnow => .inr (.inl ?_)⟩
      have hlt : startedAt < now - defaultDeadlineMs := Nat.lt_sub_of_add_lt hnow
      simp [runPastExecutionDeadline, hs, hdeadline, hstarted, hlt]
  | retrying =>
    rw [hs] at h
    obtain ⟨retryAt, hretry⟩ := Option.ne_none_iff_exists'.mp h
    refine ⟨retryAt, fun now hnow => .inr (.inr ?_)⟩
    refine List.mem_filter.mpr ⟨hr, ?_⟩
    simp [hs, hretry, hnow]
  | completed => rw [hs] at hactive; cases hactive
  | failed => rw [hs] at hactive; cases hactive
  | skipped => rw [hs] at hactive; cases hactive
  | unauthorized => rw [hs] at hactive; cases hactive

theorem LifeInv.runLife {s : LifeState} (h : LifeInv s) : RunLife s where
  oneLauncher := h.alone
  onePrompt := List.nodup_iff_count_le_one.mp h.once
  evolves _ _ hs := h.evolves hs
  swept defaultDeadlineMs r hr hactive := (h.sweepable r hr).takenUp hr hactive defaultDeadlineMs

/-- **A run is prompted once and ends once**, whatever the order of launches, retries,
sweeps, callbacks, firings and edits. -/
theorem runs_live_once {automations : Table AutomationRow.id} {teams : Table TeamRow.id}
    {s : LifeState} (h : life.Reachable anyStep (.initial (.created automations teams)) s) :
    RunLife s :=
  (h.inv LifeInv (.initial automations teams) fun _ _ _ hi _ hs => hi.step hs).runLife

/-- A firing whose first launch fails before the prompt, and whose retry completes. -/
def retriedRun : List LifeAct :=
  [.firing (.begin (.tick 1 10 100)), .firing (.resume 0 (.identity none 10)),
    .firing (.resume 0 (.stored 10)), .firing (.resume 0 (.prepared 20 [(21, none)] none)),
    .firing (.resume 0 (.stored 11)),
    .launcher 0 (.claimed 50 12 1000 none), .launcher 0 (.threw (.other "no capacity")),
    .launcher 0 (.stored 13),
    .retryDue 21 120013, .relaunch 0 (.admitted none), .relaunch 0 (.stored 120013),
    .launcher 1 (.claimed 51 120014 1000 none), .launcher 1 .returned, .launcher 1 .returned,
    .launcher 1 (.stored 120015), .unattended (.updateRun 21 .completed 130000)]

def retriedAutomation : AutomationRow where
  id := 1
  nextRunAt := some 5
  maxRetries := 1
  userId := some 7

/-- It was launched twice, prompted once, and is completed. -/
theorem runs_live_once_retried :
    ∃ s, life.run anyStep (.initial (.created ⟨[retriedAutomation], by decide⟩ .empty))
        retriedRun = some s ∧
      s.prompts = [21] ∧ s.launchers.map Launcher.attempt = [1, 2] ∧
      s.base.db.runs.rows.map (fun r => (r.status, r.attempt)) = [(.completed, 2)] ∧
      RunLife s := by
  have hrun : (life.run anyStep (.initial (.created ⟨[retriedAutomation], by decide⟩ .empty))
      retriedRun).map (fun s => (s.prompts, s.launchers.map Launcher.attempt,
        s.base.db.runs.rows.map fun r => (r.status, r.attempt))) =
        some ([21], [1, 2], [(.completed, 2)]) := by decide
  obtain ⟨s, hs, hshape⟩ := Option.map_eq_some_iff.mp hrun
  obtain ⟨hprompts, hshape⟩ := Prod.mk.inj hshape
  obtain ⟨hattempts, hruns⟩ := Prod.mk.inj hshape
  exact ⟨s, hs, hprompts, hattempts, hruns, runs_live_once (System.run_reachable hs)⟩

end BackgroundAgents.Automation

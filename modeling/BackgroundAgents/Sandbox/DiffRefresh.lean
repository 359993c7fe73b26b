import BackgroundAgents.Lib.Transition
import BackgroundAgents.Lib.Workers

/-!
# The session diff worker

`SessionDiffRefreshWorker` coalesces requests into one collection of the idle
checkout. A task runs from one await to the next in one step; what its await
comes back with is part of the step, and so is what `load_repo_manifest` finds
if the step gets to it.

The gate is an `asyncio.Event`: `set` makes the waiting task runnable and no
more. Until that task runs (`wake`), a prompt may have cleared the event again,
which the task does not notice.
-/

namespace BackgroundAgents.Sandbox.DiffRefresh

open Transition

def SESSION_DIFF_MAX_ERROR_LENGTH : Nat := 2000

/-- `_RefreshAttempt`, with the time of its snapshot and whether a prompt was running or started,
or a refresh was requested, since. -/
structure RefreshAttempt where
  generation : Nat
  activity_generation : Nat
  trigger_message_id : Option String
  snapshotAt : Nat
  disturbed : Bool
  deriving DecidableEq, Repr

inductive Stage where
  /-- created, and not yet run -/
  | created
  /-- in `_idle.wait()`; `woken` once the event was set -/
  | waiting (woken : Bool)
  | collecting (attempt : RefreshAttempt)
  | uploading (attempt : RefreshAttempt)
  | reporting (attempt : RefreshAttempt)
  deriving DecidableEq, Repr

structure Task where
  id : Nat
  stage : Stage
  deriving DecidableEq, Repr

structure Worker where
  requested_generation : Nat
  settled_generation : Nat
  activity_generation : Nat
  trigger_message_id : Option String
  active_prompt_count : Nat
  idle : Bool
  /-- the task that `_task` refers to -/
  task : Option Nat
  unsupported : Bool
  closed : Bool
  /-- the tasks that have not ended -/
  tasks : List Task
  created : Nat
  now : Nat
  -- what happened so far
  requests : List Nat
  settled : List RefreshAttempt
  uploads : List RefreshAttempt
  /-- the errors that were reported to the control plane -/
  reports : List String
  deriving DecidableEq, Repr

/-- What `load_repo_manifest` finds. -/
inductive Manifest where
  | repositories (isEmpty : Bool)
  | raised
  deriving DecidableEq, Repr

/-- A bundle by the status of each of its repositories. -/
inductive Collected where
  | bundle (statuses : List String)
  | raised (error : String)
  deriving DecidableEq, Repr

/-- How a call of the control plane ends. -/
inductive Answer where
  | accepted
  | unsupported
  | raised (error : String)
  deriving DecidableEq, Repr

def disturb (attempt : RefreshAttempt) : RefreshAttempt := { attempt with disturbed := true }

def Stage.map (f : RefreshAttempt → RefreshAttempt) : Stage → Stage
  | .created => .created
  | .waiting woken => .waiting woken
  | .collecting attempt => .collecting (f attempt)
  | .uploading attempt => .uploading (f attempt)
  | .reporting attempt => .reporting (f attempt)

/-- `_idle.set()` resolves what waits for it. -/
def Stage.wake : Stage → Stage
  | .waiting _ => .waiting true
  | stage => stage

namespace Worker

def onStages (w : Worker) (f : Stage → Stage) : Worker :=
  { w with tasks := w.tasks.map fun t => { t with stage := f t.stage } }

/-! ## Calls -/

def prompt_started (w : Worker) : Worker :=
  { w.onStages (·.map disturb) with
    activity_generation := w.activity_generation + 1
    active_prompt_count := w.active_prompt_count + 1
    idle := false }

def prompt_finished (w : Worker) : Worker :=
  let w := { w with active_prompt_count := w.active_prompt_count - 1 }
  if w.active_prompt_count = 0 then { w.onStages Stage.wake with idle := true } else w

/-- `asyncio.create_task(self._run())` -/
def create_task (w : Worker) : Worker :=
  { w with
    task := some w.created
    tasks := w.tasks ++ [{ id := w.created, stage := .created }]
    created := w.created + 1 }

/-- `self._task is None or self._task.done()` -/
def taskDone (w : Worker) : Bool :=
  w.task.all fun id => !w.tasks.any fun t => t.id = id

def request (w : Worker) (trigger_message_id : Option String) : Worker :=
  let w := { w with requests := w.requests ++ [w.now] }
  if w.unsupported ∨ w.closed then w
  else
    let w :=
      { w.onStages (·.map disturb) with
        requested_generation := w.requested_generation + 1
        trigger_message_id }
    if w.taskDone then w.create_task else w

/-- `close`, up to its wait for the task. -/
def close (w : Worker) : Worker := { w with closed := true }

/-! ## The task -/

def goto (w : Worker) (i : Nat) (task : Task) (stage : Stage) : Worker :=
  { w with tasks := advance w.tasks i (some { task with stage }) }

def restart_if_requested_during_exit (w : Worker) : Worker :=
  if ¬ w.unsupported ∧ ¬ w.closed ∧ w.settled_generation < w.requested_generation then
    w.create_task
  else w

/-- The `finally` of `_run`. -/
def exit (w : Worker) (i : Nat) : Worker :=
  { w with tasks := advance w.tasks i none, task := none }.restart_if_requested_during_exit

def snapshot_attempt (w : Worker) : RefreshAttempt where
  generation := w.requested_generation
  activity_generation := w.activity_generation
  trigger_message_id := w.trigger_message_id
  snapshotAt := w.now
  disturbed := w.active_prompt_count > 0

def settle (w : Worker) (attempt : RefreshAttempt) : Worker :=
  { w with settled_generation := attempt.generation, settled := w.settled ++ [attempt] }

/-- The snapshot and `_settle` up to the collection. Without repositories the loop ends with it:
it settles all that was requested. -/
def attempt (w : Worker) (i : Nat) (task : Task) (manifest : Manifest) : Worker :=
  match manifest with
  | .raised => w.exit i
  | .repositories true => (w.settle w.snapshot_attempt).exit i
  | .repositories false => w.goto i task (.collecting w.snapshot_attempt)

/-- The head of the loop. -/
def loop (w : Worker) (i : Nat) (task : Task) (manifest : Manifest) : Worker :=
  if ¬ w.unsupported ∧ w.settled_generation < w.requested_generation then
    if w.idle then w.attempt i task manifest else w.goto i task (.waiting false)
  else w.exit i

def is_stale (w : Worker) (attempt : RefreshAttempt) : Bool :=
  w.active_prompt_count > 0 ∨ attempt.generation ≠ w.requested_generation ∨
    attempt.activity_generation ≠ w.activity_generation

def mark_unsupported (w : Worker) : Worker := { w with unsupported := true }

def reportMessage (error : String) : String :=
  let message := (error.take SESSION_DIFF_MAX_ERROR_LENGTH).toString
  if message = "" then "Session diff refresh failed" else message

/-- `_report_failure`, and what follows where it does not wait. -/
def report_failure (w : Worker) (i : Nat) (task : Task) (attempt : RefreshAttempt)
    (error : String) (manifest : Manifest) : Worker :=
  if w.unsupported then (w.settle attempt).loop i task manifest
  else { w with reports := w.reports ++ [reportMessage error] }.goto i task (.reporting attempt)

def collection_failed (w : Worker) (i : Nat) (task : Task) (attempt : RefreshAttempt)
    (error : String) (manifest : Manifest) : Worker :=
  if w.is_stale attempt then w.loop i task manifest
  else w.report_failure i task attempt error manifest

/-- The collection ends. -/
def collected (w : Worker) (i : Nat) (task : Task) (attempt : RefreshAttempt)
    (collected : Collected) (manifest : Manifest) : Worker :=
  match collected with
  | .raised error => w.collection_failed i task attempt error manifest
  | .bundle statuses =>
    if statuses.all (· ≠ "ready") then
      w.collection_failed i task attempt "All repositories failed to collect changes" manifest
    else if w.is_stale attempt then w.loop i task manifest
    else { w with uploads := w.uploads ++ [attempt] }.goto i task (.uploading attempt)

/-- The upload ends. -/
def uploaded (w : Worker) (i : Nat) (task : Task) (attempt : RefreshAttempt) (answer : Answer)
    (manifest : Manifest) : Worker :=
  match answer with
  | .raised error => w.report_failure i task attempt error manifest
  | .unsupported => (w.mark_unsupported.settle attempt).loop i task manifest
  | .accepted => (w.settle attempt).loop i task manifest

/-- The failure report ends, which is only logged if it fails itself. -/
def reported (w : Worker) (i : Nat) (task : Task) (attempt : RefreshAttempt) (answer : Answer)
    (manifest : Manifest) : Worker :=
  match answer with
  | .raised _ => (w.settle attempt).loop i task manifest
  | .unsupported => (w.mark_unsupported.settle attempt).loop i task manifest
  | .accepted => (w.settle attempt).loop i task manifest

end Worker

/-! ## Runs -/

/-- `run` is the first step of a task, `wake` the one after its wait. A task that has begun is
cancelled where it waits, by a `flush` that timed out. -/
inductive Act where
  | prompt_started
  | prompt_finished
  | request (trigger_message_id : Option String)
  | close
  | run (task : Nat) (manifest : Manifest)
  | wake (task : Nat) (manifest : Manifest)
  | collected (task : Nat) (collected : Collected) (manifest : Manifest)
  | uploaded (task : Nat) (answer : Answer) (manifest : Manifest)
  | reported (task : Nat) (answer : Answer) (manifest : Manifest)
  | cancel (task : Nat)
  deriving DecidableEq, Repr

def Worker.tick (w : Worker) : Worker := { w with now := w.now + 1 }

/-- A task's step, where it waits for just that. -/
def Worker.taskStep (w : Worker) (i : Nat) (task : Task) : Act → Option Worker
  | .run _ manifest => if task.stage = .created then some (w.loop i task manifest) else none
  | .wake _ manifest =>
    if task.stage = .waiting true then some (w.attempt i task manifest) else none
  | .collected _ collected manifest =>
    match task.stage with
    | .collecting attempt => some (w.collected i task attempt collected manifest)
    | _ => none
  | .uploaded _ answer manifest =>
    match task.stage with
    | .uploading attempt => some (w.uploaded i task attempt answer manifest)
    | _ => none
  | .reported _ answer manifest =>
    match task.stage with
    | .reporting attempt => some (w.reported i task attempt answer manifest)
    | _ => none
  | .cancel _ => if task.stage = .created then none else some (w.exit i)
  | _ => none

def Act.task? : Act → Option Nat
  | .run i _ | .wake i _ | .collected i _ _ | .uploaded i _ _ | .reported i _ _ | .cancel i => some i
  | _ => none

def Worker.step (w : Worker) (act : Act) : Option Worker :=
  let w := w.tick
  match act with
  | .prompt_started => some w.prompt_started
  | .prompt_finished => some w.prompt_finished
  | .request trigger_message_id => some (w.request trigger_message_id)
  | .close => some w.close
  | act => act.task?.bind fun i => (w.tasks[i]?).bind fun task => w.taskStep i task act

def refreshSystem : System Worker Act where
  step := Worker.step

def Worker.initial : Worker where
  requested_generation := 0
  settled_generation := 0
  activity_generation := 0
  trigger_message_id := none
  active_prompt_count := 0
  idle := true
  task := none
  unsupported := false
  closed := false
  tasks := []
  created := 0
  now := 0
  requests := []
  settled := []
  uploads := []
  reports := []

/-! ## The invariant -/

def Stage.attempt? : Stage → Option RefreshAttempt
  | .collecting attempt => some attempt
  | .uploading attempt => some attempt
  | .reporting attempt => some attempt
  | _ => none

/-- An attempt of the worker: where nothing was requested beyond it, its snapshot came after every
request. -/
def Known (w : Worker) (attempt : RefreshAttempt) : Prop :=
  attempt.generation ≤ w.requested_generation ∧
    attempt.activity_generation ≤ w.activity_generation ∧
    (attempt.generation = w.requested_generation → w.unsupported = true ∨ w.closed = true ∨
      ∀ request ∈ w.requests, request ≤ attempt.snapshotAt)

/-- What disturbed an attempt shows in the generations. -/
def Tracked (w : Worker) (attempt : RefreshAttempt) : Prop :=
  attempt.disturbed = true → attempt.activity_generation < w.activity_generation ∨
    attempt.generation < w.requested_generation

/-- What holds also while a task ends; its last parts are for runs that are `careful` at the
gate. -/
structure Steady (careful : Prop) (w : Worker) : Prop where
  one : w.tasks.length ≤ 1
  current : ∀ task ∈ w.tasks, w.task = some task.id
  gate : w.idle = true ↔ w.active_prompt_count = 0
  behind : w.settled_generation ≤ w.requested_generation
  requested : w.requested_generation = 0 → w.unsupported = true ∨ w.closed = true ∨
    w.requests = []
  past : ∀ request ∈ w.requests, request ≤ w.now
  known : ∀ task ∈ w.tasks, ∀ attempt, task.stage.attempt? = some attempt → Known w attempt
  settled : ∀ attempt ∈ w.settled, Known w attempt
  latest : 0 < w.settled_generation →
    ∃ attempt ∈ w.settled, attempt.generation = w.settled_generation
  tracked : careful → ∀ task ∈ w.tasks, ∀ attempt, task.stage.attempt? = some attempt →
    Tracked w attempt
  undisturbed : careful → ∀ attempt ∈ w.uploads, attempt.disturbed = false

/-- The invariant. -/
structure Sound (careful : Prop) (w : Worker) : Prop extends Steady careful w where
  ended : w.tasks = [] → w.unsupported = true ∨ w.closed = true ∨
    w.settled_generation = w.requested_generation

variable {careful : Prop} {w : Worker} {task : Task} {attempt : RefreshAttempt}
  {manifest : Manifest} {stage : Stage}

theorem sound_initial : Sound careful Worker.initial where
  one := Nat.zero_le 1
  current := fun _ h => absurd h List.not_mem_nil
  gate := ⟨fun _ => rfl, fun _ => rfl⟩
  ended := fun _ => .inr (.inr rfl)
  behind := Nat.le_refl 0
  requested := fun _ => .inr (.inr rfl)
  past := fun _ h => absurd h List.not_mem_nil
  known := fun _ h => absurd h List.not_mem_nil
  settled := fun _ h => absurd h List.not_mem_nil
  latest := fun h => absurd h (Nat.lt_irrefl 0)
  tracked := fun _ _ h => absurd h List.not_mem_nil
  undisturbed := fun _ _ h => absurd h List.not_mem_nil

theorem Sound.tick (h : Sound careful w) : Sound careful w.tick :=
  { h with past := fun request hrequest => Nat.le_succ_of_le (h.past request hrequest) }

theorem attempt?_map {f : RefreshAttempt → RefreshAttempt} :
    (stage.map f).attempt? = stage.attempt?.map f := by
  cases stage <;> rfl

theorem attempt?_wake : stage.wake.attempt? = stage.attempt? := by
  cases stage <;> rfl

/-- Nobody else's task. -/
theorem Sound.only (h : Sound careful w) {i : Nat} (hi : w.tasks[i]? = some task) :
    w.tasks = [task] ∧ i = 0 := by
  obtain ⟨hlt, hget⟩ := List.getElem?_eq_some_iff.mp hi
  have hone := h.one
  have hzero : i = 0 := by omega
  subst hzero
  obtain ⟨only, honly⟩ := List.length_eq_one_iff.mp (show w.tasks.length = 1 by omega)
  refine ⟨?_, rfl⟩
  rw [honly, List.getElem?_cons_zero, Option.some.injEq] at hi
  rw [honly, hi]

/-! ## The task -/

theorem Sound.goto (h : Sound careful w) (hw : w.tasks = [task])
    (hknown : ∀ attempt, stage.attempt? = some attempt → Known w attempt)
    (htracked : careful → ∀ attempt, stage.attempt? = some attempt → Tracked w attempt) :
    Sound careful (w.goto 0 task stage) := by
  have htasks : (w.goto 0 task stage).tasks = [{ task with stage }] := by
    show advance w.tasks 0 (some _) = _
    rw [hw]
    rfl
  have hmem : ∀ t ∈ (w.goto 0 task stage).tasks, t = { task with stage } := by
    intro t ht
    rw [htasks] at ht
    exact List.mem_singleton.mp ht
  refine ⟨?_, ?ended⟩
  case ended =>
    intro hempty
    rw [htasks] at hempty
    cases hempty
  constructor
  case one =>
    rw [htasks]
    exact Nat.le_refl 1
  case current =>
    intro t ht
    rw [hmem t ht]
    exact h.current task (by rw [hw]; exact List.mem_singleton.mpr rfl)
  case gate => exact h.gate
  case behind => exact h.behind
  case requested => exact h.requested
  case past => exact h.past
  case known =>
    intro t ht attempt hattempt
    rw [hmem t ht] at hattempt
    exact hknown attempt hattempt
  case settled => exact h.settled
  case latest => exact h.latest
  case tracked =>
    intro hcareful t ht attempt hattempt
    rw [hmem t ht] at hattempt
    exact htracked hcareful attempt hattempt
  case undisturbed => exact h.undisturbed

/-- A new task, where there is none. -/
theorem Steady.create_task (h : Steady careful w) (hw : w.tasks = []) :
    Sound careful w.create_task := by
  have hmem : ∀ t ∈ w.create_task.tasks, t = { id := w.created, stage := .created } := by
    intro t ht
    have hnew : t ∈ w.tasks ++ [_] := ht
    rw [hw] at hnew
    exact List.mem_singleton.mp hnew
  refine ⟨?_, ?ended⟩
  case ended =>
    intro hempty
    have hnew : w.tasks ++ [_] = [] := hempty
    rw [hw] at hnew
    cases hnew
  constructor
  case one =>
    show (w.tasks ++ [_]).length ≤ 1
    rw [hw]
    exact Nat.le_refl 1
  case current =>
    intro t ht
    rw [hmem t ht]
    rfl
  case gate => exact h.gate
  case behind => exact h.behind
  case requested => exact h.requested
  case past => exact h.past
  case known =>
    intro t ht attempt hattempt
    rw [hmem t ht] at hattempt
    cases hattempt
  case settled => exact h.settled
  case latest => exact h.latest
  case tracked =>
    intro _ t ht attempt hattempt
    rw [hmem t ht] at hattempt
    cases hattempt
  case undisturbed => exact h.undisturbed

theorem Sound.exit (h : Sound careful w) (hw : w.tasks = [task]) :
    Sound careful (w.exit 0) := by
  have htasks : advance w.tasks 0 none = [] := by
    rw [hw]
    rfl
  have hnone : ∀ t ∈ advance w.tasks 0 none, False := by
    intro t ht
    rw [htasks] at ht
    cases ht
  have hsteady : Steady careful { w with tasks := advance w.tasks 0 none, task := none } :=
    { h with
      one := by
        rw [htasks]
        exact Nat.zero_le 1
      current := fun t ht => absurd ht (hnone t)
      known := fun t ht => absurd ht (hnone t)
      tracked := fun _ t ht => absurd ht (hnone t) }
  unfold Worker.exit Worker.restart_if_requested_during_exit
  split
  next => exact hsteady.create_task htasks
  next hkept =>
    refine ⟨hsteady, fun _ => ?_⟩
    -- nothing is left over
    have hbehind := h.behind
    dsimp only at hkept ⊢
    cases hunsupported : w.unsupported with
    | true => exact .inl rfl
    | false =>
      cases hclosed : w.closed with
      | true => exact .inr (.inl rfl)
      | false =>
        refine .inr (.inr ?_)
        have hle : ¬ w.settled_generation < w.requested_generation := by
          intro hlt
          rw [hunsupported, hclosed] at hkept
          exact hkept ⟨Bool.false_ne_true, Bool.false_ne_true, hlt⟩
        omega

theorem Sound.settle (h : Sound careful w) (hw : w.tasks = [task]) (hknown : Known w attempt) :
    Sound careful (w.settle attempt) :=
  { h with
    behind := hknown.1
    settled := by
      intro other hother
      rcases List.mem_append.mp hother with hother | hother
      · exact h.settled other hother
      · rw [List.mem_singleton.mp hother]
        exact hknown
    latest := by
      intro _
      exact ⟨attempt, List.mem_append_right _ (List.mem_singleton.mpr rfl), rfl⟩
    ended := by
      intro hempty
      rw [show (w.settle attempt).tasks = w.tasks from rfl, hw] at hempty
      cases hempty }

/-- The snapshot that is taken now. -/
theorem known_snapshot (h : Sound careful w) : Known w w.snapshot_attempt :=
  ⟨Nat.le_refl _, Nat.le_refl _, fun _ => .inr (.inr h.past)⟩

theorem tracked_snapshot (hquiet : w.active_prompt_count = 0) : Tracked w w.snapshot_attempt := by
  intro hdisturbed
  have hactive : w.active_prompt_count > 0 := of_decide_eq_true hdisturbed
  omega

theorem Sound.begin (h : Sound careful w) (hw : w.tasks = [task])
    (hquiet : careful → w.active_prompt_count = 0) :
    Sound careful (w.attempt 0 task manifest) := by
  unfold Worker.attempt
  cases manifest with
  | raised => exact h.exit hw
  | repositories isEmpty =>
    cases isEmpty with
    | true => exact (h.settle hw (known_snapshot h)).exit hw
    | false =>
      refine h.goto hw ?_ ?_
      · intro attempt hattempt
        cases hattempt
        exact known_snapshot h
      · intro hcareful attempt hattempt
        cases hattempt
        exact tracked_snapshot (hquiet hcareful)

theorem Sound.loop (h : Sound careful w) (hw : w.tasks = [task]) :
    Sound careful (w.loop 0 task manifest) := by
  unfold Worker.loop
  split
  next =>
    split
    next hidle => exact h.begin hw fun _ => h.gate.mp hidle
    next =>
      refine h.goto hw ?_ ?_
      · intro attempt hattempt
        cases hattempt
      · intro _ attempt hattempt
        cases hattempt
  next => exact h.exit hw

/-- An attempt that did not go stale was not disturbed. -/
theorem undisturbed_of_tracked (htracked : Tracked w attempt) (h : w.is_stale attempt = false) :
    attempt.disturbed = false := by
  rw [Worker.is_stale, decide_eq_false_iff_not, not_or, not_or, not_not, not_not] at h
  cases hdisturbed : attempt.disturbed with
  | false => rfl
  | true =>
    have hmoved := htracked hdisturbed
    omega

theorem Sound.report_failure {error : String} (h : Sound careful w) (hw : w.tasks = [task])
    (hknown : Known w attempt) (htracked : careful → Tracked w attempt) :
    Sound careful (w.report_failure 0 task attempt error manifest) := by
  unfold Worker.report_failure
  split
  next => exact (h.settle hw hknown).loop hw
  next =>
    have hreports : Sound careful { w with reports := w.reports ++ [Worker.reportMessage error] } :=
      { h with }
    refine hreports.goto hw ?_ ?_
    · intro other hother
      cases hother
      exact hknown
    · intro hcareful other hother
      cases hother
      exact htracked hcareful

theorem Sound.collection_failed {error : String} (h : Sound careful w) (hw : w.tasks = [task])
    (hknown : Known w attempt) (htracked : careful → Tracked w attempt) :
    Sound careful (w.collection_failed 0 task attempt error manifest) := by
  unfold Worker.collection_failed
  split
  next => exact h.loop hw
  next => exact h.report_failure hw hknown htracked

theorem Sound.collected {collected : Collected} (h : Sound careful w) (hw : w.tasks = [task])
    (hknown : Known w attempt) (htracked : careful → Tracked w attempt) :
    Sound careful (w.collected 0 task attempt collected manifest) := by
  unfold Worker.collected
  cases collected with
  | raised error => exact h.collection_failed hw hknown htracked
  | bundle statuses =>
    dsimp only
    split
    next => exact h.collection_failed hw hknown htracked
    next =>
      split
      next => exact h.loop hw
      next hfresh =>
        have huploads : Sound careful { w with uploads := w.uploads ++ [attempt] } :=
          { h with
            undisturbed := by
              intro hcareful other hother
              rcases List.mem_append.mp hother with hother | hother
              · exact h.undisturbed hcareful other hother
              · rw [List.mem_singleton.mp hother]
                exact undisturbed_of_tracked (htracked hcareful) (Bool.eq_false_iff.mpr hfresh) }
        refine huploads.goto hw ?_ ?_
        · intro other hother
          cases hother
          exact hknown
        · intro hcareful other hother
          cases hother
          exact htracked hcareful

theorem Sound.mark_unsupported (h : Sound careful w) : Sound careful w.mark_unsupported :=
  { h with
    requested := fun _ => .inl rfl
    known := fun t ht other hother =>
      ⟨(h.known t ht other hother).1, (h.known t ht other hother).2.1, fun _ => .inl rfl⟩
    settled := fun other hother =>
      ⟨(h.settled other hother).1, (h.settled other hother).2.1, fun _ => .inl rfl⟩
    ended := fun _ => .inl rfl }

theorem known_unsupported (hknown : Known w attempt) : Known w.mark_unsupported attempt :=
  ⟨hknown.1, hknown.2.1, fun _ => .inl rfl⟩

theorem Sound.uploaded {answer : Answer} (h : Sound careful w) (hw : w.tasks = [task])
    (hknown : Known w attempt) (htracked : careful → Tracked w attempt) :
    Sound careful (w.uploaded 0 task attempt answer manifest) := by
  unfold Worker.uploaded
  cases answer with
  | raised error => exact h.report_failure hw hknown htracked
  | unsupported =>
    exact (h.mark_unsupported.settle hw (known_unsupported hknown)).loop hw
  | accepted => exact (h.settle hw hknown).loop hw

theorem Sound.reported {answer : Answer} (h : Sound careful w) (hw : w.tasks = [task])
    (hknown : Known w attempt) : Sound careful (w.reported 0 task attempt answer manifest) := by
  unfold Worker.reported
  cases answer with
  | raised error => exact (h.settle hw hknown).loop hw
  | unsupported =>
    exact (h.mark_unsupported.settle hw (known_unsupported hknown)).loop hw
  | accepted => exact (h.settle hw hknown).loop hw

/-! ## The calls -/

theorem stages_nil {f : Stage → Stage} (h : (w.onStages f).tasks = []) : w.tasks = [] :=
  List.map_eq_nil_iff.mp h

/-- A task of the worker whose stages changed. -/
theorem mem_onStages {f : Stage → Stage} (h : task ∈ (w.onStages f).tasks) :
    ∃ before ∈ w.tasks, task = { before with stage := f before.stage } := by
  obtain ⟨before, hbefore, rfl⟩ := List.mem_map.mp h
  exact ⟨before, hbefore, rfl⟩

theorem attempt?_disturbed (h : (stage.map disturb).attempt? = some attempt) :
    ∃ before, stage.attempt? = some before ∧ attempt = disturb before := by
  rw [attempt?_map] at h
  obtain ⟨before, hbefore, rfl⟩ := Option.map_eq_some_iff.mp h
  exact ⟨before, hbefore, rfl⟩

theorem Sound.prompt_started (h : Sound careful w) : Sound careful w.prompt_started where
  one := by
    show (w.tasks.map _).length ≤ 1
    rw [List.length_map]
    exact h.one
  current := by
    intro t ht
    obtain ⟨before, hbefore, rfl⟩ := mem_onStages ht
    exact h.current before hbefore
  gate := ⟨fun hidle => absurd hidle Bool.false_ne_true, fun hzero => absurd hzero (Nat.succ_ne_zero _)⟩
  behind := h.behind
  requested := h.requested
  past := h.past
  known := by
    intro t ht attempt hattempt
    obtain ⟨before, hbefore, rfl⟩ := mem_onStages ht
    obtain ⟨old, hold, rfl⟩ := attempt?_disturbed hattempt
    have hknown := h.known before hbefore old hold
    exact ⟨hknown.1, Nat.le_succ_of_le hknown.2.1, hknown.2.2⟩
  settled := fun attempt hattempt =>
    ⟨(h.settled attempt hattempt).1, Nat.le_succ_of_le (h.settled attempt hattempt).2.1,
      (h.settled attempt hattempt).2.2⟩
  latest := h.latest
  tracked := by
    intro _ t ht attempt hattempt _
    obtain ⟨before, hbefore, rfl⟩ := mem_onStages ht
    obtain ⟨old, hold, rfl⟩ := attempt?_disturbed hattempt
    exact .inl (Nat.lt_succ_of_le (h.known before hbefore old hold).2.1)
  undisturbed := h.undisturbed
  ended := fun hempty => h.ended (stages_nil hempty)

theorem Sound.prompt_finished (h : Sound careful w) : Sound careful w.prompt_finished := by
  unfold Worker.prompt_finished
  dsimp only
  split
  next hzero =>
    have hwoken : ∀ t ∈ (w.onStages Stage.wake).tasks, ∃ before ∈ w.tasks, t.id = before.id ∧
        t.stage.attempt? = before.stage.attempt? := by
      intro t ht
      obtain ⟨before, hbefore, rfl⟩ := mem_onStages ht
      exact ⟨before, hbefore, rfl, attempt?_wake⟩
    exact
      { h with
        one := by
          show (w.tasks.map _).length ≤ 1
          rw [List.length_map]
          exact h.one
        current := by
          intro t ht
          obtain ⟨before, hbefore, hid, _⟩ := hwoken t ht
          rw [hid]
          exact h.current before hbefore
        gate := ⟨fun _ => hzero, fun _ => rfl⟩
        known := by
          intro t ht attempt hattempt
          obtain ⟨before, hbefore, _, hsame⟩ := hwoken t ht
          rw [hsame] at hattempt
          exact h.known before hbefore attempt hattempt
        tracked := by
          intro hcareful t ht attempt hattempt
          obtain ⟨before, hbefore, _, hsame⟩ := hwoken t ht
          rw [hsame] at hattempt
          exact h.tracked hcareful before hbefore attempt hattempt
        ended := fun hempty => h.ended (stages_nil hempty) }
  next hactive =>
    refine { h with gate := ⟨fun hidle => ?_, fun hzero => absurd hzero hactive⟩ }
    have hnone := h.gate.mp hidle
    omega

theorem Sound.close (h : Sound careful w) : Sound careful w.close :=
  { h with
    requested := fun _ => .inr (.inl rfl)
    known := fun t ht other hother =>
      ⟨(h.known t ht other hother).1, (h.known t ht other hother).2.1, fun _ => .inr (.inl rfl)⟩
    settled := fun other hother =>
      ⟨(h.settled other hother).1, (h.settled other hother).2.1, fun _ => .inr (.inl rfl)⟩
    ended := fun _ => .inr (.inl rfl) }

theorem past_requests (h : Sound careful w) :
    ∀ request ∈ w.requests ++ [w.now], request ≤ w.now := by
  intro request hmem
  rcases List.mem_append.mp hmem with hmem | hmem
  · exact h.past request hmem
  · exact Nat.le_of_eq (List.mem_singleton.mp hmem)

/-- A request that is accepted, before there is a task for it. -/
def Worker.accept (w : Worker) (trigger_message_id : Option String) : Worker :=
  { ({ w with requests := w.requests ++ [w.now] } : Worker).onStages (·.map disturb) with
    requested_generation := w.requested_generation + 1
    trigger_message_id }

theorem Steady.accept {trigger_message_id : Option String} (h : Sound careful w) :
    Steady careful (w.accept trigger_message_id) where
  one := by
    show (w.tasks.map _).length ≤ 1
    rw [List.length_map]
    exact h.one
  current := by
    intro t ht
    obtain ⟨before, hbefore, rfl⟩ := mem_onStages (w := w) ht
    exact h.current before hbefore
  gate := h.gate
  behind := Nat.le_succ_of_le h.behind
  requested := fun hzero => absurd hzero (Nat.succ_ne_zero _)
  past := past_requests h
  known := by
    intro t ht attempt hattempt
    obtain ⟨before, hbefore, rfl⟩ := mem_onStages (w := w) ht
    obtain ⟨old, hold, rfl⟩ := attempt?_disturbed hattempt
    have hknown := h.known before hbefore old hold
    refine ⟨Nat.le_succ_of_le hknown.1, hknown.2.1, fun hlatest => ?_⟩
    have hle : old.generation ≤ w.requested_generation := hknown.1
    have hbeyond : old.generation = w.requested_generation + 1 := hlatest
    omega
  settled := by
    intro attempt hattempt
    have hknown := h.settled attempt hattempt
    refine ⟨Nat.le_succ_of_le hknown.1, hknown.2.1, fun hlatest => ?_⟩
    have hle : attempt.generation ≤ w.requested_generation := hknown.1
    have hbeyond : attempt.generation = w.requested_generation + 1 := hlatest
    omega
  latest := h.latest
  tracked := by
    intro _ t ht attempt hattempt _
    obtain ⟨before, hbefore, rfl⟩ := mem_onStages (w := w) ht
    obtain ⟨old, hold, rfl⟩ := attempt?_disturbed hattempt
    exact .inr (Nat.lt_succ_of_le (h.known before hbefore old hold).1)
  undisturbed := h.undisturbed

theorem taskDone_iff (h : Steady careful w) : w.taskDone = true ↔ w.tasks = [] := by
  unfold Worker.taskDone
  constructor
  · intro hdone
    cases htasks : w.tasks with
    | nil => rfl
    | cons t ts =>
      have hcurrent := h.current t (by rw [htasks]; exact List.mem_cons_self)
      rw [hcurrent, htasks] at hdone
      simp at hdone
  · intro hempty
    rw [hempty]
    cases w.task <;> rfl

theorem Sound.request {trigger_message_id : Option String} (h : Sound careful w) :
    Sound careful (w.request trigger_message_id) := by
  unfold Worker.request
  dsimp only
  split
  next hrefused =>
    exact
      { h with
        requested := fun _ => hrefused.imp_right Or.inl
        past := past_requests h
        known := fun t ht other hother =>
          ⟨(h.known t ht other hother).1, (h.known t ht other hother).2.1,
            fun _ => hrefused.imp_right Or.inl⟩
        settled := fun other hother =>
          ⟨(h.settled other hother).1, (h.settled other hother).2.1,
            fun _ => hrefused.imp_right Or.inl⟩ }
  next =>
    have haccepted : Steady careful (w.accept trigger_message_id) := Steady.accept h
    split
    next hdone => exact haccepted.create_task ((taskDone_iff haccepted).mp hdone)
    next hrunning =>
      refine ⟨haccepted, fun hempty => ?_⟩
      exact absurd ((taskDone_iff haccepted).mpr hempty) hrunning

/-! ## Every run -/

def Act.isWake : Act → Bool
  | .wake _ _ => true
  | _ => false

/-- The worker does not resume from its gate while a prompt is running. -/
def WakesIdle (w : Worker) (act : Act) : Prop :=
  act.isWake = true → w.active_prompt_count = 0

instance : ∀ (w : Worker) (act : Act), Decidable (WakesIdle w act) :=
  fun w act => inferInstanceAs (Decidable (act.isWake = true → w.active_prompt_count = 0))

theorem step_task {act : Act} {w' : Worker} {i : Nat} (hact : act.task? = some i)
    (h : w.step act = some w') :
    ∃ task, w.tick.tasks[i]? = some task ∧ w.tick.taskStep i task act = some w' := by
  have hstep : (act.task?.bind fun i => (w.tick.tasks[i]?).bind fun task =>
      w.tick.taskStep i task act) = some w' := by
    cases act with
    | prompt_started => cases hact
    | prompt_finished => cases hact
    | request => cases hact
    | close => cases hact
    | _ => exact h
  rw [hact, Option.bind_some] at hstep
  exact Option.bind_eq_some_iff.mp hstep

theorem Sound.step {act : Act} {w' : Worker} (h : Sound careful w)
    (hok : careful → WakesIdle w act) (hstep : w.step act = some w') : Sound careful w' := by
  have htick := h.tick
  cases act with
  | prompt_started =>
    cases hstep
    exact htick.prompt_started
  | prompt_finished =>
    cases hstep
    exact htick.prompt_finished
  | request trigger_message_id =>
    cases hstep
    exact htick.request
  | close =>
    cases hstep
    exact htick.close
  | run i manifest =>
    obtain ⟨task, hi, htask⟩ := step_task rfl hstep
    obtain ⟨hw, rfl⟩ := htick.only hi
    unfold Worker.taskStep at htask
    dsimp only at htask
    split at htask
    next =>
      cases htask
      exact htick.loop hw
    next => cases htask
  | wake i manifest =>
    obtain ⟨task, hi, htask⟩ := step_task rfl hstep
    obtain ⟨hw, rfl⟩ := htick.only hi
    unfold Worker.taskStep at htask
    dsimp only at htask
    split at htask
    next =>
      cases htask
      exact htick.begin hw fun hcareful => hok hcareful rfl
    next => cases htask
  | collected i collected manifest =>
    obtain ⟨task, hi, htask⟩ := step_task rfl hstep
    obtain ⟨hw, rfl⟩ := htick.only hi
    have hmem := List.mem_of_getElem? hi
    unfold Worker.taskStep at htask
    dsimp only at htask
    cases hstage : task.stage with
    | collecting attempt =>
      rw [hstage] at htask
      cases htask
      have hattempt : task.stage.attempt? = some attempt := by
        rw [hstage]
        rfl
      exact htick.collected hw (htick.known task hmem attempt hattempt)
        fun hcareful => htick.tracked hcareful task hmem attempt hattempt
    | _ =>
      rw [hstage] at htask
      cases htask
  | uploaded i answer manifest =>
    obtain ⟨task, hi, htask⟩ := step_task rfl hstep
    obtain ⟨hw, rfl⟩ := htick.only hi
    have hmem := List.mem_of_getElem? hi
    unfold Worker.taskStep at htask
    dsimp only at htask
    cases hstage : task.stage with
    | uploading attempt =>
      rw [hstage] at htask
      cases htask
      have hattempt : task.stage.attempt? = some attempt := by
        rw [hstage]
        rfl
      exact htick.uploaded hw (htick.known task hmem attempt hattempt)
        fun hcareful => htick.tracked hcareful task hmem attempt hattempt
    | _ =>
      rw [hstage] at htask
      cases htask
  | reported i answer manifest =>
    obtain ⟨task, hi, htask⟩ := step_task rfl hstep
    obtain ⟨hw, rfl⟩ := htick.only hi
    have hmem := List.mem_of_getElem? hi
    unfold Worker.taskStep at htask
    dsimp only at htask
    cases hstage : task.stage with
    | reporting attempt =>
      rw [hstage] at htask
      cases htask
      have hattempt : task.stage.attempt? = some attempt := by
        rw [hstage]
        rfl
      exact htick.reported hw (htick.known task hmem attempt hattempt)
    | _ =>
      rw [hstage] at htask
      cases htask
  | cancel i =>
    obtain ⟨task, hi, htask⟩ := step_task rfl hstep
    obtain ⟨hw, rfl⟩ := htick.only hi
    unfold Worker.taskStep at htask
    dsimp only at htask
    split at htask
    next => cases htask
    next =>
      cases htask
      exact htick.exit hw

/-- The collections that are running. -/
def Worker.collections (w : Worker) : List RefreshAttempt :=
  w.tasks.filterMap fun task =>
    match task.stage with
    | .collecting attempt => some attempt
    | _ => none

/-- **Session diffs.** In every run one collection is running at most, and a worker that is idle,
open and supported has settled each request with a snapshot taken no earlier. Where it does not
resume from its gate while a prompt is running, no upload starts that a prompt or a newer request
has disturbed since its snapshot. -/
theorem refreshes_settled (w : Worker) :
    (refreshSystem.Reachable anyStep Worker.initial w →
      w.collections.length ≤ 1 ∧
        (w.tasks = [] → w.closed = false → w.unsupported = false →
          ∀ request ∈ w.requests, ∃ attempt ∈ w.settled, request ≤ attempt.snapshotAt)) ∧
      (refreshSystem.Reachable WakesIdle Worker.initial w →
        ∀ attempt ∈ w.uploads, attempt.disturbed = false) := by
  constructor
  · intro h
    have hsound : Sound False w :=
      h.inv (Sound False) sound_initial fun _ _ _ hs _ hstep => hs.step False.elim hstep
    refine ⟨Nat.le_trans (List.length_filterMap_le _ _) hsound.one, ?_⟩
    intro hidle hopen hsupported request hrequest
    have hsettled : w.settled_generation = w.requested_generation := by
      rcases hsound.ended hidle with hended | hended | hended
      · exact absurd (hsupported.symm.trans hended) Bool.false_ne_true
      · exact absurd (hopen.symm.trans hended) Bool.false_ne_true
      · exact hended
    rcases Nat.eq_zero_or_pos w.settled_generation with hzero | hpos
    · rcases hsound.requested (hsettled.symm.trans hzero) with hnone | hnone | hnone
      · exact absurd (hsupported.symm.trans hnone) Bool.false_ne_true
      · exact absurd (hopen.symm.trans hnone) Bool.false_ne_true
      · rw [hnone] at hrequest
        cases hrequest
    · obtain ⟨attempt, hattempt, hlatest⟩ := hsound.latest hpos
      refine ⟨attempt, hattempt, ?_⟩
      rcases (hsound.settled attempt hattempt).2.2 (hlatest.trans hsettled) with
        hcovers | hcovers | hcovers
      · exact absurd (hsupported.symm.trans hcovers) Bool.false_ne_true
      · exact absurd (hopen.symm.trans hcovers) Bool.false_ne_true
      · exact hcovers request hrequest
  · intro h
    have hsound : Sound True w :=
      h.inv (Sound True) sound_initial fun _ _ _ hs hok hstep => hs.step (fun _ => hok) hstep
    exact hsound.undisturbed trivial

/-- A prompt starts after another one's end has opened the gate and before the worker resumes; it
ends during the collection. -/
def overtakenGate : List Act :=
  [.prompt_started, .request none, .run 0 (.repositories false), .prompt_finished, .prompt_started,
    .wake 0 (.repositories false), .prompt_finished, .collected 0 (.bundle ["ready"]) .raised]

theorem disturbed_upload : ∃ w, refreshSystem.Reachable anyStep Worker.initial w ∧
    ∃ attempt ∈ w.uploads, attempt.disturbed = true := by
  have hrun : (refreshSystem.run anyStep Worker.initial overtakenGate).any
      (fun w => w.uploads.any (·.disturbed)) = true := by
    decide +kernel
  obtain ⟨w, hw, hfacts⟩ := (Option.any_eq_true _ _).mp hrun
  obtain ⟨attempt, hattempt, hdisturbed⟩ := List.any_eq_true.mp hfacts
  exact ⟨w, System.run_reachable hw, attempt, hattempt, hdisturbed⟩

/-- The same, with the second prompt after the snapshot: its collection goes stale, and the next
one is uploaded. -/
def overtakenCollection : List Act :=
  [.prompt_started, .request none, .run 0 (.repositories false), .prompt_finished,
    .wake 0 (.repositories false), .prompt_started, .prompt_finished,
    .collected 0 (.bundle ["ready"]) (.repositories false),
    .collected 0 (.bundle ["ready"]) .raised, .uploaded 0 .accepted .raised]

theorem refreshes_settled_overtakenCollection :
    ∃ w : Worker, w.uploads.length = 1 ∧ (∀ attempt ∈ w.uploads, attempt.disturbed = false) ∧
      ∃ attempt ∈ w.settled, 2 ≤ attempt.snapshotAt := by
  have hrun : (refreshSystem.run WakesIdle Worker.initial overtakenCollection).any
      (fun w => w.uploads.length = 1 ∧ w.tasks = [] ∧ w.closed = false ∧ w.unsupported = false ∧
        w.requests = [2]) = true := by
    decide +kernel
  obtain ⟨w, hw, hfacts⟩ := (Option.any_eq_true _ _).mp hrun
  obtain ⟨huploads, hidle, hopen, hsupported, hrequests⟩ := of_decide_eq_true hfacts
  have hreach := System.run_reachable hw
  have hsettled := (refreshes_settled w).1 (hreach.mono fun _ _ _ => trivial)
  refine ⟨w, huploads, (refreshes_settled w).2 hreach, ?_⟩
  exact hsettled.2 hidle hopen hsupported 2 (by rw [hrequests]; exact List.mem_singleton.mpr rfl)

end BackgroundAgents.Sandbox.DiffRefresh

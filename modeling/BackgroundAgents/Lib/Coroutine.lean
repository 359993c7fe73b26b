import Mathlib.Data.List.Perm.Basic
import Mathlib.Data.List.Flatten

/-!
# Coroutines over one shared state

Single-threaded asynchronous code: an `async` function runs to its next
`await` without interruption, and whatever else is runnable may run before it
is woken again. The unit of atomicity is therefore the *turn*, the code between
two awaits, and a program is given by what each turn does (`Machine.turn`):

* `Event.enter k`: somebody calls entry point `k`;
* `Event.resume f w`: the frame `f`, suspended at one of its awaits, is woken
  by `w`, which is either an outside answer or the end of the call it made.

A `Task` is a stack of such frames. Only its top frame runs; the frames below
wait for the ones above to return or to throw, so a `Flow` is either a new
suspension or an `Outcome` handed to the caller. A `Pool` is the shared state
with all the tasks in flight, and a scheduler picks an `Act` at every step: any
task, any answer. `Machine.step` is executable.

For reasoning, the stacks are forgotten: `Machine.step_frames` says that every
step removes at most one frame from the pool and adds the ones its turn leaves,
and `Machine.reachable_inv` is the resulting invariant rule, over the shared
state and the frames in flight in any order.
-/

namespace BackgroundAgents.Coroutine

variable {σ κ φ α ρ : Type}

/-- How a call ended. -/
inductive Outcome (ρ : Type) where
  | returned (result : ρ)
  | raised
  deriving DecidableEq, Repr

/-- What wakes a suspended frame. -/
inductive Wake (α ρ : Type) where
  | answered (answer : α)
  | ended (outcome : Outcome ρ)
  deriving DecidableEq, Repr

/-- A stack of suspended frames, innermost first. `signal` is set once the call
`top` waits for has ended. -/
structure Task (φ ρ : Type) where
  top : φ
  below : List φ
  signal : Option (Outcome ρ)
  deriving DecidableEq, Repr

/-- Where a turn stopped: suspended in `top`, with the callers it pushed on the
way, or ended with an outcome that the callers it pushed have still to see. -/
inductive Flow (φ ρ : Type) where
  | suspend (top : φ) (callers : List φ)
  | settle (outcome : Outcome ρ) (callers : List φ)
  deriving DecidableEq, Repr

/-- Everything one turn does: the new shared state, where it stopped, and the
background tasks it started. -/
structure Turn (σ φ ρ : Type) where
  state : σ
  flow : Flow φ ρ
  spawned : List (Task φ ρ)
  deriving DecidableEq, Repr

/-- What runs in a turn. -/
inductive Event (κ φ α ρ : Type) where
  | enter (call : κ)
  | resume (frame : φ) (wake : Wake α ρ)

/-- A program: what each turn does, `none` for a wake-up its frame cannot get. -/
structure Machine (σ κ φ α ρ : Type) where
  turn : σ → Event κ φ α ρ → Option (Turn σ φ ρ)

/-- The shared state and the tasks in flight. -/
structure Pool (σ φ ρ : Type) where
  shared : σ
  tasks : List (Task φ ρ)
  deriving DecidableEq, Repr

/-- A choice of the scheduler. -/
inductive Act (κ α : Type) where
  | enter (call : κ)
  | answer (task : Nat) (answer : α)
  | proceed (task : Nat)
  deriving DecidableEq, Repr

/-! ## Frames -/

/-- The frame an event takes out of the pool. -/
def Event.frames : Event κ φ α ρ → List φ
  | .enter _ => []
  | .resume f _ => [f]

def Flow.frames : Flow φ ρ → List φ
  | .suspend top callers => top :: callers
  | .settle _ callers => callers

def Task.frames (t : Task φ ρ) : List φ :=
  t.top :: t.below

/-- The frames a turn leaves in the pool. -/
def Turn.frames (t : Turn σ φ ρ) : List φ :=
  t.flow.frames ++ t.spawned.flatMap Task.frames

def Pool.frames (p : Pool σ φ ρ) : List φ :=
  p.tasks.flatMap Task.frames

/-! ## Turns -/

/-- Suspend in `top`. -/
def Turn.await (s : σ) (top : φ) : Turn σ φ ρ :=
  { state := s, flow := .suspend top [], spawned := [] }

/-- Return to the caller. -/
def Turn.return (s : σ) (result : ρ) : Turn σ φ ρ :=
  { state := s, flow := .settle (.returned result) [], spawned := [] }

/-- Throw to the caller. -/
def Turn.raise (s : σ) : Turn σ φ ρ :=
  { state := s, flow := .settle .raised [], spawned := [] }

/-- The turn of a callee, awaited by the frame `caller`. -/
def Turn.awaitedBy (caller : φ) (t : Turn σ φ ρ) : Turn σ φ ρ :=
  match t.flow with
  | .suspend top callers => { t with flow := .suspend top (callers ++ [caller]) }
  | .settle o callers => { t with flow := .settle o (callers ++ [caller]) }

/-- The task a turn leaves on top of the callers `below` it ran for. -/
def Flow.task (below : List φ) : Flow φ ρ → List (Task φ ρ)
  | .suspend top callers => [⟨top, callers ++ below, none⟩]
  | .settle o callers =>
    match callers ++ below with
    | [] => []
    | caller :: rest => [⟨caller, rest, some o⟩]

@[simp] theorem Turn.await_state (s : σ) (top : φ) :
    (Turn.await s top : Turn σ φ ρ).state = s := rfl

@[simp] theorem Turn.await_frames (s : σ) (top : φ) :
    (Turn.await s top : Turn σ φ ρ).frames = [top] := rfl

@[simp] theorem Turn.return_state (s : σ) (r : ρ) :
    (Turn.return s r : Turn σ φ ρ).state = s := rfl

@[simp] theorem Turn.return_frames (s : σ) (r : ρ) :
    (Turn.return s r : Turn σ φ ρ).frames = [] := rfl

@[simp] theorem Turn.raise_state (s : σ) :
    (Turn.raise s : Turn σ φ ρ).state = s := rfl

@[simp] theorem Turn.raise_frames (s : σ) :
    (Turn.raise s : Turn σ φ ρ).frames = [] := rfl

@[simp] theorem Turn.awaitedBy_state (caller : φ) (t : Turn σ φ ρ) :
    (t.awaitedBy caller).state = t.state := by
  unfold Turn.awaitedBy
  split <;> rfl

theorem Turn.awaitedBy_frames (caller : φ) (t : Turn σ φ ρ) :
    (t.awaitedBy caller).frames.Perm (caller :: t.frames) := by
  have hrot : ∀ l k : List φ, (l ++ [caller] ++ k).Perm (caller :: (l ++ k)) := by
    intro l k
    rw [List.append_assoc]
    exact List.perm_middle
  cases h : t.flow with
  | suspend top callers =>
    simp only [Turn.awaitedBy, Turn.frames, Flow.frames, h]
    exact hrot (top :: callers) _
  | settle o callers =>
    simp only [Turn.awaitedBy, Turn.frames, Flow.frames, h]
    exact hrot callers _

theorem Turn.mem_awaitedBy {caller f : φ} {t : Turn σ φ ρ} :
    f ∈ (t.awaitedBy caller).frames ↔ f = caller ∨ f ∈ t.frames := by
  rw [(t.awaitedBy_frames caller).mem_iff, List.mem_cons]

/-- The frames of a flow and of the callers it runs for, as one task. -/
theorem Flow.task_frames (below : List φ) (fl : Flow φ ρ) :
    (fl.task below).flatMap Task.frames = fl.frames ++ below := by
  cases fl with
  | suspend top callers => simp [Flow.task, Flow.frames, Task.frames]
  | settle o callers =>
    simp only [Flow.task, Flow.frames]
    split
    next h => simp [h]
    next h => simp [h, Task.frames]

/-! ## The scheduler -/

/-- The event a choice stands for, and the callers it runs for. -/
def Pool.event (p : Pool σ φ ρ) : Act κ α → Option (Event κ φ α ρ × List φ)
  | .enter k => some (.enter k, [])
  | .answer i a =>
    match p.tasks[i]? with
    | some ⟨f, below, none⟩ => some (.resume f (.answered a), below)
    | _ => none
  | .proceed i =>
    match p.tasks[i]? with
    | some ⟨f, below, some o⟩ => some (.resume f (.ended o), below)
    | _ => none

/-- The tasks a choice leaves alone. -/
def Act.others (tasks : List (Task φ ρ)) : Act κ α → List (Task φ ρ)
  | .enter _ => tasks
  | .answer i _ => tasks.eraseIdx i
  | .proceed i => tasks.eraseIdx i

/-- One step of the scheduler. -/
def Machine.step (m : Machine σ κ φ α ρ) (p : Pool σ φ ρ) (a : Act κ α) :
    Option (Pool σ φ ρ) := do
  let (e, below) ← p.event a
  let t ← m.turn p.shared e
  some
    { shared := t.state
      tasks := a.others p.tasks ++ t.flow.task below ++ t.spawned }

/-- A condition on steps: the shared state, the frames in flight and the event. -/
abbrev StepCondition (σ κ φ α ρ : Type) := σ → List φ → Event κ φ α ρ → Prop

/-- The pools reached from `p` by steps that meet `ok`. -/
inductive Machine.Reachable (m : Machine σ κ φ α ρ) (ok : StepCondition σ κ φ α ρ)
    (p : Pool σ φ ρ) : Pool σ φ ρ → Prop where
  | refl : Reachable m ok p p
  | step {q r : Pool σ φ ρ} {a : Act κ α} {e : Event κ φ α ρ} {below : List φ} :
    Reachable m ok p q → q.event a = some (e, below) → ok q.shared q.frames e →
    m.step q a = some r → Reachable m ok p r

/-! ## What one step does to the frames -/

theorem perm_eraseIdx_of_getElem? {l : List (Task φ ρ)} {i : Nat} {t : Task φ ρ}
    (h : l[i]? = some t) :
    (l.flatMap Task.frames).Perm (t.frames ++ (l.eraseIdx i).flatMap Task.frames) := by
  obtain ⟨hi, rfl⟩ := List.getElem?_eq_some_iff.mp h
  have hp : l.Perm (l[i] :: l.eraseIdx i) := (List.getElem_cons_eraseIdx_perm hi).symm
  simpa using hp.flatMap_right Task.frames

/-- A choice takes its event's frame, and the callers under it, out of the pool. -/
theorem Pool.event_frames {p : Pool σ φ ρ} {a : Act κ α} {e : Event κ φ α ρ}
    {below : List φ} (h : p.event a = some (e, below)) :
    p.frames.Perm (e.frames ++ (below ++ (a.others p.tasks).flatMap Task.frames)) := by
  have htask : ∀ (i : Nat) (t : Task φ ρ), p.tasks[i]? = some t →
      p.frames.Perm (t.top :: (t.below ++ (p.tasks.eraseIdx i).flatMap Task.frames)) :=
    fun i t ht => perm_eraseIdx_of_getElem? ht
  cases a with
  | enter k =>
    simp only [Pool.event, Option.some.injEq, Prod.mk.injEq] at h
    obtain ⟨rfl, rfl⟩ := h
    exact List.Perm.refl _
  | answer i a =>
    simp only [Pool.event] at h
    split at h
    next f b ht =>
      cases h
      exact htask i _ ht
    next => cases h
  | proceed i =>
    simp only [Pool.event] at h
    split at h
    next f b o ht =>
      cases h
      exact htask i _ ht
    next => cases h

/-- **What a step does.** One turn runs, from the shared state; its frame leaves
the pool and the frames it leaves behind join the others. -/
theorem Machine.step_frames {m : Machine σ κ φ α ρ} {p q : Pool σ φ ρ} {a : Act κ α}
    {e : Event κ φ α ρ} {below : List φ} (he : p.event a = some (e, below))
    (h : m.step p a = some q) :
    ∃ t others, m.turn p.shared e = some t ∧ p.frames.Perm (e.frames ++ others) ∧
      q.shared = t.state ∧ q.frames.Perm (t.frames ++ others) := by
  simp only [Machine.step, he, Option.bind_eq_bind, Option.bind_some,
    Option.bind_eq_some_iff] at h
  obtain ⟨t, ht, hq⟩ := h
  cases hq
  refine ⟨t, below ++ (a.others p.tasks).flatMap Task.frames, ht, p.event_frames he, rfl, ?_⟩
  simp only [Pool.frames, Turn.frames, List.flatMap_append, Flow.task_frames]
  classical
  rw [List.perm_iff_count]
  intro x
  simp only [List.count_append]
  omega

/-! ## Invariants -/

/-- **The invariant rule.** A property of the shared state and of the frames in
flight, blind to their order, that every permitted turn preserves, holds in
every pool reached. -/
theorem Machine.reachable_inv {m : Machine σ κ φ α ρ} {ok : StepCondition σ κ φ α ρ}
    {p q : Pool σ φ ρ} (I : σ → List φ → Prop)
    (perm : ∀ s fs gs, fs.Perm gs → I s fs → I s gs)
    (turn : ∀ s fs others e t, I s fs → ok s fs e → fs.Perm (e.frames ++ others) →
      m.turn s e = some t → I t.state (t.frames ++ others))
    (init : I p.shared p.frames) (h : m.Reachable ok p q) : I q.shared q.frames := by
  induction h with
  | refl => exact init
  | step _ he hok hstep ih =>
    obtain ⟨t, others, ht, hfs, hs, hq⟩ := Machine.step_frames he hstep
    rw [hs]
    exact perm _ _ _ hq.symm (turn _ _ others _ t ih hok hfs ht)

/-- A run all of whose steps meet a decidable condition. -/
def Machine.run (m : Machine σ κ φ α ρ) (ok : StepCondition σ κ φ α ρ)
    [∀ s fs e, Decidable (ok s fs e)] (p : Pool σ φ ρ) :
    List (Act κ α) → Option (Pool σ φ ρ)
  | [] => some p
  | a :: as => do
    let (e, _) ← p.event a
    if ok p.shared p.frames e then
      let q ← m.step p a
      m.run ok q as
    else none

theorem Machine.run_reachable {m : Machine σ κ φ α ρ} {ok : StepCondition σ κ φ α ρ}
    [∀ s fs e, Decidable (ok s fs e)] {p₀ p q : Pool σ φ ρ} {as : List (Act κ α)}
    (hp : m.Reachable ok p₀ p) (h : m.run ok p as = some q) : m.Reachable ok p₀ q := by
  induction as generalizing p with
  | nil =>
    cases h
    exact hp
  | cons a as ih =>
    simp only [Machine.run, Option.bind_eq_bind, Option.bind_eq_some_iff] at h
    obtain ⟨⟨e, below⟩, he, h⟩ := h
    split at h
    next hok =>
      obtain ⟨r, hr, h⟩ := Option.bind_eq_some_iff.mp h
      exact ih (.step hp he hok hr) h
    next => cases h

end BackgroundAgents.Coroutine

import BackgroundAgents.Lib.Transition
import BackgroundAgents.Lib.Workers

/-!
# Asynchronous programs

The body of an `async` function as a tree: it reads and writes the state that
all calls share, throws, or awaits an operation and goes on with its answer.
Only at an `await` may other calls run, so that the unit is the *turn*
(`Program.turn`), which runs to the next `await` or to the end.

A `Server` says what the calls are, what their bodies do and what an operation
does when it happens; it happens in the turn that goes on with its answer.
`Server.system` is the system of all calls in progress.

For reasoning, `Program.Wp` is the weakest precondition of a body under a
`Contract`: the invariant that holds whenever a turn ends, what the turns of
other calls may do (`rely`), what the turns of this one may do (`guar`), and what
holds for it while it waits (`waits`).
`Program.wp_bind` and `Program.wp_handle` take it through sequencing and through
`try`/`catch`; `Server.Sound.reachable` is the rule that bodies which keep their
contracts keep the invariant in every run.
-/

namespace BackgroundAgents.Programs

open Transition

variable {σ ω κ χ ε α β : Type} {ρ : ω → Type}

inductive Program (σ ω : Type) (ρ : ω → Type) (ε α : Type) where
  | done (result : α)
  | raise (error : ε)
  | read (next : σ → Program σ ω ρ ε α)
  | write (s : σ) (next : Program σ ω ρ ε α)
  | await (o : ω) (next : Except ε (ρ o) → Program σ ω ρ ε α)

/-- Where a turn stops. -/
inductive Stopped (σ ω : Type) (ρ : ω → Type) (ε α : Type) where
  | ended (result : Except ε α)
  | waiting (o : ω) (next : Except ε (ρ o) → Program σ ω ρ ε α)

namespace Program

def bind : Program σ ω ρ ε α → (α → Program σ ω ρ ε β) → Program σ ω ρ ε β
  | done a, f => f a
  | raise e, _ => raise e
  | read next, f => read fun s => (next s).bind f
  | write s next, f => write s (next.bind f)
  | await o next, f => await o fun answer => (next answer).bind f

/-- `try { … } catch (e) { … }`. -/
def handle : Program σ ω ρ ε α → (ε → Program σ ω ρ ε α) → Program σ ω ρ ε α
  | done a, _ => done a
  | raise e, h => h e
  | read next, h => read fun s => (next s).handle h
  | write s next, h => write s (next.handle h)
  | await o next, h => await o fun answer => (next answer).handle h

instance : Monad (Program σ ω ρ ε) where
  pure := done
  bind := bind

/-- The result of a body, thrown or not. -/
def attempt (p : Program σ ω ρ ε α) : Program σ ω ρ ε (Except ε α) :=
  (p.bind fun a => done (.ok a)).handle fun e => done (.error e)

def ofExcept : Except ε α → Program σ ω ρ ε α
  | .ok a => done a
  | .error e => raise e

/-- `try { … } finally { … }`. -/
def ensure (p : Program σ ω ρ ε α) (cleanup : Program σ ω ρ ε Unit) : Program σ ω ρ ε α :=
  p.attempt.bind fun result => cleanup.bind fun _ => ofExcept result

/-- Awaits an operation; its error is thrown. -/
def perform (o : ω) : Program σ ω ρ ε (ρ o) :=
  await o fun answer =>
    match answer with
    | .ok a => done a
    | .error e => raise e

/-- What the state has to say now. -/
def gets (f : σ → α) : Program σ ω ρ ε α := read fun s => done (f s)

def modify (f : σ → σ) : Program σ ω ρ ε Unit := read fun s => write (f s) (done ())

/-- Runs to the next `await` or to the end. -/
def turn : Program σ ω ρ ε α → σ → Stopped σ ω ρ ε α × σ
  | done a, s => (.ended (.ok a), s)
  | raise e, s => (.ended (.error e), s)
  | read next, s => (next s).turn s
  | write s next, _ => next.turn s
  | await o next, s => (.waiting o next, s)

end Program

/-! ## Contracts -/

/-- What a call may rely on, and what it has to keep. -/
structure Contract (σ : Type) where
  inv : σ → Prop
  rely : σ → σ → Prop
  guar : σ → σ → Prop
  waits : σ → Prop

/-- A turn that began in `s₀` may end in `s`. -/
structure Contract.Ends (c : Contract σ) (s₀ s : σ) : Prop where
  inv : c.inv s
  guar : c.guar s₀ s

variable {c : Contract σ} {perf : (o : ω) → σ → Except ε (ρ o) → σ → Prop}
  {post : σ → σ → Except ε α → Prop}

namespace Program

/-- What has to hold in `s`, in a turn that began in `s₀`, for every end to satisfy `post`. -/
def Wp (c : Contract σ) (perf : (o : ω) → σ → Except ε (ρ o) → σ → Prop)
    (post : σ → σ → Except ε α → Prop) : Program σ ω ρ ε α → σ → σ → Prop
  | done a, s₀, s => post s₀ s (.ok a)
  | raise e, s₀, s => post s₀ s (.error e)
  | read next, s₀, s => (next s).Wp c perf post s₀ s
  | write s next, s₀, _ => next.Wp c perf post s₀ s
  | await o next, s₀, s => c.Ends s₀ s ∧ c.waits s ∧ ∀ t, c.rely s t → c.inv t → c.waits t →
      ∀ answer u, perf o t answer u → (next answer).Wp c perf post t u

variable {p : Program σ ω ρ ε α} {s₀ s : σ}

theorem wp_bind {f : α → Program σ ω ρ ε β} {post : σ → σ → Except ε β → Prop}
    (h : p.Wp c perf (fun s₀ s r =>
      match r with
      | .ok a => (f a).Wp c perf post s₀ s
      | .error e => post s₀ s (.error e)) s₀ s) : (p.bind f).Wp c perf post s₀ s := by
  induction p generalizing s₀ s with
  | done a => exact h
  | raise e => exact h
  | read next ih => exact ih s h
  | write s next ih => exact ih h
  | await o next ih =>
    refine ⟨h.1, h.2.1, ?_⟩
    intro t hrely hinv hwaits answer u hu
    exact ih answer (h.2.2 t hrely hinv hwaits answer u hu)

theorem wp_handle {g : ε → Program σ ω ρ ε α}
    (h : p.Wp c perf (fun s₀ s r =>
      match r with
      | .ok a => post s₀ s (.ok a)
      | .error e => (g e).Wp c perf post s₀ s) s₀ s) : (p.handle g).Wp c perf post s₀ s := by
  induction p generalizing s₀ s with
  | done a => exact h
  | raise e => exact h
  | read next ih => exact ih s h
  | write s next ih => exact ih h
  | await o next ih =>
    refine ⟨h.1, h.2.1, ?_⟩
    intro t hrely hinv hwaits answer u hu
    exact ih answer (h.2.2 t hrely hinv hwaits answer u hu)

theorem wp_attempt {post : σ → σ → Except ε (Except ε α) → Prop}
    (h : p.Wp c perf (fun s₀ s r => post s₀ s (.ok r)) s₀ s) : p.attempt.Wp c perf post s₀ s := by
  induction p generalizing s₀ s with
  | done a => exact h
  | raise e => exact h
  | read next ih => exact ih s h
  | write s next ih => exact ih h
  | await o next ih =>
    refine ⟨h.1, h.2.1, ?_⟩
    intro t hrely hinv hwaits answer u hu
    exact ih answer (h.2.2 t hrely hinv hwaits answer u hu)

theorem Wp.mono {post' : σ → σ → Except ε α → Prop} (h : p.Wp c perf post s₀ s)
    (hpost : ∀ s₀ s r, post s₀ s r → post' s₀ s r) : p.Wp c perf post' s₀ s := by
  induction p generalizing s₀ s with
  | done a => exact hpost _ _ _ h
  | raise e => exact hpost _ _ _ h
  | read next ih => exact ih s h
  | write s next ih => exact ih h
  | await o next ih =>
    refine ⟨h.1, h.2.1, ?_⟩
    intro t hrely hinv hwaits answer u hu
    exact ih answer (h.2.2 t hrely hinv hwaits answer u hu)

theorem wp_ensure {cleanup : Program σ ω ρ ε Unit}
    (h : p.Wp c perf (fun s₀ s r => cleanup.Wp c perf (fun s₀ s thrown =>
      match thrown with
      | .ok _ => post s₀ s r
      | .error e => post s₀ s (.error e)) s₀ s) s₀ s) :
    (p.ensure cleanup).Wp c perf post s₀ s := by
  refine wp_bind (wp_attempt (h.mono ?_))
  intro s₀ s r hcleanup
  refine wp_bind (hcleanup.mono ?_)
  intro s₀ s thrown hpost
  cases thrown with
  | error e => exact hpost
  | ok _ =>
    cases r with
    | ok a => exact hpost
    | error e => exact hpost

theorem wp_perform {o : ω} {post : σ → σ → Except ε (ρ o) → Prop} (hends : c.Ends s₀ s)
    (hwaits : c.waits s) (h : ∀ t, c.rely s t → c.inv t → c.waits t →
      ∀ answer u, perf o t answer u → post t u answer) :
    (perform o : Program σ ω ρ ε (ρ o)).Wp c perf post s₀ s := by
  refine ⟨hends, hwaits, ?_⟩
  intro t hrely hinv hwaits answer u hu
  cases answer with
  | ok a => exact h t hrely hinv hwaits _ u hu
  | error e => exact h t hrely hinv hwaits _ u hu

end Program

/-- The precondition of what is left at the end of a turn. -/
def Stopped.Wp (c : Contract σ) (perf : (o : ω) → σ → Except ε (ρ o) → σ → Prop)
    (post : σ → σ → Except ε α → Prop) (s₀ s : σ) : Stopped σ ω ρ ε α → Prop
  | .ended r => post s₀ s r
  | .waiting o next => c.Ends s₀ s ∧ c.waits s ∧ ∀ t, c.rely s t → c.inv t → c.waits t →
      ∀ answer u, perf o t answer u → (next answer).Wp c perf post t u

theorem Program.Wp.turn {p : Program σ ω ρ ε α} {s₀ s : σ} (h : p.Wp c perf post s₀ s) :
    (p.turn s).1.Wp c perf post s₀ (p.turn s).2 := by
  induction p generalizing s with
  | done a => exact h
  | raise e => exact h
  | read next ih => exact ih s h
  | write s next ih => exact ih h
  | await o next => exact h

/-- The contract of a body whose first turn is all that matters. -/
def Contract.turn (holds : σ → Prop) : Contract σ where
  inv := holds
  rely := fun _ _ => False
  guar := fun _ _ => True
  waits := fun _ => True

theorem Program.turn_holds {p : Program σ ω ρ ε α} {holds : σ → Prop} {s₀ s : σ}
    (h : p.Wp (.turn holds) perf (fun _ s _ => holds s) s₀ s) : holds (p.turn s).2 := by
  have hturn := h.turn
  generalize p.turn s = stopped at hturn ⊢
  obtain ⟨stopped, t⟩ := stopped
  cases stopped with
  | ended r => exact hturn
  | waiting o next => exact hturn.1.inv

/-! ## Calls in progress -/

/-- The calls there are. Every call has its number, which `enter` may note; `leave` notes how it
ended. -/
structure Server (σ κ ω χ : Type) (ρ : ω → Type) (ε α : Type) where
  enter : Nat → κ → σ → Option σ
  body : Nat → κ → Program σ ω ρ ε α
  /-- what an operation of the call does, by the choice of the outside -/
  answer : Nat → κ → (o : ω) → χ → σ → Option (Except ε (ρ o) × σ)
  leave : Nat → κ → Except ε α → σ → σ

/-- A call that waits for an operation. -/
structure Task (σ κ ω : Type) (ρ : ω → Type) (ε α : Type) where
  id : Nat
  call : κ
  o : ω
  next : Except ε (ρ o) → Program σ ω ρ ε α

structure Pool (σ κ ω : Type) (ρ : ω → Type) (ε α : Type) where
  shared : σ
  tasks : List (Task σ κ ω ρ ε α)
  next : Nat

inductive Act (κ χ : Type) where
  | call (k : κ)
  | resume (i : Nat) (choice : χ)

/-- Which calls may be made, and which operations may happen. -/
structure Condition (σ κ ω χ : Type) where
  call : κ → σ → Prop
  answer : Nat → κ → ω → χ → σ → Prop

/-- The steps that meet a condition. -/
def Condition.Allows (ok : Condition σ κ ω χ) (pool : Pool σ κ ω ρ ε α) : Act κ χ → Prop
  | .call k => ok.call k pool.shared
  | .resume i choice =>
    ∀ task ∈ pool.tasks[i]?, ok.answer task.id task.call task.o choice pool.shared

namespace Server

variable (server : Server σ κ ω χ ρ ε α)

/-- A call at the end of its turn. -/
def settle (id : Nat) (k : κ) (stopped : Stopped σ ω ρ ε α × σ) :
    Option (Task σ κ ω ρ ε α) × σ :=
  match stopped.1 with
  | .ended r => (none, server.leave id k r stopped.2)
  | .waiting o next => (some { id := id, call := k, o := o, next := next }, stopped.2)

def step (pool : Pool σ κ ω ρ ε α) : Act κ χ → Option (Pool σ κ ω ρ ε α)
  | .call k =>
    (server.enter pool.next k pool.shared).map fun s =>
      let settled := server.settle pool.next k ((server.body pool.next k).turn s)
      { shared := settled.2
        tasks := pool.tasks ++ settled.1.toList
        next := pool.next + 1 }
  | .resume i choice =>
    (pool.tasks[i]?).bind fun task =>
      (server.answer task.id task.call task.o choice pool.shared).map fun answered =>
        let settled := server.settle task.id task.call ((task.next answered.1).turn answered.2)
        { pool with shared := settled.2, tasks := advance pool.tasks i settled.1 }

def system : System (Pool σ κ ω ρ ε α) (Act κ χ) where
  step := server.step

def idle (s : σ) : Pool σ κ ω ρ ε α where
  shared := s
  tasks := []
  next := 0

/-- What an operation of a call may do. -/
def Answers (ok : Condition σ κ ω χ) (id : Nat) (k : κ) (o : ω) (s : σ)
    (answer : Except ε (ρ o)) (t : σ) : Prop :=
  ∃ choice, ok.answer id k o choice s ∧ server.answer id k o choice s = some (answer, t)

/-- What a call has to establish when it ends. -/
def Left (c : Nat → Contract σ) (id : Nat) (k : κ) (s₀ s : σ) (r : Except ε α) : Prop :=
  (c id).Ends s₀ (server.leave id k r s)

/-- The bodies keep their contracts. -/
structure Sound (ok : Condition σ κ ω χ) (c : Nat → Contract σ) (inv : σ → Prop) :
    Prop where
  inv_eq : ∀ i, (c i).inv = inv
  refl : ∀ i s, (c i).rely s s
  trans : ∀ i s t u, (c i).rely s t → (c i).rely t u → (c i).rely s u
  compatible : ∀ i j s t, i ≠ j → (c i).guar s t → (c j).rely s t
  stable : ∀ i s t, (c i).waits s → (c i).rely s t → (c i).waits t
  enters : ∀ i k s t, inv s → ok.call k s → server.enter i k s = some t →
    (server.body i k).Wp (c i) (server.Answers ok i k) (server.Left c i k) s t

/-- Where a call waits, with its contract kept so far. -/
def Waits (ok : Condition σ κ ω χ) (c : Nat → Contract σ) (s : σ)
    (task : Task σ κ ω ρ ε α) : Prop :=
  (c task.id).waits s ∧ ∀ t, (c task.id).rely s t → (c task.id).inv t → (c task.id).waits t →
    ∀ answer u, server.Answers ok task.id task.call task.o t answer u →
      (task.next answer).Wp (c task.id) (server.Answers ok task.id task.call)
        (server.Left c task.id task.call) t u

structure Keeps (ok : Condition σ κ ω χ) (c : Nat → Contract σ) (inv : σ → Prop)
    (pool : Pool σ κ ω ρ ε α) : Prop where
  inv : inv pool.shared
  waits : ∀ task ∈ pool.tasks, server.Waits ok c pool.shared task
  fresh : ∀ task ∈ pool.tasks, task.id < pool.next
  distinct : pool.tasks.Pairwise fun x y => x.id ≠ y.id

variable {server} {ok : Condition σ κ ω χ} {c : Nat → Contract σ} {inv : σ → Prop}
  {pool pool' : Pool σ κ ω ρ ε α}

/-- The end of a turn, for the call itself. -/
theorem settle_ends {id : Nat} {k : κ} {p : Program σ ω ρ ε α} {s₀ s : σ}
    (hp : p.Wp (c id) (server.Answers ok id k) (server.Left c id k) s₀ s) :
    (c id).Ends s₀ (server.settle id k (p.turn s)).2 ∧
      ∀ task, (server.settle id k (p.turn s)).1 = some task →
        task.id = id ∧ server.Waits ok c (server.settle id k (p.turn s)).2 task := by
  have hturn := hp.turn
  generalize p.turn s = stopped at hturn ⊢
  obtain ⟨stopped, t⟩ := stopped
  cases stopped with
  | ended r => exact ⟨hturn, fun task he => by cases he⟩
  | waiting o next =>
    refine ⟨hturn.1, ?_⟩
    intro task he
    cases he
    exact ⟨rfl, hturn.2⟩

/-- The other calls, after a turn of call `id`. -/
theorem waits_of_guar (h : server.Sound ok c inv) {id : Nat} {s t : σ}
    {task : Task σ κ ω ρ ε α} (hne : id ≠ task.id) (hguar : (c id).guar s t)
    (hwaits : server.Waits ok c s task) : server.Waits ok c t task := by
  have hrely := h.compatible _ _ _ _ hne hguar
  refine ⟨h.stable _ _ _ hwaits.1 hrely, ?_⟩
  exact fun u hu => hwaits.2 u (h.trans _ _ _ _ hrely hu)

theorem Keeps.call (h : server.Sound ok c inv) (hpool : server.Keeps ok c inv pool) {k : κ}
    (hok : ok.call k pool.shared) (hstep : server.step pool (.call k) = some pool') :
    server.Keeps ok c inv pool' := by
  obtain ⟨s, hs, rfl⟩ := Option.map_eq_some_iff.mp hstep
  obtain ⟨hends, htask⟩ := settle_ends (h.enters _ k _ s hpool.inv hok hs)
  constructor
  case inv =>
    have hinv := hends.inv
    rwa [h.inv_eq] at hinv
  case waits =>
    intro task hmem
    rcases List.mem_append.mp hmem with hold | hnew
    · exact waits_of_guar h (Nat.ne_of_gt (hpool.fresh _ hold)) hends.guar (hpool.waits _ hold)
    · exact (htask task (Option.mem_toList.mp hnew)).2
  case fresh =>
    intro task hmem
    rcases List.mem_append.mp hmem with hold | hnew
    · exact Nat.lt_succ_of_lt (hpool.fresh _ hold)
    · rw [(htask task (Option.mem_toList.mp hnew)).1]
      exact Nat.lt_succ_self _
  case distinct =>
    refine List.pairwise_append.mpr ⟨hpool.distinct, ?_, ?_⟩
    · cases (server.settle pool.next k ((server.body pool.next k).turn s)).1 with
      | none => exact List.Pairwise.nil
      | some task => exact List.pairwise_singleton _ _
    · intro x hx y hy
      rw [(htask y (Option.mem_toList.mp hy)).1]
      exact Nat.ne_of_lt (hpool.fresh _ hx)

theorem Keeps.resume (h : server.Sound ok c inv) (hpool : server.Keeps ok c inv pool) {i : Nat}
    {choice : χ} (hok : ok.Allows pool (.resume i choice))
    (hstep : server.step pool (.resume i choice) = some pool') : server.Keeps ok c inv pool' := by
  obtain ⟨task, htask, hstep⟩ := Option.bind_eq_some_iff.mp hstep
  obtain ⟨answered, hanswered, rfl⟩ := Option.map_eq_some_iff.mp hstep
  have hmem := List.mem_of_getElem? htask
  have hinv : (c task.id).inv pool.shared := by
    rw [h.inv_eq]
    exact hpool.inv
  obtain ⟨hwaits, hresumes⟩ := hpool.waits task hmem
  have hwp := hresumes pool.shared (h.refl _ _) hinv hwaits answered.1 answered.2
    ⟨choice, hok task htask, hanswered⟩
  obtain ⟨hends, hnext⟩ := settle_ends hwp
  have hsymm : ∀ x y : Task σ κ ω ρ ε α, x.id ≠ y.id → y.id ≠ x.id := fun _ _ hne => hne.symm
  constructor
  case inv =>
    have hinv := hends.inv
    rwa [h.inv_eq] at hinv
  case waits =>
    intro other hother
    rcases mem_advance_pairwise hsymm hpool.distinct htask hother with hself | ⟨hold, hne⟩
    · exact (hnext other hself).2
    · exact waits_of_guar h hne hends.guar (hpool.waits _ hold)
  case fresh =>
    intro other hother
    rcases mem_of_mem_advance hother with hold | hself
    · exact hpool.fresh _ hold
    · rw [(hnext other hself).1]
      exact hpool.fresh _ hmem
  case distinct =>
    refine pairwise_advance hsymm hpool.distinct htask ?_
    intro next he other hne
    rwa [(hnext next he).1]

theorem step_resume_next {i : Nat} {choice : χ}
    (hstep : server.step pool (.resume i choice) = some pool') : pool'.next = pool.next := by
  obtain ⟨_, _, hstep⟩ := Option.bind_eq_some_iff.mp hstep
  obtain ⟨_, _, rfl⟩ := Option.map_eq_some_iff.mp hstep
  rfl

/-- What the first turn of a call has kept. -/
theorem Keeps.call_ends (h : server.Sound ok c inv) (hpool : server.Keeps ok c inv pool) {k : κ}
    (hok : ok.call k pool.shared) (hstep : server.step pool (.call k) = some pool') :
    pool'.next = pool.next + 1 ∧ (c pool.next).Ends pool.shared pool'.shared := by
  obtain ⟨s, hs, rfl⟩ := Option.map_eq_some_iff.mp hstep
  exact ⟨rfl, (settle_ends (h.enters _ k _ s hpool.inv hok hs)).1⟩

/-- What the turn of a call that goes on has kept. -/
theorem Keeps.resume_ends (h : server.Sound ok c inv) (hpool : server.Keeps ok c inv pool)
    {i : Nat} {choice : χ} (hok : ok.Allows pool (.resume i choice)) {task : Task σ κ ω ρ ε α}
    (htask : pool.tasks[i]? = some task)
    (hstep : server.step pool (.resume i choice) = some pool') :
    (c task.id).Ends pool.shared pool'.shared := by
  obtain ⟨other, hother, hstep⟩ := Option.bind_eq_some_iff.mp hstep
  obtain rfl := Option.some.inj (htask.symm.trans hother)
  obtain ⟨answered, hanswered, rfl⟩ := Option.map_eq_some_iff.mp hstep
  have hinv : (c task.id).inv pool.shared := by
    rw [h.inv_eq]
    exact hpool.inv
  obtain ⟨hwaits, hresumes⟩ := hpool.waits task (List.mem_of_getElem? htask)
  exact (settle_ends (hresumes pool.shared (h.refl _ _) hinv hwaits answered.1 answered.2
    ⟨choice, hok task htask, hanswered⟩)).1

theorem Keeps.idle {s : σ} (hs : inv s) : server.Keeps ok c inv (Server.idle s) where
  inv := hs
  waits := fun _ hmem => absurd hmem List.not_mem_nil
  fresh := fun _ hmem => absurd hmem List.not_mem_nil
  distinct := List.Pairwise.nil

/-- **The rule for servers.** Bodies that keep their contracts keep the invariant in every run, and
every call that waits has kept its own. -/
theorem Sound.reachable (h : server.Sound ok c inv) {s : σ} (hs : inv s)
    (hreach : server.system.Reachable ok.Allows (Server.idle s) pool) :
    server.Keeps ok c inv pool := by
  refine hreach.inv (server.Keeps ok c inv) (Keeps.idle hs) ?_
  intro pool act pool' hpool hok hstep
  cases act with
  | call k => exact Keeps.call h hpool hok hstep
  | resume i choice => exact Keeps.resume h hpool hok hstep

end Server

end BackgroundAgents.Programs

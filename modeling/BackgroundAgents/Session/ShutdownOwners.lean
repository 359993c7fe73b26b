import BackgroundAgents.Session.SandboxShutdown
import Mathlib.Logic.Function.Basic

/-!
# The owners are released

Every function of an owner releases it on every way out of its `try`. Two of them
can be left in between: `capture` publishes and awaits the alarm before its `try`
begins (`capture_wedged`), and `captureCheckpoint` reads the rows and writes the
sandbox row before its own.

Where nothing throws there (`guarded`), `Inv` holds: a field that is set was set by
a call that is still in its function. What a call knows of an owner is its `Stage`;
most functions leave all stages as they are (`Leaves`).
-/

namespace BackgroundAgents.Session.SandboxShutdown

open Programs Transition
open Sockets (SandboxStatus)

/-- Where a call stands with an owner. -/
inductive Stage where
  | out
  | inside (operation : Option Nat)
  deriving DecidableEq

def Stage.Holds (id : Nat) (owner : Owner) : Stage → Prop
  | .out => id ∉ owner.running ∧ (owner.holder = some id → owner.operation = none)
  | .inside operation => id ∈ owner.running ∧
      (owner.holder = some id → owner.operation = none ∨ owner.operation = operation)

/-- The two places between a claim and its `try`. -/
def Guarded (faults : List Point) : Prop :=
  ∀ p ∈ faults, p.site ≠ .capture ∧ p.site ≠ .checkpointClaimed

def AlarmSet (o : ShutdownOp) (ending : Ending) : Prop :=
  match o, ending with
  | .schedule .capture _, .throws _ => False
  | _, _ => True

/-- Nothing throws between a claim and its `try`. -/
def guarded : Condition State Call ShutdownOp Choice where
  call := fun call _ => Guarded call.faults
  answer := fun _ _ o choice _ => Guarded choice.faults ∧ AlarmSet o choice.ending

structure Inv (s : State) : Prop where
  guarded : Guarded s.faults
  owned : ∀ name, (s.owners name).operation ≠ none →
    ∃ id ∈ (s.owners name).running, (s.owners name).holder = some id
  holders : ∀ name id, (s.owners name).holder = some id → id < s.calls
  running : ∀ name, ∀ id ∈ (s.owners name).running, id < s.calls
  ended : ∀ id ∈ s.ended, id < s.calls ∧ ∀ name, id ∉ (s.owners name).running

/-- What others leave of an owner. -/
structure OwnerLater (id : Nat) (o o' : Owner) : Prop where
  running : id ∈ o'.running ↔ id ∈ o.running
  holder : o'.holder = some id →
    o.holder = some id ∧ (o'.operation = none ∨ o'.operation = o.operation)

structure Rely (id : Nat) (s t : State) : Prop where
  calls : s.calls ≤ t.calls
  ended : id ∉ s.ended → id ∉ t.ended
  owners : ∀ name, OwnerLater id (s.owners name) (t.owners name)

def ownerContract (id : Nat) : Contract State where
  inv := Inv
  rely := Rely id
  guar := fun s t => ∀ other, other ≠ id → Rely other s t
  waits := fun _ => True

/-- What a call has kept, and where it stands with each owner. -/
structure Reached (id : Nat) (stages : OwnerName → Stage) (s₀ s : State) : Prop where
  inv : Inv s
  guar : ∀ other, other ≠ id → Rely other s₀ s
  fresh : id < s.calls
  open' : id ∉ s.ended
  stages : ∀ name, (stages name).Holds id (s.owners name)

variable {provider : Provider} {id other : Nat} {call : Call} {s s₀ t u : State}
  {stages : OwnerName → Stage} {name : OwnerName} {α β : Type}

theorem inv_initial (record : Option StoredRecord) (row : Option SandboxRow) :
    Inv (State.initial record row) where
  guarded := fun _ h => absurd h List.not_mem_nil
  owned := fun _ h => absurd rfl h
  holders := fun _ _ h => (by cases h)
  running := fun _ _ h => absurd h List.not_mem_nil
  ended := fun _ h => absurd h List.not_mem_nil

theorem OwnerLater.refl (id : Nat) (o : Owner) : OwnerLater id o o :=
  ⟨Iff.rfl, fun h => ⟨h, .inr rfl⟩⟩

theorem OwnerLater.trans {o o' o'' : Owner} (h : OwnerLater id o o') (h' : OwnerLater id o' o'') :
    OwnerLater id o o'' where
  running := h'.running.trans h.running
  holder := by
    intro hholder
    obtain ⟨hmid, hop⟩ := h'.holder hholder
    obtain ⟨hfirst, hop'⟩ := h.holder hmid
    refine ⟨hfirst, ?_⟩
    rcases hop with hnone | hsame
    · exact .inl hnone
    · rw [hsame]
      exact hop'

theorem Rely.refl (id : Nat) (s : State) : Rely id s s :=
  ⟨Nat.le_refl _, fun h => h, fun _ => OwnerLater.refl _ _⟩

theorem Rely.trans (hst : Rely id s t) (htu : Rely id t u) : Rely id s u :=
  ⟨Nat.le_trans hst.calls htu.calls, fun h => htu.ended (hst.ended h),
    fun name => (hst.owners name).trans (htu.owners name)⟩

theorem Stage.Holds.later {stage : Stage} {o o' : Owner} (h : stage.Holds id o)
    (hlater : OwnerLater id o o') : stage.Holds id o' := by
  cases stage with
  | out =>
    refine ⟨fun hmem => h.1 (hlater.running.mp hmem), ?_⟩
    intro hholder
    obtain ⟨hfirst, hop⟩ := hlater.holder hholder
    rcases hop with hnone | hsame
    · exact hnone
    · exact hsame.trans (h.2 hfirst)
  | inside operation =>
    refine ⟨hlater.running.mpr h.1, ?_⟩
    intro hholder
    obtain ⟨hfirst, hop⟩ := hlater.holder hholder
    rcases hop with hnone | hsame
    · exact .inl hnone
    · rw [hsame]
      exact h.2 hfirst

/-! ## Steps on an owner -/

theorem setOwner_self (s : State) (name : OwnerName) (owner : Owner) :
    (s.setOwner name owner).owners name = owner := if_pos rfl

theorem setOwner_ne {other : OwnerName} (hne : other ≠ name) (s : State) (owner : Owner) :
    (s.setOwner name owner).owners other = s.owners other := if_neg hne

/-- A change of one owner: what has to be shown is about that owner only. -/
theorem Reached.setOwner (h : Reached id stages s₀ s) {owner : Owner}
    {stage : Stage} (hstage : stage.Holds id owner)
    (howned : owner.operation ≠ none → ∃ i ∈ owner.running, owner.holder = some i)
    (hholder : ∀ i, owner.holder = some i → i < s.calls)
    (hrunning : ∀ i ∈ owner.running, i ∈ (s.owners name).running ∨ i = id)
    (hlater : ∀ other, other ≠ id → OwnerLater other (s.owners name) owner) :
    Reached id (Function.update stages name stage) s₀ (s.setOwner name owner) where
  inv := {
    guarded := h.inv.guarded
    owned := by
      intro other
      by_cases hsame : other = name
      · rw [hsame, setOwner_self]
        exact howned
      · rw [setOwner_ne hsame]
        exact h.inv.owned other
    holders := by
      intro other i
      by_cases hsame : other = name
      · rw [hsame, setOwner_self]
        exact hholder i
      · rw [setOwner_ne hsame]
        exact h.inv.holders other i
    running := by
      intro other i
      by_cases hsame : other = name
      · rw [hsame, setOwner_self]
        intro hi
        rcases hrunning i hi with hold | rfl
        · exact h.inv.running name i hold
        · exact h.fresh
      · rw [setOwner_ne hsame]
        exact h.inv.running other i
    ended := by
      intro i hi
      refine ⟨(h.inv.ended i hi).1, ?_⟩
      intro other
      by_cases hsame : other = name
      · rw [hsame, setOwner_self]
        intro hmem
        rcases hrunning i hmem with hold | rfl
        · exact (h.inv.ended i hi).2 name hold
        · exact h.open' hi
      · rw [setOwner_ne hsame]
        exact (h.inv.ended i hi).2 other }
  guar := by
    intro other hne
    refine (h.guar other hne).trans ⟨Nat.le_refl _, fun hnot => hnot, ?_⟩
    intro field
    by_cases hsame : field = name
    · rw [hsame, setOwner_self]
      exact hlater other hne
    · rw [setOwner_ne hsame]
      exact OwnerLater.refl _ _
  fresh := h.fresh
  open' := h.open'
  stages := by
    intro field
    by_cases hsame : field = name
    · rw [hsame, setOwner_self, Function.update_self]
      exact hstage
    · rw [setOwner_ne hsame, Function.update_of_ne hsame]
      exact h.stages field

theorem Reached.into (h : Reached id stages s₀ s) (hout : stages name = .out) :
    Reached id (Function.update stages name (.inside none)) s₀ (s.into name id) := by
  have hstage := h.stages name
  rw [hout] at hstage
  refine h.setOwner ⟨List.mem_append_right _ (List.mem_singleton_self _), ?_⟩ ?_ ?_ ?_ ?_
  · exact fun hholder => .inl (hstage.2 hholder)
  · intro hop
    obtain ⟨i, hi, hholder⟩ := h.inv.owned name hop
    exact ⟨i, List.mem_append_left _ hi, hholder⟩
  · exact h.inv.holders name
  · intro i hi
    rcases List.mem_append.mp hi with hold | hnew
    · exact .inl hold
    · exact .inr (List.mem_singleton.mp hnew)
  · intro other hne
    refine ⟨?_, fun hholder => ⟨hholder, .inr rfl⟩⟩
    refine ⟨?_, List.mem_append_left _⟩
    intro hmem
    rcases List.mem_append.mp hmem with hold | hnew
    · exact hold
    · exact absurd (List.mem_singleton.mp hnew) hne

theorem Reached.outOf (h : Reached id stages s₀ s) (hinside : stages name = .inside none) :
    Reached id (Function.update stages name .out) s₀ (s.outOf name id) := by
  have hstage := h.stages name
  rw [hinside] at hstage
  have hclear : (s.owners name).holder = some id → (s.owners name).operation = none := by
    intro hholder
    rcases hstage.2 hholder with hnone | hnone
    · exact hnone
    · exact hnone
  have hkept : ∀ i, i ≠ id → (i ∈ (s.owners name).running.filter (· ≠ id) ↔
      i ∈ (s.owners name).running) := by
    intro i hne
    rw [List.mem_filter, decide_eq_true_eq]
    exact ⟨fun hi => hi.1, fun hi => ⟨hi, hne⟩⟩
  refine h.setOwner ⟨?_, hclear⟩ ?_ ?_ ?_ ?_
  · intro hmem
    exact of_decide_eq_true (List.mem_filter.mp hmem).2 rfl
  · intro hop
    obtain ⟨i, hi, hholder⟩ := h.inv.owned name hop
    refine ⟨i, (hkept i ?_).mpr hi, hholder⟩
    intro hi
    exact hop (hclear (hi ▸ hholder))
  · exact h.inv.holders name
  · exact fun i hi => .inl (List.mem_filter.mp hi).1
  · exact fun other hne => ⟨hkept other hne, fun hholder => ⟨hholder, .inr rfl⟩⟩

variable {operation : Option Nat}

theorem Reached.claim (h : Reached id stages s₀ s) {before : Option Nat}
    (hinside : stages name = .inside before) :
    Reached id (Function.update stages name (.inside operation)) s₀
      (s.claim name id operation) := by
  have hstage := h.stages name
  rw [hinside] at hstage
  refine h.setOwner ⟨hstage.1, fun _ => .inr rfl⟩ ?_ ?_ ?_ ?_
  · exact fun _ => ⟨id, hstage.1, rfl⟩
  · intro i hi
    rw [← Option.some.inj hi]
    exact h.fresh
  · exact fun i hi => .inl hi
  · exact fun other hne => ⟨Iff.rfl, fun hholder => absurd (Option.some.inj hholder).symm hne⟩

theorem Reached.release (h : Reached id stages s₀ s) (hinside : stages name = .inside operation) :
    Reached id (Function.update stages name (.inside none)) s₀ (s.release name) := by
  have hstage := h.stages name
  rw [hinside] at hstage
  refine h.setOwner ⟨hstage.1, fun _ => .inl rfl⟩ ?_ ?_ ?_ ?_
  · exact fun hop => absurd rfl hop
  · exact h.inv.holders name
  · exact fun i hi => .inl hi
  · exact fun other _ => ⟨Iff.rfl, fun hholder => ⟨hholder, .inl rfl⟩⟩

/-- A step that is about no owner. -/
theorem Reached.frame (h : Reached id stages s₀ s) (howners : t.owners = s.owners)
    (hfaults : t.faults = s.faults) (hcalls : t.calls = s.calls) (hended : t.ended = s.ended) :
    Reached id stages s₀ t where
  inv := {
    guarded := by rw [hfaults]; exact h.inv.guarded
    owned := by rw [howners]; exact h.inv.owned
    holders := by rw [howners, hcalls]; exact h.inv.holders
    running := by rw [howners, hcalls]; exact h.inv.running
    ended := by rw [howners, hcalls, hended]; exact h.inv.ended }
  guar := by
    intro other hne
    have hrely := h.guar other hne
    refine ⟨?_, ?_, ?_⟩
    · rw [hcalls]; exact hrely.calls
    · rw [hended]; exact hrely.ended
    · rw [howners]; exact hrely.owners
  fresh := by rw [hcalls]; exact h.fresh
  open' := by rw [hended]; exact h.open'
  stages := by rw [howners]; exact h.stages

/-! ## Functions that are about no owner -/

abbrev shutdownAnswers (provider : Provider) (id : Nat) (call : Call) :
    (o : ShutdownOp) → State → Except ShutdownError o.Answer → State → Prop :=
  (shutdownServer provider).Answers guarded id call

/-- A function that leaves the call where it stands with every owner. -/
def Leaves (provider : Provider) (id : Nat) (call : Call) (p : Shutdown α) : Prop :=
  ∀ stages s₀ s, Reached id stages s₀ s →
    p.Wp (ownerContract id) (shutdownAnswers provider id call)
      (fun s₀ s _ => Reached id stages s₀ s) s₀ s

theorem leaves_done (a : α) : Leaves provider id call (Program.done a : Shutdown α) :=
  fun _ _ _ h => h

theorem leaves_raise (e : ShutdownError) :
    Leaves provider id call (Program.raise e : Shutdown α) :=
  fun _ _ _ h => h

theorem leaves_gets (f : State → α) : Leaves provider id call (Program.gets f : Shutdown α) :=
  fun _ _ _ h => h

theorem leaves_modify {f : State → State} (howners : ∀ s, (f s).owners = s.owners)
    (hfaults : ∀ s, (f s).faults = s.faults) (hcalls : ∀ s, (f s).calls = s.calls)
    (hended : ∀ s, (f s).ended = s.ended) :
    Leaves provider id call (Program.modify f : Shutdown Unit) :=
  fun _ _ s h => h.frame (howners s) (hfaults s) (hcalls s) (hended s)

theorem leaves_bind {p : Shutdown α} {f : α → Shutdown β} (hp : Leaves provider id call p)
    (hf : ∀ a, Leaves provider id call (f a)) : Leaves provider id call (p >>= f) := by
  intro stages s₀ s h
  refine Program.wp_bind ((hp stages s₀ s h).mono ?_)
  intro s₀ s r hs
  cases r with
  | error e => exact hs
  | ok a => exact hf a stages s₀ s hs

theorem leaves_handle {p : Shutdown α} {g : ShutdownError → Shutdown α}
    (hp : Leaves provider id call p) (hg : ∀ e, Leaves provider id call (g e)) :
    Leaves provider id call (p.handle g) := by
  intro stages s₀ s h
  refine Program.wp_handle ((hp stages s₀ s h).mono ?_)
  intro s₀ s r hs
  cases r with
  | error e => exact hg e stages s₀ s hs
  | ok a => exact hs

theorem leaves_ite {condition : Prop} [Decidable condition] {p q : Shutdown α}
    (hp : Leaves provider id call p) (hq : Leaves provider id call q) :
    Leaves provider id call (if condition then p else q) := by
  split
  · exact hp
  · exact hq

/-- What the operation that is answered begins with. -/
theorem Reached.resumed {ending : Ending} {now : Int} {faults : List Point} {o : ShutdownOp}
    {answer : Except ShutdownError o.Answer} (h : Reached id stages s₀ s) (hrely : Rely id s t)
    (hinv : Inv t) (hfaults : Guarded faults)
    (hanswer : o.answer (t.turn now faults) ending = some (answer, u)) :
    Reached id stages t u := by
  have hturn : u = t.turn now faults := by
    unfold ShutdownOp.answer at hanswer
    split at hanswer <;> cases hanswer <;> rfl
  cases hturn
  refine ⟨⟨hfaults, hinv.owned, hinv.holders, hinv.running, hinv.ended⟩, ?_, ?_, ?_, ?_⟩
  · exact fun other _ => ⟨Nat.le_refl _, fun h => h, fun _ => OwnerLater.refl _ _⟩
  · exact Nat.lt_of_lt_of_le h.fresh hrely.calls
  · exact hrely.ended h.open'
  · exact fun name => (h.stages name).later (hrely.owners name)

theorem leaves_await (o : ShutdownOp) : Leaves provider id call (await o) := by
  intro stages s₀ s h
  refine Program.wp_perform ⟨h.inv, h.guar⟩ trivial ?_
  intro t hrely hinv _ answer u hu
  obtain ⟨choice, hok, hanswer⟩ := hu
  exact h.resumed hrely hinv hok.1 hanswer

theorem leaves_mayThrow (site : Site) (op : SyncOp) :
    Leaves provider id call (mayThrow site op) :=
  leaves_bind (leaves_gets _) fun _ => leaves_ite (leaves_raise _) (leaves_done _)

theorem leaves_randomUUID : Leaves provider id call randomUUID :=
  leaves_bind (leaves_gets _) fun _ =>
    leaves_bind (leaves_modify (fun _ => rfl) (fun _ => rfl) (fun _ => rfl) (fun _ => rfl))
      fun _ => leaves_done _

theorem leaves_write (site : Site) (state : ShutdownRecord) :
    Leaves provider id call (write site state) := by
  refine leaves_bind (leaves_mayThrow _ _) fun _ => ?_
  split
  · exact leaves_modify (fun _ => rfl) (fun _ => rfl) (fun _ => rfl) (fun _ => rfl)
  · exact leaves_raise _

theorem leaves_publish (site : Site) (state : ShutdownRecord) :
    Leaves provider id call (publish site state) :=
  leaves_bind (leaves_write _ _) fun _ => leaves_mayThrow _ _

theorem leaves_updateSandboxStatus (site : Site) (status : SandboxStatus) :
    Leaves provider id call (updateSandboxStatus site status) :=
  leaves_bind (leaves_mayThrow _ _) fun _ =>
    leaves_modify (fun _ => rfl) (fun _ => rfl) (fun _ => rfl) (fun _ => rfl)

theorem leaves_fail (state : ShutdownRecord) (phase : ShutdownPhase) (error : String)
    (captureFailure : Bool) : Leaves provider id call (fail state phase error captureFailure) :=
  leaves_bind (leaves_publish _ _) fun _ => leaves_done _

theorem leaves_providerMatches (state : ShutdownRecord) :
    Leaves provider id call (providerMatches provider state) :=
  leaves_ite (leaves_done _)
    (leaves_ite (leaves_bind (leaves_fail _ _ _ _) fun _ => leaves_done _) (leaves_done _))

theorem leaves_finish (state : ShutdownRecord) : Leaves provider id call (finish state) :=
  leaves_bind (leaves_updateSandboxStatus _ _) fun _ =>
    leaves_bind (leaves_mayThrow _ _) fun _ => leaves_publish _ _

theorem leaves_fenceRuntime : Leaves provider id call fenceRuntime := by
  refine leaves_bind (leaves_gets _) fun row => ?_
  dsimp only
  exact leaves_ite
    (leaves_bind (leaves_updateSandboxStatus _ _) fun _ => leaves_mayThrow _ _)
    (leaves_mayThrow _ _)

theorem leaves_scheduleCaptureRetry (state : ShutdownRecord) :
    Leaves provider id call (scheduleCaptureRetry provider state) :=
  leaves_bind (leaves_gets _) fun _ => leaves_ite (leaves_await _) (leaves_done _)

theorem leaves_captureSnapshot (object : String) (deadlineAtMs : Option Int) :
    Leaves provider id call (captureSnapshot provider object deadlineAtMs) := by
  refine leaves_ite (leaves_bind (leaves_await _) fun result => ?_) (leaves_raise _)
  split
  · exact leaves_ite (leaves_done _) (leaves_raise _)
  · exact leaves_raise _

/-- The alarm of a capture is set. -/
theorem wp_scheduleCapture (captureByMs : Option Int) (h : Reached id stages s₀ s) :
    (await (.schedule .capture captureByMs)).Wp (ownerContract id)
      (shutdownAnswers provider id call) (fun s₀ s r => r = .ok () ∧ Reached id stages s₀ s)
      s₀ s := by
  refine Program.wp_perform ⟨h.inv, h.guar⟩ trivial ?_
  intro t hrely hinv _ answer u hu
  obtain ⟨⟨ending, now, faults⟩, ⟨hfaults, hset⟩, hanswer⟩ := hu
  refine ⟨?_, h.resumed hrely hinv hfaults hanswer⟩
  cases ending with
  | done =>
    cases hanswer
    rfl
  | throws => exact hset.elim
  | snapshot => cases hanswer
  | stopped => cases hanswer

theorem leaves_stopSource (object : String) (intent : Intent) (retireByMs : Option Int) :
    Leaves provider id call (stopSource provider object intent retireByMs) :=
  leaves_ite
    (leaves_bind (leaves_gets _) fun _ => leaves_ite
      (leaves_bind (leaves_gets _) fun _ => leaves_bind (leaves_await _) fun _ =>
        leaves_ite (leaves_done _) (leaves_raise _))
      (leaves_raise _))
    (leaves_raise _)

theorem leaves_retireSource (state : ShutdownRecord) (receipt : ShutdownRecoveryReceipt)
    (object : String) : Leaves provider id call (retireSource provider state receipt object) :=
  leaves_bind (leaves_gets _) fun _ =>
    leaves_bind (leaves_await _) fun _ =>
      leaves_bind (leaves_stopSource _ _ _) fun _ =>
        leaves_bind (leaves_gets _) fun _ => leaves_ite (leaves_finish _) (leaves_done _)

theorem leaves_commitCaptureReceipt (state : ShutdownRecord) (kind : ReceiptKind)
    (captured : Captured) :
    Leaves provider id call (commitCaptureReceipt provider state kind captured) :=
  leaves_bind (leaves_gets _) fun _ =>
    leaves_bind (leaves_gets _) fun _ =>
      leaves_bind (leaves_gets _) fun _ => leaves_ite
        (leaves_bind (leaves_write _ _) fun _ =>
          leaves_bind (leaves_mayThrow _ _) fun _ => leaves_done _)
        (leaves_raise _)

theorem leaves_captureFailed (capturing : ShutdownRecord) (error : ShutdownError) :
    Leaves provider id call (captureFailed capturing error) :=
  leaves_bind (leaves_gets _) fun _ => leaves_ite
    (leaves_bind (leaves_fail _ _ _ _) fun _ => leaves_done _) (leaves_done _)

theorem leaves_completeDiscard (state : ShutdownRecord) :
    Leaves provider id call (completeDiscard provider state) :=
  leaves_bind (leaves_gets _) fun _ => leaves_ite
    (leaves_bind (leaves_write _ _) fun _ =>
      leaves_bind (leaves_modify (fun _ => rfl) (fun _ => rfl) (fun _ => rfl) (fun _ => rfl))
        fun _ => leaves_bind (leaves_mayThrow _ _) fun _ => leaves_mayThrow _ _)
    (leaves_raise _)

theorem leaves_stopDiscarded (claim : ShutdownRecord) (object : String) :
    Leaves provider id call (stopDiscarded provider claim object) :=
  leaves_handle
    (leaves_bind (leaves_gets _) fun _ =>
      leaves_bind (leaves_stopSource _ _ _) fun _ => leaves_done _)
    fun _ => leaves_bind (leaves_gets _) fun _ => leaves_ite
      (leaves_bind (leaves_publish _ _) fun _ => leaves_done _) (leaves_done _)

theorem leaves_discardSource (claim : ShutdownRecord) :
    Leaves provider id call (discardSource provider claim) := by
  have hrest : ∀ stopped : Bool, Leaves provider id call
      ((if stopped then do
          let owned ← Program.gets (·.ownsDiscard claim)
          if owned then completeDiscard provider claim else return ()
        else return () : Shutdown Unit)) :=
    fun stopped => leaves_ite
      (leaves_bind (leaves_gets _) fun _ =>
        leaves_ite (leaves_completeDiscard _) (leaves_done _))
      (leaves_done _)
  refine leaves_bind (leaves_publish _ _) fun _ => ?_
  dsimp only
  split
  · exact leaves_bind (leaves_stopDiscarded _ _) hrest
  · exact hrest true

theorem leaves_normalizeInterruptedRestore :
    Leaves provider id call normalizeInterruptedRestore := by
  refine leaves_bind (leaves_gets _) fun s => ?_
  dsimp only
  split
  · exact leaves_done _
  · exact leaves_ite (leaves_done _) (leaves_bind (leaves_publish _ _) fun _ => leaves_done _)

theorem leaves_admissionReady : Leaves provider id call (admissionReady provider) := by
  refine leaves_bind leaves_normalizeInterruptedRestore fun state => ?_
  cases state with
  | none => exact leaves_done _
  | some state =>
    refine leaves_bind (leaves_gets _) fun s => leaves_ite (leaves_done _) ?_
    refine leaves_bind (leaves_providerMatches _) fun matching => ?_
    exact leaves_ite (leaves_done _) (leaves_ite (leaves_done _) (leaves_ite (leaves_done _)
      (leaves_ite (leaves_done _) (leaves_done _))))

theorem leaves_checkpointRecord (generation : SandboxGeneration) :
    Leaves provider id call (checkpointRecord provider generation) := by
  refine leaves_bind (leaves_gets _) fun state => leaves_bind (leaves_gets _) fun s => ?_
  cases state with
  | some state =>
    exact leaves_bind leaves_admissionReady fun ready =>
      leaves_ite (leaves_done _) (leaves_ite (leaves_done _) (leaves_done _))
  | none =>
    dsimp only
    split
    · exact leaves_done _
    · refine leaves_ite (leaves_done _) ?_
      split
      · exact leaves_done _
      · exact leaves_raise _

theorem leaves_transitionSandboxStatus (site : Site) (generation : SandboxGeneration)
    (source target : SandboxStatus) :
    Leaves provider id call (transitionSandboxStatus site generation source target) := by
  refine leaves_bind (leaves_mayThrow _ _) fun _ => leaves_bind (leaves_gets _) fun changed => ?_
  dsimp only
  exact leaves_ite
    (leaves_bind (leaves_modify (fun _ => rfl) (fun _ => rfl) (fun _ => rfl) (fun _ => rfl))
      fun _ => leaves_done _)
    (leaves_done _)

theorem leaves_commitCheckpoint (generation : SandboxGeneration) (operation : Nat)
    (row : SandboxRow) (result : Captured) :
    Leaves provider id call (commitCheckpoint provider generation operation row result) := by
  refine leaves_bind (leaves_gets _) fun s => ?_
  dsimp only
  split
  · exact leaves_done _
  · exact leaves_ite
      (leaves_ite (leaves_bind (leaves_write _ _) fun _ => leaves_done _) (leaves_raise _))
      (leaves_done _)

theorem leaves_recordCheckpointEnd (operation : Nat) (uncertain : Bool) :
    Leaves provider id call (recordCheckpointEnd provider operation uncertain) := by
  refine leaves_bind (leaves_gets _) fun state => leaves_bind (leaves_gets _) fun generation =>
    leaves_bind (leaves_modify (fun _ => rfl) (fun _ => rfl) (fun _ => rfl) (fun _ => rfl))
      fun _ => ?_
  dsimp only
  split
  · exact leaves_done _
  · refine leaves_bind (leaves_gets _) fun _ => leaves_ite (leaves_ite ?_ ?_) (leaves_done _)
    · split
      · exact leaves_bind (leaves_gets _) fun _ =>
          leaves_bind (leaves_write _ _) fun _ => leaves_await _
      · exact leaves_bind (leaves_fail _ _ _ _) fun _ => leaves_done _
    · exact leaves_publish _ _

theorem leaves_saveCheckpoint (generation : SandboxGeneration) (op : CaptureOperation)
    (row : SandboxRow) (object : String) :
    Leaves provider id call (saveCheckpoint provider generation op row object) := by
  have hsave : Leaves provider id call
      ((do
        let result ← captureSnapshot provider object (some op.deadlineAtMs)
        let saved ← commitCheckpoint provider generation op.id row result
        if saved.isSome then
          mayThrow .checkpointSaved .announce
          return some result
        else return none : Shutdown (Option Captured))) :=
    leaves_bind (leaves_captureSnapshot _ _) fun result =>
      leaves_bind (leaves_commitCheckpoint _ _ _ _) fun saved => leaves_ite
        (leaves_bind (leaves_mayThrow _ _) fun _ => leaves_done _) (leaves_done _)
  unfold saveCheckpoint
  dsimp only
  exact leaves_ite (leaves_bind (leaves_await _) fun _ => hsave) hsave

theorem leaves_restoreStatus (generation : SandboxGeneration) (op : CaptureOperation)
    (row : SandboxRow) (statusChanged : Bool) (result : Captured) :
    Leaves provider id call (restoreStatus generation op row statusChanged result) :=
  leaves_ite
    (leaves_bind (leaves_updateSandboxStatus _ _) fun _ => leaves_mayThrow _ _)
    (leaves_ite
      (leaves_bind (leaves_transitionSandboxStatus _ _ _ _) fun _ => leaves_done _)
      (leaves_done _))

/-! ## The functions of the owners -/

theorem update_eq_of_eq {stage stage' : Stage} (h : stages name = stage) :
    Function.update (Function.update stages name stage') name stage = stages := by
  rw [Function.update_idem, ← h, Function.update_eq_self]

theorem wp_executing {body : Shutdown α} (hout : stages name = .out)
    (h : Reached id stages s₀ s)
    (hbody : ∀ s₀ s, Reached id (Function.update stages name (.inside none)) s₀ s →
      body.Wp (ownerContract id) (shutdownAnswers provider id call)
        (fun s₀ s _ => Reached id (Function.update stages name (.inside none)) s₀ s) s₀ s) :
    (executing name id body).Wp (ownerContract id) (shutdownAnswers provider id call)
      (fun s₀ s _ => Reached id stages s₀ s) s₀ s := by
  refine Program.wp_bind (Program.wp_ensure ((hbody _ _ (h.into hout)).mono ?_))
  intro s₀ s r hs
  have hleft := hs.outOf (Function.update_self name (.inside none) stages)
  rw [update_eq_of_eq hout] at hleft
  exact hleft

/-- An owner that is claimed right before a `try` and released in its `finally`. -/
theorem wp_claimed {body : Shutdown α} (hinside : stages name = .inside none)
    (h : Reached id stages s₀ s) (hbody : Leaves provider id call body) :
    ((do
      Program.modify (·.claim name id operation)
      Program.ensure body (Program.modify (·.release name)) : Shutdown α)).Wp (ownerContract id)
      (shutdownAnswers provider id call) (fun s₀ s _ => Reached id stages s₀ s) s₀ s := by
  refine Program.wp_bind (Program.wp_ensure ((hbody _ _ _ (h.claim hinside)).mono ?_))
  intro s₀ s r hs
  have hreleased := hs.release (Function.update_self name (.inside operation) stages)
  rw [update_eq_of_eq hinside] at hreleased
  exact hreleased

theorem wp_retire (state : ShutdownRecord) (hout : stages .retiringOperation = .out)
    (h : Reached id stages s₀ s) :
    (retire provider id state).Wp (ownerContract id) (shutdownAnswers provider id call)
      (fun s₀ s _ => Reached id stages s₀ s) s₀ s := by
  refine wp_executing hout h ?_
  intro s₀ s hs
  refine Program.wp_bind ?_
  change Program.Wp _ _ _ (ite _ _ _) _ _
  split
  · exact hs
  split
  · refine Program.wp_bind ?_
    change Program.Wp _ _ _ (ite _ _ _) _ _
    split
    · exact leaves_bind (leaves_fail _ _ _ _) (fun _ => leaves_done _) _ _ _ hs
    · refine wp_claimed (Function.update_self _ _ _) hs ?_
      exact leaves_handle (leaves_retireSource _ _ _) fun _ =>
        leaves_bind (leaves_gets _) fun _ => leaves_ite
          (leaves_bind (leaves_fail _ _ _ _) fun _ => leaves_done _) (leaves_done _)
  · exact hs

theorem wp_discard (state : ShutdownRecord) (hout : stages .discardingOperation = .out)
    (h : Reached id stages s₀ s) :
    (discard provider id state).Wp (ownerContract id) (shutdownAnswers provider id call)
      (fun s₀ s _ => Reached id stages s₀ s) s₀ s := by
  refine wp_executing hout h ?_
  intro s₀ s hs
  refine Program.wp_bind ((leaves_randomUUID _ _ _ hs).mono ?_)
  intro s₀ s r hs
  cases r with
  | error => exact hs
  | ok operation => exact wp_claimed (Function.update_self _ _ _) hs (leaves_discardSource _)

/-- The save of a capture. -/
theorem wp_captureSource (state capturing : ShutdownRecord) (object : String)
    (hout : stages .retiringOperation = .out) (h : Reached id stages s₀ s) :
    (captureSource provider id state capturing object).Wp (ownerContract id)
      (shutdownAnswers provider id call) (fun s₀ s _ => Reached id stages s₀ s) s₀ s := by
  -- what follows the provider
  have hcommit : ∀ (kind : ReceiptKind) (captured : Captured) s₀ s, Reached id stages s₀ s →
      ((do
        let owned ← Program.gets (·.owns capturing)
        if owned then
          let retiring ← commitCaptureReceipt provider capturing kind captured
          if captured.sourceStopped then finish retiring else retire provider id retiring
          return none
        else return none : Shutdown (Option ShutdownRecord))).Wp (ownerContract id)
        (shutdownAnswers provider id call) (fun s₀ s _ => Reached id stages s₀ s) s₀ s := by
    intro kind captured s₀ s hs
    refine Program.wp_bind ?_
    change Program.Wp _ _ _ (ite _ _ _) _ _
    split
    · refine Program.wp_bind ((leaves_commitCaptureReceipt _ _ _ _ _ _ hs).mono ?_)
      intro s₀ s r hs
      cases r with
      | error => exact hs
      | ok retiring =>
        dsimp only
        split
        · exact leaves_bind (leaves_finish _) (fun _ => leaves_done _) _ _ _ hs
        · refine Program.wp_bind ((wp_retire _ hout hs).mono ?_)
          intro s₀ s r hs
          cases r with
          | error => exact hs
          | ok => exact hs
    · exact hs
  refine Program.wp_bind ((leaves_mayThrow _ _ _ _ _ h).mono ?_)
  intro s₀ s r hs
  cases r with
  | error => exact hs
  | ok =>
    refine Program.wp_bind ?_
    change Program.Wp _ _ _ (ite _ _ _) _ _
    split
    · dsimp only
      split
      · split
        · refine Program.wp_bind ((leaves_await _ _ _ _ hs).mono ?_)
          intro s₀ s r hs
          cases r with
          | error => exact hs
          | ok stopped =>
            dsimp only
            split
            · exact hcommit .retained ⟨object, true, none⟩ _ _ hs
            · exact hs
        · exact hs
      · refine Program.wp_bind ((leaves_captureSnapshot _ _ _ _ _ hs).mono ?_)
        intro s₀ s r hs
        cases r with
        | error => exact hs
        | ok captured => exact hcommit .snapshot captured _ _ hs
    · exact hs

variable {perf : (o : ShutdownOp) → State → Except ShutdownError o.Answer → State → Prop}

theorem wp_mayThrow {site : Site} {op : SyncOp} {c : Contract State}
    {post : State → State → Except ShutdownError Unit → Prop} (hquiet : ⟨site, op⟩ ∉ s.faults)
    (h : post s₀ s (.ok ())) : (mayThrow site op).Wp c perf post s₀ s := by
  have hnot : s.faults.contains ⟨site, op⟩ ≠ true :=
    fun hmem => hquiet (List.contains_iff_mem.mp hmem)
  change ((if s.faults.contains ⟨site, op⟩ then Program.raise .failed else pure () :
    Shutdown Unit)).Wp _ _ _ _ _
  rw [if_neg hnot]
  exact h

variable {state : ShutdownRecord}

theorem wp_publish {site : Site} {c : Contract State}
    {post : State → State → Except ShutdownError Unit → Prop} (hquiet : ∀ op, ⟨site, op⟩ ∉ s.faults)
    (hcomplete : state.complete = true)
    (h : post s₀ { s with record := some ⟨state, hcomplete⟩ } (.ok ())) :
    (publish site state).Wp c perf post s₀ s := by
  refine Program.wp_bind (Program.wp_bind (wp_mayThrow (hquiet .write) ?_))
  dsimp only
  rw [dif_pos hcomplete]
  exact wp_mayThrow (hquiet .announce) h

/-- Nothing throws where a capture is claimed and its record published. -/
theorem wp_publishCapture (hcomplete : state.complete = true) (h : Reached id stages s₀ s) :
    (publish .capture state).Wp (ownerContract id) (shutdownAnswers provider id call)
      (fun s₀ s r => r = .ok () ∧ Reached id stages s₀ s) s₀ s := by
  have hquiet : ∀ op, (⟨.capture, op⟩ : Point) ∉ s.faults :=
    fun op hmem => (h.inv.guarded _ hmem).1 rfl
  exact wp_publish hquiet hcomplete ⟨rfl, h.frame rfl rfl rfl rfl⟩

/-- The `finally` of a capture, and what follows it. -/
theorem wp_captureFinally (result : Except ShutdownError (Option ShutdownRecord))
    (h : Reached id (Function.update stages .activeOperation (.inside operation)) s₀ s) :
    ((do
      Program.modify (·.release .activeOperation)
      match result with
      | .ok (some failed) => scheduleCaptureRetry provider failed
      | .ok none => return ()
      | .error error => Program.raise error : Shutdown Unit)).Wp (ownerContract id)
      (shutdownAnswers provider id call)
      (fun s₀ s _ => Reached id (Function.update stages .activeOperation (.inside none)) s₀ s)
      s₀ s := by
  have hreleased := h.release (Function.update_self _ _ _)
  rw [Function.update_idem] at hreleased
  refine Program.wp_bind ?_
  cases result with
  | error error => exact hreleased
  | ok failed =>
    cases failed with
    | none => exact hreleased
    | some failed => exact leaves_scheduleCaptureRetry _ _ _ _ hreleased

theorem wp_capture
    (hcomplete : ({ state with phase := .capturing } : ShutdownRecord).complete = true)
    (hactive : stages .activeOperation = .out) (hretiring : stages .retiringOperation = .out)
    (h : Reached id stages s₀ s) :
    (capture provider id state).Wp (ownerContract id) (shutdownAnswers provider id call)
      (fun s₀ s _ => Reached id stages s₀ s) s₀ s := by
  refine wp_executing hactive h ?_
  intro s₀ s hs
  refine Program.wp_bind ?_
  dsimp only [Program.gets, Program.Wp]
  split
  · exact leaves_bind (leaves_fail _ _ _ _) (fun _ => leaves_scheduleCaptureRetry _) _ _ _ hs
  next object _ =>
    have hclaimed : Reached id (Function.update
        (Function.update stages .activeOperation (.inside none)) .activeOperation
        (.inside state.operationId)) s₀ (s.claim .activeOperation id state.operationId) :=
      hs.claim (Function.update_self _ _ _)
    rw [Function.update_idem] at hclaimed
    have hout : Function.update stages .activeOperation (.inside state.operationId)
        .retiringOperation = .out := by
      rw [Function.update_of_ne (by decide)]
      exact hretiring
    refine Program.wp_bind (Program.wp_bind ((wp_publishCapture hcomplete hclaimed).mono ?_))
    intro s₀ s r hs
    obtain ⟨rfl, hs⟩ := hs
    refine Program.wp_bind ((wp_scheduleCapture _ hs).mono ?_)
    intro s₀ s r hs
    obtain ⟨rfl, hs⟩ := hs
    -- from here on the `finally` is reached
    refine Program.wp_bind (Program.wp_attempt (Program.wp_handle
      ((wp_captureSource state _ object hout hs).mono ?_)))
    intro s₀ s r hs
    cases r with
    | ok failed => exact wp_captureFinally (.ok failed) hs
    | error error =>
      refine (leaves_captureFailed _ error _ _ _ hs).mono ?_
      intro s₀ s r hs
      cases r with
      | ok failed => exact wp_captureFinally (.ok failed) hs
      | error error => exact wp_captureFinally (.error error) hs

/-! ### Checkpoints -/

theorem Reached.stage (h : Reached id stages s₀ s) {stage : Stage} (hstage : stages name = stage) :
    stage.Holds id (s.owners name) := hstage ▸ h.stages name

/-- A stage that holds as well. -/
theorem Reached.restage (h : Reached id stages s₀ s) {stage : Stage}
    (hstage : stage.Holds id (s.owners name)) :
    Reached id (Function.update stages name stage) s₀ s where
  inv := h.inv
  guar := h.guar
  fresh := h.fresh
  open' := h.open'
  stages := by
    intro other
    by_cases hsame : other = name
    · rw [hsame, Function.update_self]
      exact hstage
    · rw [Function.update_of_ne hsame]
      exact h.stages other

theorem wp_endCheckpoint (operation : Nat) (uncertain : Bool)
    (h : Reached id (Function.update stages .checkpointOperationId (.inside (some operation)))
      s₀ s) :
    (endCheckpoint provider operation uncertain).Wp (ownerContract id)
      (shutdownAnswers provider id call) (fun s₀ s _ => Reached id (Function.update stages
        .checkpointOperationId (.inside none)) s₀ s) s₀ s := by
  have hstage := h.stage (Function.update_self .checkpointOperationId
    (Stage.inside (some operation)) stages)
  refine Program.wp_bind ?_
  change Program.Wp _ _ _ (ite _ _ _) _ _
  split
  next hother =>
    -- the field was set by another call, or is empty already
    have hempty : (Stage.inside none).Holds id (s.owners .checkpointOperationId) :=
      ⟨hstage.1, fun hholder => .inl ((hstage.2 hholder).resolve_right hother)⟩
    have hreleased := h.restage hempty
    rw [Function.update_idem] at hreleased
    exact hreleased
  next =>
    have hreleased := h.release (Function.update_self _ _ _)
    rw [Function.update_idem] at hreleased
    exact Program.wp_bind (leaves_recordCheckpointEnd _ _ _ _ _ hreleased)

/-- What the `catch` of a checkpoint may find. -/
theorem Reached.reclaim (h : Reached id (Function.update stages name (.inside none)) s₀ s)
    (operation : Option Nat) :
    Reached id (Function.update stages name (.inside operation)) s₀ s := by
  have hstage := h.stage (Function.update_self name (Stage.inside none) stages)
  have hempty : (Stage.inside operation).Holds id (s.owners name) :=
    ⟨hstage.1, fun hholder => .inl (or_self_iff.mp (hstage.2 hholder))⟩
  have hrestaged := h.restage hempty
  rwa [Function.update_idem] at hrestaged

theorem wp_takeCheckpoint (generation : SandboxGeneration) (op : CaptureOperation)
    (row : SandboxRow) (object : String) (statusChanged : Bool)
    (h : Reached id (Function.update stages .checkpointOperationId (.inside (some op.id))) s₀ s) :
    (takeCheckpoint provider generation op row object statusChanged).Wp (ownerContract id)
      (shutdownAnswers provider id call) (fun s₀ s r => Reached id (Function.update stages
        .checkpointOperationId
        (.inside (match r with | .ok _ => none | .error _ => some op.id))) s₀ s) s₀ s := by
  have hend : ∀ (uncertain : Bool) (outcome : SandboxCheckpointOutcome) s₀ s,
      Reached id (Function.update stages .checkpointOperationId (.inside (some op.id))) s₀ s →
      ((do
        endCheckpoint provider op.id uncertain
        return outcome : Shutdown SandboxCheckpointOutcome)).Wp (ownerContract id)
        (shutdownAnswers provider id call) (fun s₀ s r => Reached id (Function.update stages
          .checkpointOperationId
          (.inside (match r with | .ok _ => none | .error _ => some op.id))) s₀ s) s₀ s := by
    intro uncertain outcome s₀ s hs
    refine Program.wp_bind ((wp_endCheckpoint op.id uncertain hs).mono ?_)
    intro s₀ s r hs
    cases r with
    | error => exact hs.reclaim _
    | ok => exact hs
  refine Program.wp_bind ((leaves_saveCheckpoint _ _ _ _ _ _ _ h).mono ?_)
  intro s₀ s r hs
  cases r with
  | error => exact hs
  | ok saved =>
    cases saved with
    | none => exact hend true .unknown s₀ s hs
    | some result =>
      refine Program.wp_bind ((leaves_restoreStatus _ _ _ _ _ _ _ _ hs).mono ?_)
      intro s₀ s r hs
      cases r with
      | error => exact hs
      | ok => exact hend false _ s₀ s hs

/-- Nothing throws where a checkpoint is claimed. -/
theorem wp_claimCheckpoint (generation : SandboxGeneration) (source target : SandboxStatus)
    (h : Reached id stages s₀ s) :
    (transitionSandboxStatus .checkpointClaimed generation source target).Wp (ownerContract id)
      (shutdownAnswers provider id call)
      (fun s₀ s r => (∃ changed, r = .ok changed) ∧ Reached id stages s₀ s) s₀ s := by
  have hquiet : (⟨.checkpointClaimed, .row⟩ : Point) ∉ s.faults :=
    fun hmem => (h.inv.guarded _ hmem).2 rfl
  refine Program.wp_bind (wp_mayThrow hquiet ?_)
  refine Program.wp_bind ?_
  change Program.Wp _ _ _ (ite _ _ _) _ _
  split
  · exact ⟨⟨_, rfl⟩, h.frame rfl rfl rfl rfl⟩
  · exact ⟨⟨_, rfl⟩, h⟩

theorem wp_tryCheckpoint (generation : SandboxGeneration) (op : CaptureOperation)
    (row : SandboxRow) (object : String) (statusChanged : Bool)
    (h : Reached id (Function.update stages .checkpointOperationId (.inside (some op.id))) s₀ s) :
    (tryCheckpoint provider generation op row object statusChanged).Wp (ownerContract id)
      (shutdownAnswers provider id call) (fun s₀ s _ => Reached id (Function.update stages
        .checkpointOperationId (.inside none)) s₀ s) s₀ s := by
  refine Program.wp_handle ((wp_takeCheckpoint _ _ _ _ statusChanged h).mono ?_)
  intro s₀ s r hs
  cases r with
  | ok => exact hs
  | error =>
    refine Program.wp_bind ((wp_endCheckpoint op.id true hs).mono ?_)
    intro s₀ s r hs
    cases r with
    | error => exact hs
    | ok => exact hs

theorem wp_runCheckpoint (generation : SandboxGeneration) (op : CaptureOperation)
    (h : Reached id (Function.update stages .checkpointOperationId (.inside (some op.id))) s₀ s) :
    (runCheckpoint provider generation op).Wp (ownerContract id)
      (shutdownAnswers provider id call) (fun s₀ s _ => Reached id (Function.update stages
        .checkpointOperationId (.inside none)) s₀ s) s₀ s := by
  have hquiet : (⟨.checkpointClaimed, .read⟩ : Point) ∉ s.faults :=
    fun hmem => (h.inv.guarded _ hmem).2 rfl
  refine Program.wp_bind (wp_mayThrow hquiet (Program.wp_bind ?_))
  dsimp only [Program.gets, Program.Wp]
  split
  · refine Program.wp_bind ((wp_endCheckpoint op.id false h).mono ?_)
    intro s₀ s r hs
    cases r with
    | error => exact hs
    | ok => exact hs
  next row object _ =>
    split
    · exact wp_tryCheckpoint _ _ _ _ _ h
    · refine Program.wp_bind ((wp_claimCheckpoint _ _ _ h).mono ?_)
      intro s₀ s r hs
      obtain ⟨⟨changed, rfl⟩, hs⟩ := hs
      exact wp_tryCheckpoint _ _ _ _ _ hs

theorem wp_captureCheckpoint (generation : SandboxGeneration) (reason : String)
    (after : SandboxCheckpointFollowUp) (hout : stages .checkpointOperationId = .out)
    (h : Reached id stages s₀ s) :
    (captureCheckpoint provider id generation reason after).Wp (ownerContract id)
      (shutdownAnswers provider id call) (fun s₀ s _ => Reached id stages s₀ s) s₀ s := by
  refine wp_executing hout h ?_
  intro s₀ s hs
  refine Program.wp_bind ?_
  change Program.Wp _ _ _ (ite _ _ _) _ _
  split
  · exact hs
  refine Program.wp_bind (Program.wp_bind ((leaves_checkpointRecord _ _ _ _ hs).mono ?_))
  intro s₀ s r hs
  cases r with
  | error => exact hs
  | ok state =>
    cases state with
    | none => exact hs
    | some state =>
      refine Program.wp_bind ((leaves_randomUUID _ _ _ hs).mono ?_)
      intro s₀ s r hs
      cases r with
      | error => exact hs
      | ok operation =>
        refine Program.wp_bind ((leaves_write _ _ _ _ _ hs).mono ?_)
        intro s₀ s r hs
        cases r with
        | error => exact hs
        | ok =>
          have hclaimed : Reached id (Function.update
              (Function.update stages .checkpointOperationId (.inside none))
              .checkpointOperationId (.inside (some operation))) s₀
              (s.claim .checkpointOperationId id (some operation)) :=
            hs.claim (Function.update_self _ _ _)
          rw [Function.update_idem] at hclaimed
          exact Program.wp_bind (wp_runCheckpoint _ _ (hclaimed.frame rfl rfl rfl rfl))

/-! ## Calls -/

theorem wp_retryCapture (hcomplete : state.complete = true)
    (hactive : stages .activeOperation = .out) (hretiring : stages .retiringOperation = .out)
    (h : Reached id stages s₀ s) :
    (retryCapture provider id state).Wp (ownerContract id) (shutdownAnswers provider id call)
      (fun s₀ s _ => Reached id stages s₀ s) s₀ s := by
  refine Program.wp_bind (Program.wp_bind ?_)
  dsimp only [Program.gets, Program.Wp]
  split
  next hretries =>
    have hretry := (Bool.and_eq_true_iff.mp hretries).2
    refine Program.wp_bind ((leaves_randomUUID _ _ _ h).mono ?_)
    intro s₀ s r hs
    cases r with
    | error => exact hs
    | ok operation =>
      refine Program.wp_bind ((leaves_fenceRuntime _ _ _ hs).mono ?_)
      intro s₀ s r hs
      cases r with
      | error => exact hs
      | ok =>
        exact wp_capture (ShutdownRecord.complete_retried hcomplete hretry _ _) hactive hretiring hs
  next => exact h

theorem wp_captureUnconfirmed (hcomplete : state.complete = true) (hphase : state.phase = .draining)
    (hactive : stages .activeOperation = .out) (hretiring : stages .retiringOperation = .out)
    (h : Reached id stages s₀ s) :
    (captureUnconfirmed provider id state).Wp (ownerContract id)
      (shutdownAnswers provider id call) (fun s₀ s _ => Reached id stages s₀ s) s₀ s := by
  refine Program.wp_bind ?_
  change Program.Wp _ _ _ (ite _ _ _) _ _
  split
  · split
    · exact leaves_ite (leaves_done _) (leaves_bind (leaves_gets _) fun _ => leaves_ite
        (leaves_bind (leaves_fail _ _ _ _) fun _ => leaves_done _) (leaves_done _)) _ _ _ h
    · refine Program.wp_bind ((leaves_fenceRuntime _ _ _ h).mono ?_)
      intro s₀ s r hs
      cases r with
      | error => exact hs
      | ok =>
        refine wp_capture ?_ hactive hretiring hs
        exact ShutdownRecord.complete_capturing hcomplete (.inl hphase)
  · exact h

theorem wp_awaitStop (hcomplete : state.complete = true) (hphase : state.phase = .draining)
    (hactive : stages .activeOperation = .out) (hretiring : stages .retiringOperation = .out)
    (h : Reached id stages s₀ s) :
    (awaitStop provider id state).Wp (ownerContract id) (shutdownAnswers provider id call)
      (fun s₀ s _ => Reached id stages s₀ s) s₀ s := by
  refine Program.wp_bind ?_
  change Program.Wp _ _ _ (ite _ _ _) _ _
  split
  · exact wp_captureUnconfirmed hcomplete hphase hactive hretiring h
  · exact leaves_bind (leaves_await _) (fun _ => leaves_ite
      (leaves_bind (leaves_gets _) fun _ => leaves_ite
        (leaves_bind (leaves_fail _ _ _ _) fun _ => leaves_done _) (leaves_done _))
      (leaves_done _)) _ _ _ h

theorem handedOver_phase (state : ShutdownRecord) (now : Int) :
    (state.handedOver now).phase = state.phase := by
  unfold ShutdownRecord.handedOver
  dsimp only
  split <;> rfl

theorem handedOver_complete (h : state.complete = true) (now : Int) :
    (state.handedOver now).complete = true := by
  obtain ⟨hrest, hphase⟩ := Bool.and_eq_true_iff.mp h
  obtain ⟨hrest, hlifetime⟩ := Bool.and_eq_true_iff.mp hrest
  obtain ⟨hrest, _⟩ := Bool.and_eq_true_iff.mp hrest
  have hkept := Bool.and_eq_true_iff.mpr ⟨Bool.and_eq_true_iff.mpr ⟨hrest, rfl⟩, hlifetime⟩
  unfold ShutdownRecord.handedOver
  dsimp only
  split
  · refine Bool.and_eq_true_iff.mpr ⟨hkept, ?_⟩
    have hnot := (Bool.not_eq_true' _).mp hphase
    exact (Bool.not_eq_true' _).mpr (ShutdownRecord.phaseIncomplete_window hnot _)
  · exact Bool.and_eq_true_iff.mpr ⟨hkept, hphase⟩

theorem wp_advanceDraining (hcomplete : state.complete = true) (hphase : state.phase = .draining)
    (hactive : stages .activeOperation = .out) (hretiring : stages .retiringOperation = .out)
    (h : Reached id stages s₀ s) :
    (advanceDraining provider id state).Wp (ownerContract id)
      (shutdownAnswers provider id call) (fun s₀ s _ => Reached id stages s₀ s) s₀ s := by
  unfold advanceDraining
  split
  · exact wp_awaitStop hcomplete hphase hactive hretiring h
  · refine Program.wp_bind ?_
    dsimp only [Program.gets, Program.Wp]
    split
    · exact h
    · exact leaves_await _ _ _ _ h
    · refine Program.wp_bind ((leaves_write _ _ _ _ _ h).mono ?_)
      intro s₀ s r hs
      cases r with
      | error => exact hs
      | ok =>
        refine wp_awaitStop (handedOver_complete hcomplete _) ?_ hactive hretiring hs
        exact (handedOver_phase _ _).trans hphase

theorem wp_advance (hactive : stages .activeOperation = .out)
    (hretiring : stages .retiringOperation = .out) (h : Reached id stages s₀ s) :
    (advance provider id).Wp (ownerContract id) (shutdownAnswers provider id call)
      (fun s₀ s _ => Reached id stages s₀ s) s₀ s := by
  refine Program.wp_bind (Program.wp_bind ?_)
  dsimp only [read, Program.gets, Program.Wp]
  split
  · exact h
  next state hstate =>
    obtain ⟨hread, _⟩ := Option.filter_eq_some_iff.mp hstate
    obtain ⟨stored, _, rfl⟩ := Option.map_eq_some_iff.mp hread
    refine Program.wp_bind ((leaves_providerMatches _ _ _ _ h).mono ?_)
    intro s₀ s r hs
    cases r with
    | error => exact hs
    | ok matching =>
      dsimp only
      split
      · split
        next hphase => exact wp_advanceDraining stored.property hphase hactive hretiring hs
        next =>
          exact leaves_ite (leaves_bind (leaves_fail _ _ _ _) fun _ =>
            leaves_scheduleCaptureRetry _) (leaves_done _) _ _ _ hs
        next hphase =>
          refine wp_capture ?_ hactive hretiring hs
          exact ShutdownRecord.complete_capturing stored.property (.inr (.inl hphase))
        next => exact wp_retire _ hretiring hs
        next => exact hs
      · exact hs

/-- Where a call stands when it is made, and when it returns. -/
def outside : OwnerName → Stage := fun _ => .out

theorem made_reached (h : Inv s) (hfresh : s.calls ≤ id) (now : Int) {faults : List Point}
    (hfaults : Guarded faults) :
    Reached id outside s { s.turn now faults with calls := id + 1 } where
  inv := {
    guarded := hfaults
    owned := h.owned
    holders := fun name i hi =>
      Nat.lt_succ_of_lt (Nat.lt_of_lt_of_le (h.holders name i hi) hfresh)
    running := fun name i hi =>
      Nat.lt_succ_of_lt (Nat.lt_of_lt_of_le (h.running name i hi) hfresh)
    ended := fun i hi =>
      ⟨Nat.lt_succ_of_lt (Nat.lt_of_lt_of_le (h.ended i hi).1 hfresh), (h.ended i hi).2⟩ }
  guar := fun _ _ => ⟨Nat.le_succ_of_le hfresh, fun hnot => hnot, fun _ => OwnerLater.refl _ _⟩
  fresh := Nat.lt_succ_self id
  open' := fun hmem => absurd (h.ended id hmem).1 (Nat.not_lt.mpr hfresh)
  stages := by
    intro name
    refine ⟨fun hmem => absurd (h.running name id hmem) (Nat.not_lt.mpr hfresh), ?_⟩
    exact fun hholder => absurd (h.holders name id hholder) (Nat.not_lt.mpr hfresh)

theorem left_ends {r : Except ShutdownError Unit} (h : Reached id outside s₀ s) :
    (ownerContract id).Ends s₀ ((shutdownServer provider).leave id call r s) where
  inv := {
    guarded := h.inv.guarded
    owned := h.inv.owned
    holders := h.inv.holders
    running := h.inv.running
    ended := by
      intro i hi
      rcases List.mem_append.mp hi with hold | hnew
      · exact h.inv.ended i hold
      · rw [List.mem_singleton.mp hnew]
        exact ⟨h.fresh, fun name => (h.stages name).1⟩ }
  guar := by
    intro other hne
    have hrely := h.guar other hne
    refine ⟨hrely.calls, ?_, hrely.owners⟩
    intro hnot hmem
    rcases List.mem_append.mp hmem with hold | hnew
    · exact hrely.ended hnot hold
    · exact hne (List.mem_singleton.mp hnew)

theorem shutdown_sound :
    (shutdownServer provider).Sound guarded ownerContract Inv where
  inv_eq := fun _ => rfl
  refl := Rely.refl
  trans := fun _ _ _ _ => Rely.trans
  compatible := fun _ j _ _ hne hguar => hguar j (Ne.symm hne)
  stable := fun _ _ _ _ _ => trivial
  enters := by
    intro id call s t hinv hok henter
    obtain ⟨⟨hfresh, hmade⟩, henter⟩ := Option.ite_none_right_eq_some.mp henter
    have hentered := made_reached hinv hfresh call.now hok
    cases henter
    have hleft : ∀ s₀ u r, Reached id outside s₀ u →
        (shutdownServer provider).Left ownerContract id call s₀ u r :=
      fun _ _ _ hs => left_ends hs
    obtain ⟨request, now, faults⟩ := call
    cases request with
    | advance => exact (wp_advance rfl rfl hentered).mono hleft
    | retryCapture state => exact (wp_retryCapture state.property rfl rfl hentered).mono hleft
    | captureUnconfirmed state =>
      have hphase := of_decide_eq_true hmade
      exact (wp_captureUnconfirmed state.property hphase rfl rfl hentered).mono hleft
    | capture state =>
      have hphase := of_decide_eq_true hmade
      exact (wp_capture (ShutdownRecord.complete_capturing state.property (.inr (.inr hphase)))
        rfl rfl hentered).mono hleft
    | retire state => exact (wp_retire _ rfl hentered).mono hleft
    | discard state => exact (wp_discard _ rfl hentered).mono hleft
    | captureCheckpoint generation reason after =>
      refine Program.wp_bind ((wp_captureCheckpoint generation reason after rfl hentered).mono ?_)
      intro s₀ s r hs
      cases r with
      | error => exact left_ends hs
      | ok => exact left_ends hs
    | write record row session activeRestoreGeneration =>
      exact left_ends (hentered.frame rfl rfl rfl rfl)

/-! ## What `advance` does with a record that is being captured -/

def Failed (s : State) : Prop := ∃ failed, s.record = some failed ∧ failed.val.phase = .unknown

theorem wp_failUnknown {error : String} {captureFailure : Bool} (hcomplete : state.complete = true)
    (hquiet : ∀ op, (⟨.fail, op⟩ : Point) ∉ s.faults) :
    (fail state .unknown error captureFailure).Wp (.turn Failed) perf
      (fun _ s r => (∃ failed, r = .ok failed) ∧ Failed s) s₀ s := by
  have hfailed := ShutdownRecord.complete_unknown hcomplete (some error) captureFailure
  refine Program.wp_bind (wp_publish hquiet hfailed ?_)
  exact ⟨⟨_, rfl⟩, _, rfl, rfl⟩

theorem wp_retryScheduled (h : Failed s) :
    (scheduleCaptureRetry provider state).Wp (.turn Failed) perf (fun _ s _ => Failed s) s₀ s := by
  refine Program.wp_bind ?_
  dsimp only [Program.gets, Program.Wp]
  cases s.owns state && state.canAutomaticallyRetryCapture provider s.row s.now with
  | true => exact Program.wp_perform ⟨h, trivial⟩ trivial (fun _ hrely => hrely.elim)
  | false => exact h

/-- A record of another provider is failed already when it is met. -/
theorem wp_providerMatches (hcomplete : state.complete = true) (hphase : state.phase ≠ .unknown)
    (hquiet : ∀ op, (⟨.fail, op⟩ : Point) ∉ s.faults) :
    (providerMatches provider state).Wp (.turn Failed) perf
      (fun _ t r => (r = .ok true ∧ t = s) ∨ (r = .ok false ∧ Failed t)) s₀ s := by
  unfold providerMatches
  split
  · exact .inl ⟨rfl, rfl⟩
  · refine Program.wp_bind ((wp_failUnknown hcomplete hquiet).mono ?_)
    intro s₀ t r ht
    obtain ⟨⟨failed, rfl⟩, ht⟩ := ht
    exact .inr ⟨rfl, ht⟩

/-- A record that no capture of this instance owns is failed. -/
theorem advance_fails {stored : StoredRecord} (hrecord : s.record = some stored)
    (hphase : stored.val.phase = .capturing) (hcurrent : stored.val.currentIn s.row = true)
    (hactive : (s.owners .activeOperation).operation ≠ stored.val.operationId)
    (hquiet : ∀ op, (⟨.fail, op⟩ : Point) ∉ s.faults) :
    Failed ((advance provider id).turn s).2 := by
  obtain ⟨operation, hoperation⟩ :=
    ShutdownRecord.operationId_of_capturing stored.property hphase
  have hread : (s.record.map (·.val)).filter
      (fun state => state.currentIn s.row && state.operationId.isSome) = some stored.val := by
    rw [hrecord]
    refine Option.filter_eq_some_iff.mpr ⟨rfl, ?_⟩
    rw [hcurrent, hoperation]
    rfl
  have hwp : (advance provider id).Wp (.turn Failed) (fun _ _ _ _ => False)
      (fun _ s _ => Failed s) s s := by
    refine Program.wp_bind (Program.wp_bind ?_)
    dsimp only [read, Program.gets, Program.Wp]
    rw [hread]
    have hknown : stored.val.phase ≠ .unknown := by
      rw [hphase]
      decide
    refine Program.wp_bind ((wp_providerMatches stored.property hknown hquiet).mono ?_)
    intro s₀ t r ht
    rcases ht with ⟨rfl, rfl⟩ | ⟨rfl, ht⟩
    · change Program.Wp _ _ _ (ite _ _ _) _ _
      rw [if_pos rfl, hphase]
      dsimp only
      rw [if_pos hactive]
      refine Program.wp_bind ((wp_failUnknown stored.property hquiet).mono ?_)
      intro s₀ t r ht
      obtain ⟨⟨failed, rfl⟩, ht⟩ := ht
      exact wp_retryScheduled ht
    · exact ht
  exact Program.turn_holds hwp

theorem settle_record {k : Call} (stopped : Programs.Stopped State ShutdownOp ShutdownOp.Answer
    ShutdownError Unit × State) :
    ((shutdownServer provider).settle id k stopped).2.record = stopped.2.record := by
  obtain ⟨stopped, t⟩ := stopped
  cases stopped with
  | ended => rfl
  | waiting => rfl

/-- **The owners are released**, in the runs in which nothing throws between a claim and its `try`:
a field that is set was set by a call that is still in its function. A record that is being
captured is then being captured by such a call, or the next `advance` fails it. -/
theorem owners_released (provider : Provider) (record : Option StoredRecord)
    (row : Option SandboxRow)
    (pool : Pool State Call ShutdownOp ShutdownOp.Answer ShutdownError Unit)
    (h : (shutdownServer provider).system.Reachable guarded.Allows
      (Server.idle (State.initial record row)) pool) :
    (∀ name, (pool.shared.owners name).operation ≠ none →
      ∃ id ∈ (pool.shared.owners name).running, id ∉ pool.shared.ended) ∧
    ∀ stored, pool.shared.record = some stored → stored.val.phase = .capturing →
      stored.val.currentIn pool.shared.row = true →
        ((pool.shared.owners .activeOperation).operation = stored.val.operationId ∧
          ∃ id ∈ (pool.shared.owners .activeOperation).running, id ∉ pool.shared.ended) ∨
        ∀ now faults pool', (∀ op, ⟨.fail, op⟩ ∉ faults) →
          (shutdownServer provider).step pool (.call ⟨.advance, now, faults⟩) = some pool' →
            ∃ failed, pool'.shared.record = some failed ∧ failed.val.phase = .unknown := by
  have hinv : Inv pool.shared := (shutdown_sound.reachable (inv_initial record row) h).inv
  have howned : ∀ name, (pool.shared.owners name).operation ≠ none →
      ∃ id ∈ (pool.shared.owners name).running, id ∉ pool.shared.ended := by
    intro name hop
    obtain ⟨id, hrunning, _⟩ := hinv.owned name hop
    exact ⟨id, hrunning, fun hended => (hinv.ended id hended).2 name hrunning⟩
  refine ⟨howned, ?_⟩
  intro stored hrecord hphase hcurrent
  by_cases hactive : (pool.shared.owners .activeOperation).operation = stored.val.operationId
  · left
    obtain ⟨operation, hoperation⟩ :=
      ShutdownRecord.operationId_of_capturing stored.property hphase
    refine ⟨hactive, howned .activeOperation ?_⟩
    rw [hactive, hoperation]
    exact Option.some_ne_none _
  · right
    intro now faults pool' hquiet hstep
    obtain ⟨s, henter, rfl⟩ := Option.map_eq_some_iff.mp hstep
    obtain ⟨_, henter⟩ := Option.ite_none_right_eq_some.mp henter
    cases henter
    have hfails : Failed ((advance provider pool.next).turn
        { pool.shared.turn now faults with calls := pool.next + 1 }).2 :=
      advance_fails hrecord hphase hcurrent hactive hquiet
    obtain ⟨failed, hfailed, hunknown⟩ := hfails
    exact ⟨failed, (settle_record _).trans hfailed, hunknown⟩

/-- A provider that takes snapshots and stops its sandboxes. -/
def snapshotProvider : Provider where
  name := "modal"
  supportsSnapshots := true
  supportsPersistentResume := false
  supportsExplicitStop := true
  snapshotRequiresShutdown := false
  takeSnapshot := true
  stopSandbox := true

def preparedRow : SandboxRow where
  modal_sandbox_id := some "sandbox-1"
  modal_object_id := some "object-1"
  created_at := 1
  status := .ready
  runtime_version := none

/-- A shutdown whose runtime has confirmed that it has stopped. -/
def preparedRecord : StoredRecord where
  val :=
    { phase := .prepared
      generation := { sandboxId := "sandbox-1", createdAt := 1 }
      provider := some "modal"
      providerObjectId := some "object-1"
      lifetimeKind := .none
      expiresAtMs := none
      drainAtMs := none
      generationReady := true
      lifecyclePolicy := some .confirmed
      operationId := some 7
      stopByMs := some 60000
      captureByMs := some 360000
      retireByMs := some 390000 }
  property := by decide

instance (faults : List Point) : Decidable (Guarded faults) :=
  inferInstanceAs (Decidable (∀ p ∈ faults, p.site ≠ .capture ∧ p.site ≠ .checkpointClaimed))

instance (o : ShutdownOp) (ending : Ending) : Decidable (AlarmSet o ending) := by
  unfold AlarmSet
  split <;> infer_instance

instance (pool : Pool State Call ShutdownOp ShutdownOp.Answer ShutdownError Unit)
    (act : Act Call Choice) : Decidable (guarded.Allows pool act) := by
  unfold Condition.Allows guarded
  split <;> infer_instance

/-- The prepared sandbox is being captured. -/
theorem owners_released_capturing : ∃ s : State,
    (s.owners .activeOperation).operation = some 7 ∧
      ∃ id ∈ (s.owners .activeOperation).running, id ∉ s.ended := by
  have hrun : ((shutdownServer snapshotProvider).system.run guarded.Allows
      (Server.idle (State.initial (some preparedRecord) (some preparedRow)))
      [.call ⟨.advance, 1000, []⟩]).any
      (fun pool => (pool.shared.owners .activeOperation).operation = some 7) = true := by
    decide +kernel
  obtain ⟨pool, hpool, hfacts⟩ := (Option.any_eq_true _ _).mp hrun
  have hactive := of_decide_eq_true hfacts
  have hreached := owners_released snapshotProvider (some preparedRecord) (some preparedRow) pool
    (System.run_reachable hpool)
  refine ⟨pool.shared, hactive, hreached.1 .activeOperation ?_⟩
  rw [hactive]
  exact Option.some_ne_none _

/-- The alarm of a capture cannot be set: no call is left, the field is, and `advance` lets the
record be. -/
theorem capture_wedged :
    ∃ pool, (shutdownServer snapshotProvider).system.Reachable anyStep
      (Server.idle (State.initial (some preparedRecord) (some preparedRow))) pool ∧
      pool.tasks.length = 0 ∧ (pool.shared.owners .activeOperation).running = [] ∧
        (pool.shared.owners .activeOperation).operation = some 7 ∧
        (∃ stored ∈ pool.shared.record, stored.val.phase = .capturing) ∧
        ∃ pool' ∈ (shutdownServer snapshotProvider).step pool (.call ⟨.advance, 2000, []⟩),
          pool'.tasks.length = 0 ∧
            ∃ stored ∈ pool'.shared.record, stored.val.phase = .capturing := by
  have hrun : ((shutdownServer snapshotProvider).system.run anyStep
      (Server.idle (State.initial (some preparedRecord) (some preparedRow)))
      [.call ⟨.advance, 1000, []⟩, .resume 0 ⟨.throws .failed, 1000, []⟩]).any
      (fun pool => pool.tasks.length = 0 ∧ (pool.shared.owners .activeOperation).running = [] ∧
        (pool.shared.owners .activeOperation).operation = some 7 ∧
        (∃ stored ∈ pool.shared.record, stored.val.phase = .capturing) ∧
        ∃ pool' ∈ (shutdownServer snapshotProvider).step pool (.call ⟨.advance, 2000, []⟩),
          pool'.tasks.length = 0 ∧ ∃ stored ∈ pool'.shared.record, stored.val.phase = .capturing) =
      true := by
    decide +kernel
  obtain ⟨pool, hpool, hfacts⟩ := (Option.any_eq_true _ _).mp hrun
  exact ⟨pool, System.run_reachable hpool, of_decide_eq_true hfacts⟩

end BackgroundAgents.Session.SandboxShutdown

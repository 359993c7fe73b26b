import BackgroundAgents.Automation.OneShots

/-!
# Failure accounting

A call of `applyInvocationOutcome` reads the aggregate of its invocation once and
acts on it over several statements. What it may rely on when it acts is kept by
the runs (an invocation that settled stays settled), by the compare-and-set (one
call for each invocation gets past it), or by nothing: that no child goes back to
wait or is corrected between the aggregate and the strike, that nobody resets the
streak between a strike and the read of its count, and that the latest invocation
of a failing automation did not succeed before the strikes that are on it. The
first two are the condition `Undisturbed` on the steps of a run, the third is
`SweepSafe` on the state a sweep begins in.

`CallInv` is what holds of every call, `AccountInv` of all of them with the store.
Where the streak of a failing automation ends up below a strike already taken is
in `sweep_erases_strike`.
-/

namespace BackgroundAgents.Automation

open AutomationDb
open BackgroundAgents.Transition

/-! ## What is accounted for -/

namespace AutomationDb

variable (db : AutomationDb)

/-- The invocation has runs, and none of them is active. -/
def Settled (id : Id) : Prop :=
  db.children id ≠ [] ∧ ∀ r ∈ db.children id, r.status.active = false

instance (id : Id) : Decidable (db.Settled id) :=
  inferInstanceAs (Decidable (db.children id ≠ [] ∧ ∀ r ∈ db.children id, r.status.active = false))

/-- The invocation has a failed child, and no sibling waits to retry. -/
def StrikeDue (id : Id) : Prop :=
  (∃ r ∈ db.children id, r.status = .failed) ∧ ∀ r ∈ db.children id, r.status ≠ .retrying

/-- The automation exists and is not deleted. -/
def Live (id : Id) : Prop :=
  (db.getById id).isSome = true

/-- No failing automation's latest invocation in the window is a success already, or
still open with a failure that nobody counted. -/
def SweepSafe (since : Millis) : Prop :=
  ∀ c ∈ db.getStaleFailureResetCandidates since recoverySweepLimit,
    (db.getInvocationRunAggregate c.2).resets = false ∧
    ¬((db.getInvocationRunAggregate c.2).strikes = true ∧ db.failureUncounted c.2 = true)

end AutomationDb

namespace AccountingState

/-- A call that saw the invocation as it is now is over, and no call on it stands
between its mark and its increment. -/
def Applied (s : AccountingState) (id : Id) : Prop :=
  (∃ c ∈ s.calls, c.invocationId = id ∧ c.pc = .done ∧
    c.aggregate = some (s.base.db.getInvocationRunAggregate id)) ∧
  ∀ c ∈ s.calls, c.invocationId = id → c.pc ≠ .incrementing

instance (s : AccountingState) (id : Id) : Decidable (s.Applied id) :=
  inferInstanceAs (Decidable ((∃ c ∈ s.calls, c.invocationId = id ∧ c.pc = .done ∧
      c.aggregate = some (s.base.db.getInvocationRunAggregate id)) ∧
    ∀ c ∈ s.calls, c.invocationId = id → c.pc ≠ .incrementing))

/-- The outcome of every settled invocation was applied. -/
def AllApplied (s : AccountingState) : Prop :=
  ∀ i ∈ s.base.db.invocations.table.rows, s.base.db.Settled i.id → s.Applied i.id

instance (s : AccountingState) : Decidable s.AllApplied :=
  inferInstanceAs (Decidable (∀ i ∈ s.base.db.invocations.table.rows,
    s.base.db.Settled i.id → s.Applied i.id))

end AccountingState

/-- What a step may make of the streaks. -/
inductive StreakStep (s t : AccountingState) : Prop where
  | noStrike : t.strikes = s.strikes →
    (∀ a' ∈ t.base.db.automations.rows, ∃ a ∈ s.base.db.automations.rows, a.id = a'.id ∧
      a'.consecutiveFailures ≤ a.consecutiveFailures) → StreakStep s t
  | strike (i : AutomationInvocationRow) : i ∈ s.base.db.invocations.table.rows →
    s.base.db.StrikeDue i.id → t.strikes = i.id :: s.strikes →
    (∀ a' ∈ t.base.db.automations.rows, ∃ a ∈ s.base.db.automations.rows, a.id = a'.id ∧
      a'.consecutiveFailures =
        if a.id = i.automationId then a.consecutiveFailures + 1 else a.consecutiveFailures) →
    StreakStep s t

/-- What the accounting guarantees in a state. -/
structure Accounted (s : AccountingState) : Prop where
  onePerInvocation : ∀ id, s.strikes.count id ≤ 1
  streaks : ∀ act t, accounting.step s act = some t → StreakStep s t
  exactlyOne : ∀ i ∈ s.base.db.invocations.table.rows, s.base.db.Settled i.id →
    (∃ r ∈ s.base.db.children i.id, r.status = .failed) → s.Applied i.id →
    s.base.db.Live i.automationId → s.strikes.count i.id = 1
  /-- A strike that reached the threshold paused its automation before its call ended. -/
  autoPaused : ∀ c ∈ s.calls, c.pc = .done → ∀ n, c.streak = some n → autoPauseThreshold ≤ n →
    s.base.db.Live c.automationId → c.paused = true
  sweepHarmless : s.AllApplied → ∀ since now, s.base.db.SweepSafe since →
    finalizationSweep s.base.db since now = s.base.db

/-! ## The condition -/

/-- The statement puts a child back to wait, or takes its failure back. -/
def RunStatement.withdraws (db : AutomationDb) (invocationId : Id) : RunStatement → Bool
  | .failLaunchOrRetry id .. => (db.children invocationId).any (db.retryable id)
  | .completeTimedOutRun id _ => (db.children invocationId).any (timedOut id)
  | _ => false

namespace OutcomeCall

/-- The call saw a strike. -/
def strikes (c : OutcomeCall) : Bool :=
  c.aggregate.any InvocationRunAggregate.strikes

/-- The call may still record the strike it saw. -/
def mayStrike (db : AutomationDb) (c : OutcomeCall) : Bool :=
  c.strikes &&
    match c.pc with
    | .incrementing => true
    | .disabling | .marking => db.failureUncounted c.invocationId
    | _ => false

/-- The call is past the compare-and-set. -/
def struck (c : OutcomeCall) : Bool :=
  c.strikes &&
    match c.pc with
    | .incrementing | .counting | .pausing | .done => true
    | _ => false

/-- The call is past the one-shots of a settled invocation. -/
def finalized (c : OutcomeCall) : Bool :=
  c.aggregate.any (fun g => 0 < g.total && g.active = 0) && c.pc ≠ .disabling

end OutcomeCall

/-- Nobody withdraws the reason of a strike before it is recorded, or the streak before
it is read back. -/
def Undisturbed (s : AccountingState) : AccountingAct → Prop
  | .base (.other (.run st)) => ∀ c ∈ s.calls, c.mayStrike s.base.db = true →
    st.withdraws s.base.db c.invocationId = false
  | .base act => ∀ c ∈ s.calls, c.pc = .counting → act.forgets c.automationId = false
  | .resume n _ => ∀ c ∈ s.calls[n]?.toList, c.pc = .resetting →
    ∀ k ∈ s.calls, k.pc = .counting → k.automationId ≠ c.automationId
  | _ => True

instance (s : AccountingState) : ∀ act, Decidable (Undisturbed s act)
  | .base (.other (.run st)) => inferInstanceAs (Decidable (∀ c ∈ s.calls,
      c.mayStrike s.base.db = true → st.withdraws s.base.db c.invocationId = false))
  | .base (.other (.edit edit)) => inferInstanceAs (Decidable (∀ c ∈ s.calls, c.pc = .counting →
      (FiringAct.other (.edit edit)).forgets c.automationId = false))
  | .base (.other (.ledger st)) => inferInstanceAs (Decidable (∀ c ∈ s.calls, c.pc = .counting →
      (FiringAct.other (.ledger st)).forgets c.automationId = false))
  | .base (.begin caller) => inferInstanceAs (Decidable (∀ c ∈ s.calls, c.pc = .counting →
      (FiringAct.begin caller).forgets c.automationId = false))
  | .base (.resume n answer) => inferInstanceAs (Decidable (∀ c ∈ s.calls, c.pc = .counting →
      (FiringAct.resume n answer).forgets c.automationId = false))
  | .resume n _ => inferInstanceAs (Decidable (∀ c ∈ s.calls[n]?.toList, c.pc = .resetting →
      ∀ k ∈ s.calls, k.pc = .counting → k.automationId ≠ c.automationId))
  | .disableSettledOneShots => .isTrue trivial
  | .apply _ => .isTrue trivial

/-! ## The aggregate -/

section Store

variable {db db' : AutomationDb} {id : Id}

theorem aggregate_total : (db.getInvocationRunAggregate id).total = 0 ↔ db.children id = [] :=
  List.length_eq_zero_iff

theorem aggregate_active : (db.getInvocationRunAggregate id).active = 0 ↔
    ∀ r ∈ db.children id, r.status.active = false := by
  show List.countP _ _ = 0 ↔ _
  simp

theorem aggregate_failed : 0 < (db.getInvocationRunAggregate id).failed ↔
    ∃ r ∈ db.children id, r.status = .failed := by
  show 0 < List.countP _ _ ↔ _
  simp

theorem aggregate_retrying : (db.getInvocationRunAggregate id).retrying = 0 ↔
    ∀ r ∈ db.children id, r.status ≠ .retrying := by
  show List.countP _ _ = 0 ↔ _
  simp

theorem aggregate_strikes :
    (db.getInvocationRunAggregate id).strikes = true ↔ db.StrikeDue id := by
  unfold InvocationRunAggregate.strikes
  rw [Bool.and_eq_true, decide_eq_true_eq, decide_eq_true_eq, aggregate_failed, aggregate_retrying]
  rfl

theorem settled_iff : db.Settled id ↔ (db.getInvocationRunAggregate id).total ≠ 0 ∧
    (db.getInvocationRunAggregate id).active = 0 := by
  rw [Ne, aggregate_total, aggregate_active]
  rfl

/-- A failed child of a settled invocation is a strike. -/
theorem AutomationDb.Settled.strikeDue (h : db.Settled id) (hf : ∃ r ∈ db.children id, r.status = .failed) :
    db.StrikeDue id := by
  refine ⟨hf, fun r hr he => ?_⟩
  have hinactive := h.2 r hr
  rw [he] at hinactive
  cases hinactive

theorem live_iff : db.Live id ↔ ∃ a ∈ db.automations.rows, a.id = id ∧ a.deletedAt = none := by
  unfold Live getById
  constructor
  · intro h
    obtain ⟨a, ha⟩ := Option.isSome_iff_exists.mp h
    obtain ⟨hget, hlive⟩ := Option.filter_eq_some_iff.mp ha
    exact ⟨a, Table.mem_of_get? hget, Table.key_of_get? hget, by simpa using hlive⟩
  · rintro ⟨a, ha, rfl, hlive⟩
    rw [Table.mem_rows_iff.mp ha]
    simp [hlive]

/-- The streak of a live automation is that of its row. -/
theorem consecutiveFailures_eq {a : AutomationRow} (ha : a ∈ db.automations.rows)
    (hlive : a.deletedAt = none) : db.consecutiveFailures a.id = a.consecutiveFailures := by
  unfold consecutiveFailures getById
  rw [Table.mem_rows_iff.mp ha, Option.filter_some, hlive]
  rfl

/-- The failure of the invocation was counted. -/
def Counted (db : AutomationDb) (id : Id) : Prop :=
  ∃ i ∈ db.invocations.table.rows, i.id = id ∧ i.failureCountedAt ≠ none

theorem uncounted_of_counted (h : Counted db id) : db.failureUncounted id = false := by
  obtain ⟨i, hi, rfl, hcounted⟩ := h
  unfold failureUncounted
  rw [Table.mem_rows_iff.mp hi]
  simpa [Option.isSome_iff_ne_none] using hcounted

theorem counted_of_uncounted {i : AutomationInvocationRow} (hi : i ∈ db.invocations.table.rows)
    (h : db.failureUncounted i.id = false) : Counted db i.id := by
  refine ⟨i, hi, rfl, ?_⟩
  unfold failureUncounted at h
  rw [Table.mem_rows_iff.mp hi] at h
  simpa [Option.isSome_iff_ne_none] using h

/-- What is already marked is not marked again. -/
theorem tryMark_counted {now : Millis} (h : db.failureUncounted id = false) :
    db.tryMarkInvocationFailureCounted id now = db := by
  have htable : db.invocations.table.update (Invocations.uncounted id) (Invocations.counted now) =
      db.invocations.table := by
    refine Table.update_of_none fun i hi => ?_
    by_cases hid : i.id = id
    · subst hid
      unfold failureUncounted at h
      rw [Table.mem_rows_iff.mp hi, Option.any_some] at h
      rw [Invocations.uncounted, h, Bool.and_false]
    · simp [Invocations.uncounted, hid]
  have hinvocations : db.invocations.countFailure id now = db.invocations := by
    cases hdb : db.invocations with
    | mk table slots triggers =>
      rw [hdb] at htable
      simp only [Invocations.countFailure, Invocations.mk.injEq]
      exact htable
  show { db with invocations := db.invocations.countFailure id now } = db
  rw [hinvocations]

end Store

/-! ## One call -/

/-- What holds of a call in flight. -/
structure CallInv (db : AutomationDb) (strikes : List Id) (c : OutcomeCall) : Prop where
  known : ∃ i ∈ db.invocations.table.rows, i.id = c.invocationId ∧ i.automationId = c.automationId
  /-- An invocation seen settled stays settled. -/
  settled : ∀ g, c.aggregate = some g → g.active = 0 →
    ∀ r ∈ db.children c.invocationId, r.status.active = false
  due : c.mayStrike db = true → db.StrikeDue c.invocationId
  counted : c.struck = true → Counted db c.invocationId
  fresh : c.pc = .incrementing → c.invocationId ∉ strikes
  sawStrike : c.pc = .marking ∨ c.pc = .incrementing → c.strikes = true
  sawNone : c.pc = .resetting → c.strikes = false
  noStreak : c.pc ≠ .counting → c.pc ≠ .pausing → c.pc ≠ .done → c.streak = none
  reached : c.pc = .counting → ∀ n, c.streak = some n → db.Live c.automationId →
    n ≤ db.consecutiveFailures c.automationId
  paused : c.pc = .done → ∀ n, c.streak = some n → autoPauseThreshold ≤ n →
    db.Live c.automationId → c.paused = true

/-- What a step on the store keeps for a call. -/
structure Carries (db db' : AutomationDb) (c : OutcomeCall) : Prop where
  stored : ∀ i ∈ db.invocations.table.rows, ∃ i' ∈ db'.invocations.table.rows, i'.id = i.id ∧
    i'.automationId = i.automationId ∧ (i.failureCountedAt ≠ none → i'.failureCountedAt ≠ none)
  inactive : (∀ r ∈ db.children c.invocationId, r.status.active = false) →
    ∀ r ∈ db'.children c.invocationId, r.status.active = false
  due : c.mayStrike db = true → db.StrikeDue c.invocationId → db'.StrikeDue c.invocationId
  live : db'.Live c.automationId → db.Live c.automationId
  streak : c.pc = .counting → db'.Live c.automationId →
    db.consecutiveFailures c.automationId ≤ db'.consecutiveFailures c.automationId

section Call

variable {db db' : AutomationDb} {strikes strikes' : List Id} {c : OutcomeCall}

theorem Carries.counted (h : Carries db db' c) {id : Id} (hc : Counted db id) :
    Counted db' id := by
  obtain ⟨i, hi, rfl, hcounted⟩ := hc
  obtain ⟨i', hi', hid, _, hkeeps⟩ := h.stored i hi
  exact ⟨i', hi', hid, hkeeps hcounted⟩

theorem CallInv.carry (h : CallInv db strikes c) (hc : Carries db db' c)
    (hs : c.pc = .incrementing → c.invocationId ∉ strikes') : CallInv db' strikes' c where
  known := by
    obtain ⟨i, hi, hid, hauto⟩ := h.known
    obtain ⟨i', hi', hid', hauto', _⟩ := hc.stored i hi
    exact ⟨i', hi', hid'.trans hid, hauto'.trans hauto⟩
  settled g hg hactive := hc.inactive (h.settled g hg hactive)
  due hm := by
    -- a call that may strike now might have before
    have hm' : c.mayStrike db = true := by
      unfold OutcomeCall.mayStrike at hm ⊢
      rw [Bool.and_eq_true] at hm ⊢
      refine ⟨hm.1, ?_⟩
      have hun : db'.failureUncounted c.invocationId = true →
          db.failureUncounted c.invocationId = true := by
        intro hun
        cases hfalse : db.failureUncounted c.invocationId with
        | true => rfl
        | false =>
          obtain ⟨i, hi, hid, _⟩ := h.known
          have hcounted := hc.counted (counted_of_uncounted hi (hid ▸ hfalse))
          rw [hid] at hcounted
          rw [uncounted_of_counted hcounted] at hun
          cases hun
      have hpc := hm.2
      split at hpc
      next => rfl
      next => exact hun hpc
      next => exact hun hpc
      next => cases hpc
    exact hc.due hm' (h.due hm')
  counted hst := hc.counted (h.counted hst)
  fresh := hs
  sawStrike := h.sawStrike
  sawNone := h.sawNone
  noStreak := h.noStreak
  reached hpc n hn hlive := (h.reached hpc n hn (hc.live hlive)).trans (hc.streak hpc hlive)
  paused hpc n hn hle hlive := h.paused hpc n hn hle (hc.live hlive)

theorem settle_eq (g : InvocationRunAggregate) : OutcomeCall.settle g =
    if g.strikes then .marking else if g.resets then .resetting else .done := by
  unfold OutcomeCall.settle InvocationRunAggregate.strikes InvocationRunAggregate.resets
  by_cases hf : 0 < g.failed
  · by_cases hr : g.retrying = 0
    · simp [hf, hr]
    · simp [hf, hr, Nat.pos_of_ne_zero hr, Nat.ne_of_gt hf]
  · have hzero : g.failed = 0 := by omega
    simp [hzero]

/-- A call that knows its aggregate and goes on to what it asks for. -/
theorem CallInv.settling {g : InvocationRunAggregate}
    (hknown : ∃ i ∈ db.invocations.table.rows, i.id = c.invocationId ∧
      i.automationId = c.automationId)
    (hsettled : g.active = 0 → ∀ r ∈ db.children c.invocationId, r.status.active = false)
    (hdue : g.strikes = true → db.failureUncounted c.invocationId = true →
      db.StrikeDue c.invocationId) (hstreak : c.streak = none) :
    CallInv db strikes { c with aggregate := some g, pc := OutcomeCall.settle g } := by
  have hmarking : OutcomeCall.settle g = .marking → g.strikes = true := by
    rw [settle_eq]
    split
    next h => exact fun _ => h
    next => split <;> nofun
  have hresetting : OutcomeCall.settle g = .resetting → g.strikes = false := by
    rw [settle_eq]
    split
    next => nofun
    next h => exact fun _ => by simpa using h
  have hno : OutcomeCall.settle g ≠ .incrementing ∧ OutcomeCall.settle g ≠ .counting := by
    rw [settle_eq]
    split
    next => exact ⟨nofun, nofun⟩
    next => split <;> exact ⟨nofun, nofun⟩
  have hstruck : g.strikes = true → OutcomeCall.settle g = .marking := by
    intro h
    rw [settle_eq, if_pos h]
  refine ⟨hknown, ?_, ?_, ?_, fun h => absurd h hno.1, ?_, fun h => hresetting h,
    fun _ _ _ => hstreak, fun h => absurd h hno.2, ?_⟩
  · intro g' hg'
    cases hg'
    exact hsettled
  · intro hm
    unfold OutcomeCall.mayStrike at hm
    rw [Bool.and_eq_true] at hm
    refine hdue hm.1 ?_
    have hpc := hm.2
    simp only [hstruck hm.1] at hpc
    exact hpc
  · intro hs
    unfold OutcomeCall.struck at hs
    rw [Bool.and_eq_true] at hs
    have hpc := hs.2
    simp only [hstruck hs.1] at hpc
    cases hpc
  · rintro (h | h)
    · exact hmarking h
    · exact absurd h hno.1
  · intro _ n hn
    rw [show c.streak = some n from hn] at hstreak
    cases hstreak

/-- A call that is over, or has only the pause left. -/
theorem CallInv.ending (h : CallInv db strikes c) {pc : OutcomePc} {paused : Bool}
    (hpc : pc = .pausing ∨ pc = .done)
    (hcounted : c.strikes = true → Counted db c.invocationId)
    (hpaused : pc = .done → ∀ n, c.streak = some n → autoPauseThreshold ≤ n →
      db.Live c.automationId → paused = true) : CallInv db strikes { c with pc, paused } where
  known := h.known
  settled := h.settled
  due hm := by
    unfold OutcomeCall.mayStrike at hm
    rcases hpc with rfl | rfl
    · rw [Bool.and_false] at hm
      cases hm
    · rw [Bool.and_false] at hm
      cases hm
  counted hs := by
    unfold OutcomeCall.struck at hs
    rw [Bool.and_eq_true] at hs
    exact hcounted hs.1
  fresh hi := by rcases hpc with rfl | rfl <;> cases hi
  sawStrike hi := by rcases hpc with rfl | rfl <;> rcases hi with hi | hi <;> cases hi
  sawNone hi := by rcases hpc with rfl | rfl <;> cases hi
  noStreak _ hp hd := (hpc.elim hp hd).elim
  reached hi := by rcases hpc with rfl | rfl <;> cases hi
  paused := hpaused

/-- Once past the one-shots, a call stays past them. -/
theorem finalized_of_moved {pc : OutcomePc} {paused : Bool} (hpc : c.pc ≠ .disabling)
    (h : ({ c with pc, paused } : OutcomeCall).finalized = true) : c.finalized = true := by
  unfold OutcomeCall.finalized at h ⊢
  rw [Bool.and_eq_true] at h ⊢
  exact ⟨h.1, decide_eq_true hpc⟩

/-- An update of `automations` that lowers no streak and deletes nothing back. -/
theorem Carries.updateAutomations (p : AutomationRow → Bool) (f : AutomationRow → AutomationRow)
    (hf : ∀ a, (f a).id = a.id) (hlive : ∀ a, (f a).deletedAt = none → a.deletedAt = none)
    (hstreak : ∀ a, p a = true → c.pc = .counting → a.id = c.automationId →
      a.consecutiveFailures ≤ (f a).consecutiveFailures) :
    Carries db (db.updateAutomations p f hf) c where
  stored i hi := ⟨i, hi, rfl, rfl, fun h => h⟩
  inactive h := h
  due _ h := h
  live h := by
    obtain ⟨a', ha', hid, hnone⟩ := live_iff.mp h
    obtain ⟨a, ha, rfl⟩ := List.mem_map.mp ha'
    refine live_iff.mpr ⟨a, ha, ?_, ?_⟩
    · split at hid
      · rwa [hf] at hid
      · exact hid
    · split at hnone
      · exact hlive a hnone
      · exact hnone
  streak hpc h := by
    obtain ⟨a', ha', hid, hnone⟩ := live_iff.mp h
    rw [← hid, consecutiveFailures_eq ha' hnone]
    obtain ⟨a, ha, rfl⟩ := List.mem_map.mp ha'
    by_cases hp : p a = true
    · rw [if_pos hp] at hid hnone ⊢
      rw [hf] at hid ⊢
      rw [consecutiveFailures_eq ha (hlive a hnone)]
      exact hstreak a hp hpc hid
    · rw [if_neg hp] at hnone ⊢
      rw [consecutiveFailures_eq ha hnone]

end Call

/-! ## All of them -/

structure AccountInv (s : AccountingState) : Prop where
  base : OverlapInv s.base
  calls : ∀ c ∈ s.calls, CallInv s.base.db s.strikes c
  /-- One call for each invocation is past the compare-and-set and before the increment. -/
  alone : ∀ (m n : Nat) c k, s.calls[m]? = some c → s.calls[n]? = some k →
    c.pc = .incrementing → k.pc = .incrementing → c.invocationId = k.invocationId → m = n
  struck : ∀ id ∈ s.strikes, Counted s.base.db id
  once : s.strikes.Nodup
  exact : ∀ i ∈ s.base.db.invocations.table.rows, i.failureCountedAt ≠ none →
    s.base.db.Live i.automationId →
    i.id ∈ s.strikes ∨ ∃ c ∈ s.calls, c.pc = .incrementing ∧ c.invocationId = i.id
  /-- Behind a settled one-shot is a settled invocation that no call has finalized. -/
  oneShots : ∀ a ∈ s.base.db.automations.rows, s.base.db.oneShotSettled a = true →
    ∃ i ∈ s.base.db.invocations.table.rows, i.automationId = a.id ∧ s.base.db.Settled i.id ∧
      ∀ c ∈ s.calls, c.invocationId = i.id → c.finalized = false

namespace AccountInv

variable {s : AccountingState}

theorem initial (automations : Table AutomationRow.id) (teams : Table TeamRow.id) :
    AccountInv (.initial (.created automations teams)) where
  base := .initial automations teams
  calls _ hc := absurd hc List.not_mem_nil
  alone m n c k hc := by cases hc
  struck _ hid := absurd hid List.not_mem_nil
  once := List.nodup_nil
  exact _ hi := absurd hi List.not_mem_nil
  oneShots a _ hs := by
    obtain ⟨_, ⟨i, hi, _⟩, _⟩ := oneShotSettled_iff.mp hs
    exact absurd hi List.not_mem_nil

/-- A step on the store, with every call where it was. A one-shot that it settles has an
invocation whose last active run it ended. -/
theorem carry (h : AccountInv s) {base : FiringState} (hb : OverlapInv base)
    (hc : ∀ c ∈ s.calls, Carries s.base.db base.db c)
    (hkept : ∀ i ∈ s.base.db.invocations.table.rows, i ∈ base.db.invocations.table.rows)
    (hborn : ∀ i ∈ base.db.invocations.table.rows,
      i ∈ s.base.db.invocations.table.rows ∨ i.failureCountedAt = none)
    (hlive : ∀ id, base.db.Live id → s.base.db.Live id)
    (hsettled : ∀ i ∈ s.base.db.invocations.table.rows, s.base.db.Settled i.id →
      base.db.Settled i.id)
    (hone : ∀ a' ∈ base.db.automations.rows, base.db.oneShotSettled a' = true →
      (∃ a ∈ s.base.db.automations.rows, a.id = a'.id ∧ s.base.db.oneShotSettled a = true) ∨
      ∃ i ∈ s.base.db.invocations.table.rows, i.automationId = a'.id ∧ base.db.Settled i.id ∧
        ∃ r ∈ s.base.db.children i.id, r.status.active = true) :
    AccountInv { s with base } where
  base := hb
  calls c hmem := (h.calls c hmem).carry (hc c hmem) (h.calls c hmem).fresh
  alone := h.alone
  struck id hid := by
    obtain ⟨i, hi, he, hcounted⟩ := h.struck id hid
    exact ⟨i, hkept i hi, he, hcounted⟩
  once := h.once
  exact i hi hcounted hl := by
    rcases hborn i hi with hi | hnone
    · exact h.exact i hi hcounted (hlive _ hl)
    · exact absurd hnone hcounted
  oneShots a' ha' hs := by
    rcases hone a' ha' hs with ⟨a, ha, hid, hs⟩ | ⟨i, hi, hauto, hset, r, hr, hactive⟩
    · obtain ⟨i, hi, hauto, hset, hnone⟩ := h.oneShots a ha hs
      exact ⟨i, hkept i hi, hauto.trans hid, hsettled i hi hset, hnone⟩
    · refine ⟨i, hkept i hi, hauto, hset, fun c hmem hci => ?_⟩
      -- a call that finalized it would have seen no active run
      cases hf : c.finalized with
      | false => rfl
      | true =>
        unfold OutcomeCall.finalized at hf
        rw [Bool.and_eq_true, Option.any_eq_true] at hf
        obtain ⟨⟨g, hg, hsome⟩, _⟩ := hf
        rw [Bool.and_eq_true, decide_eq_true_eq, decide_eq_true_eq] at hsome
        have hinactive := (h.calls c hmem).settled g hg hsome.2 r (hci ▸ hr)
        rw [hactive] at hinactive
        cases hinactive

/-- A step on the rows of automations alone. -/
theorem carryRows (h : AccountInv s) (p : AutomationRow → Bool) (f : AutomationRow → AutomationRow)
    (hf : ∀ a, (f a).id = a.id) (hlive : ∀ a, (f a).deletedAt = none → a.deletedAt = none)
    (huser : ∀ a, a.userId ≠ none → (f a).userId ≠ none)
    (hstreak : ∀ c ∈ s.calls, ∀ a, p a = true → c.pc = .counting → a.id = c.automationId →
      a.consecutiveFailures ≤ (f a).consecutiveFailures)
    (hspent : ∀ a, p a = true → (f a).Spent → a.Spent ∧ (f a).scheduleOnceAt = a.scheduleOnceAt) :
    AccountInv { s with
      base := { s.base with db := s.base.db.updateAutomations p f hf } } := by
  have hcarries : ∀ c ∈ s.calls, Carries s.base.db (s.base.db.updateAutomations p f hf) c :=
    fun c hc => .updateAutomations p f hf hlive (hstreak c hc)
  refine h.carry (h.base.quiet (.updateAutomations p f hf huser)) hcarries (fun _ hi => hi)
    (fun _ hi => .inl hi) ?_ (fun _ _ hs => hs) ?_
  · intro id hl
    obtain ⟨a', ha', hid, hnone⟩ := live_iff.mp hl
    obtain ⟨a, ha, rfl⟩ := List.mem_map.mp ha'
    refine live_iff.mpr ⟨a, ha, ?_, ?_⟩
    · split at hid
      · rwa [hf] at hid
      · exact hid
    · split at hnone
      · exact hlive a hnone
      · exact hnone
  · intro a' ha' hs
    obtain ⟨a, ha, rfl⟩ := List.mem_map.mp ha'
    by_cases hp : p a = true
    · rw [if_pos hp] at hs ⊢
      obtain ⟨hsp, hfired, hidle⟩ := oneShotSettled_iff.mp hs
      obtain ⟨hsp, honce⟩ := hspent a hp hsp
      refine .inl ⟨a, ha, (hf a).symm, oneShotSettled_iff.mpr ⟨hsp, ?_, ?_⟩⟩
      · unfold SlotFired at hfired ⊢
        rwa [hf, honce] at hfired
      · rwa [hf] at hidle
    · rw [if_neg hp] at hs ⊢
      exact .inl ⟨a, ha, rfl, hs⟩

variable {n : Nat}

/-- A call that finalizes its invocation only when no one-shot of it is settled. -/
theorem oneShots_set (h : AccountInv s) {c d : OutcomeCall} (hn : s.calls[n]? = some c)
    (hid : d.invocationId = c.invocationId)
    (hfinal : d.finalized = true → c.finalized = true ∨
      ∀ a ∈ s.base.db.automations.rows, a.id = c.automationId →
        s.base.db.oneShotSettled a = false) :
    ∀ a ∈ s.base.db.automations.rows, s.base.db.oneShotSettled a = true →
      ∃ i ∈ s.base.db.invocations.table.rows, i.automationId = a.id ∧ s.base.db.Settled i.id ∧
        ∀ k ∈ s.calls.set n d, k.invocationId = i.id → k.finalized = false := by
  intro a ha hs
  obtain ⟨i, hi, hauto, hset, hnone⟩ := h.oneShots a ha hs
  refine ⟨i, hi, hauto, hset, fun k hk hki => ?_⟩
  rcases List.mem_or_eq_of_mem_set hk with hk | rfl
  · exact hnone k hk hki
  · have hmem := List.mem_of_getElem? hn
    cases hf : k.finalized with
    | false => rfl
    | true =>
      rcases hfinal hf with hc | hno
      · rw [hnone c hmem (hid.symm.trans hki)] at hc
        cases hc
      · obtain ⟨j, hj, hjid, hjauto⟩ := (h.calls c hmem).known
        have hij : i = j := Table.eq_of_key hi hj ((hki.symm.trans hid).trans hjid.symm)
        have hac : a.id = c.automationId := by rw [← hauto, hij, hjauto]
        rw [hno a ha hac] at hs
        cases hs

/-- A call that moves on, neither to nor from its increment. -/
theorem moved (h : AccountInv s) {c c' : OutcomeCall} (hn : s.calls[n]? = some c)
    (hid : c'.invocationId = c.invocationId) (hinv : CallInv s.base.db s.strikes c')
    (hpc : c.pc ≠ .incrementing) (hpc' : c'.pc ≠ .incrementing)
    (hfinal : c'.finalized = true → c.finalized = true ∨
      ∀ a ∈ s.base.db.automations.rows, a.id = c.automationId →
        s.base.db.oneShotSettled a = false) :
    AccountInv { s with calls := s.calls.set n c' } where
  base := h.base
  calls k hk := by
    rcases List.mem_or_eq_of_mem_set hk with hk | rfl
    · exact h.calls k hk
    · exact hinv
  alone i j k l hk hl hki hli he := by
    have hold : ∀ (m : Nat) k, (s.calls.set n c')[m]? = some k → k.pc = .incrementing →
        s.calls[m]? = some k := by
      intro m k hk hki
      rw [List.getElem?_set] at hk
      split at hk
      next =>
        split at hk
        next =>
          cases hk
          exact absurd hki hpc'
        next => cases hk
      next => exact hk
    exact h.alone i j k l (hold i k hk hki) (hold j l hl hli) hki hli he
  struck := h.struck
  once := h.once
  exact i hi hcounted hlive := by
    rcases h.exact i hi hcounted hlive with hst | ⟨k, hk, hki, hkid⟩
    · exact .inl hst
    · refine .inr ⟨k, ?_, hki, hkid⟩
      obtain ⟨m, hm⟩ := List.mem_iff_getElem?.mp hk
      refine List.mem_of_getElem? (i := m) ?_
      rw [List.getElem?_set]
      split
      next hmn =>
        subst hmn
        cases hn.symm.trans hm
        exact absurd hki hpc
      next => exact hm
  oneShots := h.oneShots_set hn hid hfinal

/-- A step that is none of the service's, other than a statement on runs. -/
theorem aside (h : AccountInv s) {act : FiringAct} {base : FiringState} (hb : OverlapInv base)
    (ha : Aside act s.base.db base.db)
    (hok : ∀ c ∈ s.calls, c.pc = .counting → act.forgets c.automationId = false) :
    AccountInv { s with base } := by
  have hlive : ∀ id, base.db.Live id → s.base.db.Live id := by
    intro id hl
    obtain ⟨a', ha', rfl, hnone⟩ := live_iff.mp hl
    obtain ⟨a, hmem, hid, hkeeps, _⟩ := ha.rows a' ha'
    exact live_iff.mpr ⟨a, hmem, hid, hkeeps hnone⟩
  refine h.carry hb (fun c hc => ?_) ha.kept ha.born hlive ?_ ?_
  · obtain ⟨i, hi, hid, _⟩ := (h.calls c hc).known
    have hchildren : base.db.children c.invocationId = s.base.db.children c.invocationId := by
      rw [← hid]
      exact ha.children i hi
    refine ⟨fun i hi => ⟨i, ha.kept i hi, rfl, rfl, fun h => h⟩, ?_, fun _ hdue => ?_,
      hlive _, fun hpc hl => ?_⟩
    · rw [hchildren]
      exact fun h => h
    · rwa [StrikeDue, hchildren]
    · obtain ⟨a', ha', hid', hnone⟩ := live_iff.mp hl
      obtain ⟨a, hmem, hida, hkeeps, hstreak, _⟩ := ha.rows a' ha'
      rw [← hid', consecutiveFailures_eq ha' hnone, ← hida,
        consecutiveFailures_eq hmem (hkeeps hnone)]
      rcases hstreak with he | ⟨hforgets, _⟩
      · exact he.ge
      · rw [hida, hid', hok c hc hpc] at hforgets
        cases hforgets
  · intro i hi hset
    rwa [Settled, ha.children i hi]
  · intro a' ha' hs
    obtain ⟨a, hmem, hid, _, _, hshot⟩ := ha.rows a' ha'
    exact .inl ⟨a, hmem, hid, hshot hs⟩

/-- A statement on runs that withdraws no strike still to be recorded. -/
theorem ran (h : AccountInv s) (st : RunStatement)
    (hok : ∀ c ∈ s.calls, c.mayStrike s.base.db = true →
      st.withdraws s.base.db c.invocationId = false) :
    AccountInv { s with base := { s.base with db := st.exec s.base.db } } := by
  obtain ⟨hautomations, hinvocations, _, _⟩ := st.exec_frame s.base.db
  obtain ⟨g, hchildren, hmove⟩ := st.exec_children s.base.db
  have hinactive : ∀ id, (∀ r ∈ s.base.db.children id, r.status.active = false) →
      ∀ r ∈ (st.exec s.base.db).children id, r.status.active = false := by
    intro id hall r' hr'
    rw [hchildren] at hr'
    obtain ⟨r, hr, rfl⟩ := List.mem_map.mp hr'
    cases hactive : (g r).status.active with
    | false => rfl
    | true =>
      rw [← hall r hr]
      exact ((hmove r).active hactive).symm
  have hlive : ∀ id, (st.exec s.base.db).Live id ↔ s.base.db.Live id := by
    intro id
    rw [live_iff, live_iff, hautomations]
  refine h.carry (h.base.quiet (.runStatement st)) (fun c hc => ?_) ?_ ?_
    (fun id => (hlive id).mp) ?_ ?_
  · refine ⟨?_, hinactive _, fun hm hdue => ?_, (hlive _).mp, fun _ _ => ?_⟩
    · intro i hi
      exact ⟨i, by rwa [hinvocations], rfl, rfl, fun h => h⟩
    · have hno := hok c hc hm
      constructor
      · obtain ⟨r, hr, hs⟩ := hdue.1
        rw [AutomationDb.children, List.mem_filter, decide_eq_true_eq] at hr
        rcases st.failed_after hr.1 hs with ⟨r', hr', hinv, hs'⟩ | ⟨id, at', rfl, htimed⟩
        · refine ⟨r', List.mem_filter.mpr ⟨hr', ?_⟩, hs'⟩
          exact decide_eq_true (hinv.trans hr.2)
        · have hwith : (s.base.db.children c.invocationId).any (timedOut id) = true :=
            List.any_eq_true.mpr ⟨r, List.mem_filter.mpr ⟨hr.1, decide_eq_true hr.2⟩, htimed⟩
          exact absurd (hwith.symm.trans hno) (fun h => by cases h)
      · intro r' hr' hretry
        rw [hchildren] at hr'
        obtain ⟨r, hr, rfl⟩ := List.mem_map.mp hr'
        have hmem' : g r ∈ (st.exec s.base.db).runs.rows := by
          have hmem := hr'
          rw [← hchildren] at hmem
          exact (List.mem_filter.mp hmem).1
        have hmem := (List.mem_filter.mp hr).1
        have hown : ∀ x ∈ s.base.db.runs.rows, x.id = (g r).id → x = r := fun x hx he =>
          Table.eq_of_key hx hmem (he.trans (hmove r).id)
        rcases st.retrying_before hmem' hretry with
          ⟨x, hx, he, hs⟩ | ⟨x, hx, he, hretryable, reason, failedAt, retryAt, rfl⟩
        · rw [hown x hx he] at hs
          exact hdue.2 r hr hs
        · rw [hown x hx he] at hretryable
          have hwith : (s.base.db.children c.invocationId).any
              (s.base.db.retryable (g r).id) = true := List.any_eq_true.mpr ⟨r, hr, hretryable⟩
          exact absurd (hwith.symm.trans hno) (fun h => by cases h)
    · unfold consecutiveFailures getById
      rw [hautomations]
  · intro i hi
    rwa [hinvocations]
  · intro i hi
    rw [hinvocations] at hi
    exact .inl hi
  · intro i _ hset
    refine ⟨?_, hinactive i.id hset.2⟩
    rw [hchildren]
    simpa using hset.1
  · intro a ha hs
    rw [hautomations] at ha
    obtain ⟨hspent, hfired, hidle⟩ := oneShotSettled_iff.mp hs
    have hfired' : s.base.db.SlotFired a := by
      unfold SlotFired at hfired ⊢
      rwa [hinvocations] at hfired
    by_cases hbefore : s.base.db.Idle a.id
    · exact .inl ⟨a, ha, rfl, oneShotSettled_iff.mpr ⟨hspent, hfired', hbefore⟩⟩
    · -- the statement ended the automation's last active run
      unfold Idle at hbefore
      push Not at hbefore
      obtain ⟨r, hr, hauto, hactive⟩ := hbefore
      obtain ⟨i, hi, hid, hiauto, _⟩ := h.base.store.runOwner r hr
      have hri : r ∈ s.base.db.children i.id :=
        List.mem_filter.mpr ⟨hr, decide_eq_true hid.symm⟩
      refine .inr ⟨i, hi, hiauto.trans hauto, ⟨?_, ?_⟩, r, hri, by simpa using hactive⟩
      · rw [hchildren]
        simpa using List.ne_nil_of_mem hri
      · intro r' hr'
        rw [hchildren] at hr'
        obtain ⟨x, hx, rfl⟩ := List.mem_map.mp hr'
        have hx' := List.mem_filter.mp hx
        refine hidle (g x) ?_ ?_
        · have hmem : g x ∈ (st.exec s.base.db).children i.id := by
            rw [hchildren]
            exact List.mem_map_of_mem hx
          exact (List.mem_filter.mp hmem).1
        · rw [(hmove x).automationId,
            h.base.store.run_automation hi hx'.1 (of_decide_eq_true hx'.2), hiauto, hauto]

/-- A call begins. -/
theorem applied (h : AccountInv s) {i : AutomationInvocationRow}
    (hi : i ∈ s.base.db.invocations.table.rows) :
    AccountInv { s with
      calls := s.calls ++ [{ automationId := i.automationId, invocationId := i.id }] } where
  base := h.base
  calls c hc := by
    rcases List.mem_append.mp hc with hc | hc
    · exact h.calls c hc
    · rw [List.mem_singleton.mp hc]
      exact
        { known := ⟨i, hi, rfl, rfl⟩
          settled := nofun
          due := nofun
          counted := nofun
          fresh := nofun
          sawStrike := nofun
          sawNone := nofun
          noStreak := fun _ _ _ => rfl
          reached := nofun
          paused := nofun }
  alone m n c k hc hk hci hki he := by
    have hold : ∀ (m : Nat) k,
        (s.calls ++ [{ automationId := i.automationId, invocationId := i.id }])[m]? = some k →
        k.pc = .incrementing → s.calls[m]? = some k := by
      intro m k hk hki
      rw [List.getElem?_append] at hk
      split at hk
      next => exact hk
      next =>
        rw [List.mem_singleton.mp (List.mem_of_getElem? hk)] at hki
        cases hki
    exact h.alone m n c k (hold m c hc hci) (hold n k hk hki) hci hki he
  struck := h.struck
  once := h.once
  exact j hj hcounted hlive := by
    rcases h.exact j hj hcounted hlive with hst | ⟨c, hc, hci, hcid⟩
    · exact .inl hst
    · exact .inr ⟨c, List.mem_append_left _ hc, hci, hcid⟩
  oneShots a ha hs := by
    obtain ⟨j, hj, hauto, hset, hnone⟩ := h.oneShots a ha hs
    refine ⟨j, hj, hauto, hset, fun c hc hcj => ?_⟩
    rcases List.mem_append.mp hc with hc | hc
    · exact hnone c hc hcj
    · rw [List.mem_singleton.mp hc]
      rfl

/-- A call marks its invocation, and goes on to the increment. -/
theorem marked (h : AccountInv s) {c : OutcomeCall} (hn : s.calls[n]? = some c)
    (hpc : c.pc = .marking) (hun : s.base.db.failureUncounted c.invocationId = true) (now : Millis)
    :
    AccountInv { s with
      base := { s.base with
        db := s.base.db.tryMarkInvocationFailureCounted c.invocationId now }
      calls := s.calls.set n { c with pc := .incrementing } } := by
  have hmem := List.mem_of_getElem? hn
  have hc := h.calls c hmem
  have hfree : ¬Counted s.base.db c.invocationId := by
    intro hcounted
    rw [uncounted_of_counted hcounted] at hun
    cases hun
  have hinv : ∀ i' ∈ (s.base.db.tryMarkInvocationFailureCounted c.invocationId
      now).invocations.table.rows, ∃ i ∈ s.base.db.invocations.table.rows,
        i.Same i' ∧ (i'.failureCountedAt ≠ none → i.failureCountedAt ≠ none ∨
          i.id = c.invocationId) := by
    intro i' hi'
    obtain ⟨i, hi, rfl⟩ := List.mem_map.mp hi'
    refine ⟨i, hi, ?_, ?_⟩
    · split
      · exact ⟨_, rfl⟩
      · exact ⟨i.failureCountedAt, rfl⟩
    · split
      next hmatch =>
        simp only [Invocations.uncounted, Bool.and_eq_true, decide_eq_true_eq] at hmatch
        exact fun _ => .inr hmatch.1
      next => exact fun hcounted => .inl hcounted
  have hcarries : ∀ k, Carries s.base.db
      (s.base.db.tryMarkInvocationFailureCounted c.invocationId now) k := by
    intro k
    refine ⟨fun i hi => ?_, fun h => h, fun _ h => h, fun h => h, fun _ _ => le_rfl⟩
    refine ⟨_, List.mem_map_of_mem hi, ?_⟩
    split
    · exact ⟨rfl, rfl, fun _ => nofun⟩
    · exact ⟨rfl, rfl, fun h => h⟩
  have hcounted : Counted (s.base.db.tryMarkInvocationFailureCounted c.invocationId now)
      c.invocationId := by
    obtain ⟨i, hi, hid, _⟩ := hc.known
    refine ⟨_, List.mem_map_of_mem hi, ?_, ?_⟩
    · split
      · exact hid
      · exact hid
    · split
      next => nofun
      next hno =>
        intro hnone
        simp [Invocations.uncounted, hid, hnone] at hno
  have hone := h.oneShots_set (d := { c with pc := .incrementing }) hn rfl (by
    intro hf
    refine .inl ?_
    unfold OutcomeCall.finalized at hf ⊢
    rw [hpc]
    exact hf)
  refine ⟨h.base.quiet (.tryMark c.invocationId now), ?_, ?_, ?_, h.once, ?_, ?_⟩
  · intro k hk
    rcases List.mem_or_eq_of_mem_set hk with hk | rfl
    · exact (h.calls k hk).carry (hcarries k) (h.calls k hk).fresh
    · have hstrikes := hc.sawStrike (.inl hpc)
      have hdue : s.base.db.StrikeDue c.invocationId := by
        refine hc.due ?_
        rw [OutcomeCall.mayStrike, hstrikes, hpc]
        exact hun
      have hknown := @CallInv.carry _ _ _ s.strikes _ hc (hcarries c) (by rw [hpc]; nofun)
      exact
        { hknown with
          due := fun _ => hdue
          counted := fun _ => hcounted
          fresh := fun _ hin => hfree (h.struck _ hin)
          sawStrike := fun _ => hstrikes
          sawNone := nofun
          noStreak := fun _ _ _ => hc.noStreak (by rw [hpc]; nofun) (by rw [hpc]; nofun)
            (by rw [hpc]; nofun)
          reached := nofun
          paused := nofun }
  · intro i j k l hk hl hki hli he
    -- nobody else is past the mark of this invocation
    have hold : ∀ (m : Nat) k, (s.calls.set n { c with pc := .incrementing })[m]? = some k →
        k.pc = .incrementing → (m = n ∧ k.invocationId = c.invocationId) ∨
          (s.calls[m]? = some k ∧ k.invocationId ≠ c.invocationId) := by
      intro m k hk hki
      rw [List.getElem?_set] at hk
      split at hk
      next hmn =>
        split at hk
        next =>
          cases hk
          exact .inl ⟨hmn.symm, rfl⟩
        next => cases hk
      next =>
        refine .inr ⟨hk, fun he => hfree ?_⟩
        have hk' := h.calls k (List.mem_of_getElem? hk)
        rw [← he]
        refine hk'.counted ?_
        rw [OutcomeCall.struck, hk'.sawStrike (.inr hki), hki]
        rfl
    rcases hold i k hk hki with ⟨rfl, hk'⟩ | ⟨hk', hne⟩
    · rcases hold j l hl hli with ⟨rfl, _⟩ | ⟨_, hne⟩
      · rfl
      · exact absurd (he.symm.trans hk') hne
    · rcases hold j l hl hli with ⟨rfl, hl'⟩ | ⟨hl', _⟩
      · exact absurd (he.trans hl') hne
      · exact h.alone i j k l hk' hl' hki hli he
  · exact fun id hid => (hcarries c).counted (h.struck id hid)
  · intro i' hi' hcounted' hlive
    obtain ⟨i, hi, ⟨_, rfl⟩, hbefore⟩ := hinv i' hi'
    have hmark : { c with pc := .incrementing } ∈ s.calls.set n { c with pc := .incrementing } :=
      List.mem_set ((List.getElem?_eq_some_iff.mp hn).1) _
    rcases hbefore hcounted' with hold | hid
    · rcases h.exact i hi hold hlive with hst | ⟨k, hk, hki, hkid⟩
      · exact .inl hst
      · refine .inr ⟨k, ?_, hki, hkid⟩
        obtain ⟨m, hm⟩ := List.mem_iff_getElem?.mp hk
        refine List.mem_of_getElem? (i := m) ?_
        rw [List.getElem?_set]
        split
        next hmn =>
          subst hmn
          cases hn.symm.trans hm
          rw [hpc] at hki
          cases hki
        next => exact hm
    · exact .inr ⟨_, hmark, rfl, hid.symm⟩
  · intro a ha hs
    have hs' : s.base.db.oneShotSettled a = true := by
      obtain ⟨hspent, ⟨j', hj', hauto, hsource, hslot⟩, hidle⟩ := oneShotSettled_iff.mp hs
      obtain ⟨j, hj, ⟨_, rfl⟩, _⟩ := hinv j' hj'
      exact oneShotSettled_iff.mpr ⟨hspent, ⟨j, hj, hauto, hsource, hslot⟩, hidle⟩
    obtain ⟨i, hi, hauto, hset, hnone⟩ := hone a ha hs'
    obtain ⟨i', hi', hid, hauto', _⟩ := (hcarries c).stored i hi
    refine ⟨i', hi', hauto'.trans hauto, ?_, ?_⟩
    · rw [hid]
      exact hset
    · intro k hk hki
      exact hnone k hk (hki.trans hid)

/-- A call records its strike. -/
theorem incremented (h : AccountInv s) {c : OutcomeCall} (hn : s.calls[n]? = some c)
    (hpc : c.pc = .incrementing) :
    AccountInv
      { base := { s.base with db := s.base.db.incrementConsecutiveFailures c.automationId }
        calls := s.calls.set n { c with
          pc := .counting
          streak := some ((s.base.db.incrementConsecutiveFailures
            c.automationId).consecutiveFailures c.automationId) }
        strikes := c.strike s.base.db ++ s.strikes } := by
  have hrows : AccountInv { s with
      base := { s.base with db := s.base.db.incrementConsecutiveFailures c.automationId } } :=
    h.carryRows _ _ _ (fun _ h => h) (fun _ h => h) (fun _ _ _ _ _ _ => Nat.le_succ _)
      fun _ _ hs => ⟨⟨hs.schedule, hs.once, hs.enabled, hs.live, hs.noSlot⟩, rfl⟩
  have hmem := List.mem_of_getElem? hn
  have hc := hrows.calls c hmem
  have hstrikes := hc.sawStrike (.inr hpc)
  have hcounted := hc.counted (by rw [OutcomeCall.struck, hstrikes, hpc]; rfl)
  have hstrike : ∀ id, id ∈ c.strike s.base.db ++ s.strikes →
      id = c.invocationId ∨ id ∈ s.strikes := by
    intro id hid
    rcases List.mem_append.mp hid with hid | hid
    · unfold OutcomeCall.strike at hid
      split at hid
      next => exact .inl (List.mem_singleton.mp hid)
      next => cases hid
    · exact .inr hid
  have hold : ∀ (m : Nat) k, (s.calls.set n { c with
      pc := .counting
      streak := some ((s.base.db.incrementConsecutiveFailures
        c.automationId).consecutiveFailures c.automationId) })[m]? = some k →
      k.pc = .incrementing → m ≠ n ∧ s.calls[m]? = some k := by
    intro m k hk hki
    rw [List.getElem?_set] at hk
    split at hk
    next =>
      split at hk
      next =>
        cases hk
        cases hki
      next => cases hk
    next hmn => exact ⟨fun he => hmn he.symm, hk⟩
  refine ⟨hrows.base, ?_, ?_, ?_, ?_, ?_, ?_⟩
  · intro k hk
    obtain ⟨m, hm⟩ := List.mem_iff_getElem?.mp hk
    rcases List.mem_or_eq_of_mem_set hk with hk | rfl
    · have hk' := hrows.calls k hk
      refine ⟨hk'.known, hk'.settled, hk'.due, hk'.counted, fun hki hin => ?_, hk'.sawStrike,
        hk'.sawNone, hk'.noStreak, hk'.reached, hk'.paused⟩
      obtain ⟨hmn, hm⟩ := hold m k hm hki
      rcases hstrike _ hin with he | hin
      · exact hmn (h.alone m n k c hm hn hki hpc he)
      · exact hk'.fresh hki hin
    · exact
        { hc with
          due := fun hm => by rw [OutcomeCall.mayStrike, Bool.and_false] at hm; cases hm
          counted := fun _ => hcounted
          fresh := nofun
          sawStrike := fun hor => by rcases hor with hor | hor <;> cases hor
          sawNone := nofun
          noStreak := fun hno => absurd rfl hno
          reached := fun _ m hm _ => (Option.some.inj hm).ge
          paused := nofun }
  · intro i j k l hk hl hki hli he
    exact h.alone i j k l (hold i k hk hki).2 (hold j l hl hli).2 hki hli he
  · intro id hid
    rcases hstrike id hid with rfl | hid
    · exact hcounted
    · exact hrows.struck id hid
  · unfold OutcomeCall.strike
    split
    next => exact List.nodup_cons.mpr ⟨(h.calls c hmem).fresh hpc, h.once⟩
    next => exact h.once
  · intro i hi hcounted' hlive
    rcases hrows.exact i hi hcounted' hlive with hst | ⟨k, hk, hki, hkid⟩
    · exact .inl (List.mem_append_right _ hst)
    · obtain ⟨m, hm⟩ := List.mem_iff_getElem?.mp hk
      by_cases hmn : m = n
      · subst hmn
        cases hn.symm.trans hm
        obtain ⟨j, hj, hjid, hjauto⟩ := hc.known
        have hij : i = j := Table.eq_of_key hi hj (hkid.symm.trans hjid.symm)
        rw [hij, hjauto] at hlive
        have hlive' : (s.base.db.getById c.automationId).isSome = true := by
          obtain ⟨a', ha', hid, hnone⟩ := live_iff.mp hlive
          obtain ⟨a, ha, rfl⟩ := List.mem_map.mp ha'
          refine live_iff.mpr ⟨a, ha, ?_, ?_⟩
          · split at hid <;> exact hid
          · split at hnone <;> exact hnone
        refine .inl (List.mem_append_left _ ?_)
        rw [OutcomeCall.strike, if_pos ⟨hpc, hlive'⟩, ← hkid]
        exact List.mem_singleton_self _
      · refine .inr ⟨k, List.mem_of_getElem? (i := m) ?_, hki, hkid⟩
        rw [List.getElem?_set_ne (Ne.symm hmn)]
        exact hm
  · refine hrows.oneShots_set hn rfl fun hf => .inl ?_
    unfold OutcomeCall.finalized at hf ⊢
    rw [hpc]
    exact hf

/-- **One step of a call keeps the invariant.** -/
theorem resumed (h : AccountInv s) {c c' : OutcomeCall} {db' : AutomationDb} {now : Millis}
    (hn : s.calls[n]? = some c) (hs : c.step s.base.db now = some (db', c'))
    (hok : c.pc = .resetting → ∀ k ∈ s.calls, k.pc = .counting → k.automationId ≠ c.automationId) :
    AccountInv
      { base := { s.base with db := db' }
        calls := s.calls.set n c'
        strikes := c.strike s.base.db ++ s.strikes } := by
  have hmem := List.mem_of_getElem? hn
  have hc := h.calls c hmem
  have hquiet : c.pc ≠ .incrementing → c.strike s.base.db ++ s.strikes = s.strikes := by
    intro hpc
    rw [OutcomeCall.strike, if_neg fun hp => hpc hp.1, List.nil_append]
  unfold OutcomeCall.step at hs
  split at hs
  next hpc =>
    cases hs
    rw [hquiet (by rw [hpc]; nofun)]
    have hstreak : c.streak = none :=
      hc.noStreak (by rw [hpc]; nofun) (by rw [hpc]; nofun) (by rw [hpc]; nofun)
    have hsettled : (s.base.db.getInvocationRunAggregate c.invocationId).active = 0 →
        ∀ r ∈ s.base.db.children c.invocationId, r.status.active = false := aggregate_active.mp
    have hstrikes : (s.base.db.getInvocationRunAggregate c.invocationId).strikes = true →
        s.base.db.StrikeDue c.invocationId := aggregate_strikes.mp
    by_cases htotal : (s.base.db.getInvocationRunAggregate c.invocationId).total = 0
    · -- a skip has no runs, and its call ends here
      simp only [htotal, if_true]
      have hnone : (s.base.db.getInvocationRunAggregate c.invocationId).strikes ≠ true := by
        intro hst
        obtain ⟨⟨r, hr, _⟩, _⟩ := hstrikes hst
        rw [aggregate_total.mp htotal] at hr
        cases hr
      refine h.moved hn rfl ?_ (by rw [hpc]; nofun) nofun ?_
      · refine ⟨hc.known, ?_, ?_, ?_, nofun, ?_, nofun, fun _ _ _ => hstreak, nofun, ?_⟩
        · intro g hg
          cases hg
          exact hsettled
        · intro hm
          rw [OutcomeCall.mayStrike, Bool.and_false] at hm
          cases hm
        · intro hst
          rw [OutcomeCall.struck, Bool.and_true] at hst
          exact absurd hst hnone
        · rintro (hp | hp) <;> cases hp
        · intro _ m hm
          rw [show c.streak = some m from hm] at hstreak
          cases hstreak
      · intro hf
        unfold OutcomeCall.finalized at hf
        simp only [Option.any_some, htotal] at hf
        cases hf
    · simp only [htotal, if_false]
      by_cases hactive : (s.base.db.getInvocationRunAggregate c.invocationId).active = 0
      · simp only [hactive, if_true]
        refine h.moved hn rfl ?_ (by rw [hpc]; nofun) nofun ?_
        · refine ⟨hc.known, ?_, ?_, ?_, nofun, ?_, nofun, fun _ _ _ => hstreak, nofun, nofun⟩
          · intro g hg
            cases hg
            exact hsettled
          · intro hm
            unfold OutcomeCall.mayStrike at hm
            rw [Bool.and_eq_true] at hm
            exact hstrikes hm.1
          · intro hst
            rw [OutcomeCall.struck, Bool.and_false] at hst
            cases hst
          · rintro (hp | hp) <;> cases hp
        · intro hf
          unfold OutcomeCall.finalized at hf
          rw [Bool.and_eq_true] at hf
          cases hf.2
      · simp only [hactive, if_false]
        have hinv := @CallInv.settling _ s.strikes c _ hc.known hsettled
          (fun hst _ => hstrikes hst) hstreak
        have hpc' : OutcomeCall.settle (s.base.db.getInvocationRunAggregate c.invocationId) ≠
            .incrementing := by
          rw [settle_eq]
          split
          next => nofun
          next => split <;> nofun
        refine h.moved hn rfl hinv (by rw [hpc]; nofun) hpc' ?_
        intro hf
        unfold OutcomeCall.finalized at hf
        simp [hactive] at hf
  next hpc =>
    obtain ⟨g, hg, hs⟩ := Option.map_eq_some_iff.mp hs
    cases hs
    rw [hquiet (by rw [hpc]; nofun)]
    have hrows : AccountInv { s with base := { s.base with
        db := s.base.db.disableSettledOneShots (some c.automationId) } } :=
      h.carryRows _ _ _ (fun _ h => h) (fun _ h => h) (fun _ _ _ _ _ _ => le_rfl)
        fun _ _ hs => absurd hs.enabled Bool.false_ne_true
    have hc' := hrows.calls c hmem
    have hinv := @CallInv.settling _ s.strikes c g hc'.known
      (hc'.settled g hg) (fun hst hun => hc'.due (by
        rw [OutcomeCall.mayStrike, OutcomeCall.strikes, hg, hpc]
        simp [hst, hun]))
      (hc.noStreak (by rw [hpc]; nofun) (by rw [hpc]; nofun) (by rw [hpc]; nofun))
    have hset : ({ c with aggregate := some g, pc := OutcomeCall.settle g } : OutcomeCall) =
        { c with pc := OutcomeCall.settle g } := by rw [← hg]
    rw [hset] at hinv
    have hpc' : OutcomeCall.settle g ≠ .incrementing := by
      rw [settle_eq]
      split
      next => nofun
      next => split <;> nofun
    refine hrows.moved hn rfl hinv (by rw [hpc]; nofun) hpc' fun _ => .inr ?_
    -- the one-shots of its automation that were settled are disabled now
    intro a' ha' hid
    obtain ⟨a, ha, rfl⟩ := List.mem_map.mp ha'
    by_cases hp : (s.base.db.oneShotSettled a &&
        (some c.automationId).all (· = a.id)) = true
    · rw [if_pos hp]
      cases hshot : oneShotSettled _ _ with
      | false => rfl
      | true => exact absurd (oneShotSettled_iff.mp hshot).1.enabled Bool.false_ne_true
    · rw [if_neg hp] at hid ⊢
      have hfalse : s.base.db.oneShotSettled a = false := by
        simpa [hid] using hp
      exact hfalse
  next hpc =>
    cases hs
    rw [hquiet (by rw [hpc]; nofun)]
    by_cases hun : s.base.db.failureUncounted c.invocationId = true
    · simp only [hun, if_true]
      exact h.marked hn hpc hun now
    · have hfalse : s.base.db.failureUncounted c.invocationId = false := by simpa using hun
      rw [tryMark_counted hfalse]
      simp only [hfalse, Bool.false_eq_true, if_false]
      obtain ⟨i, hi, hid, _⟩ := hc.known
      have hcounted := counted_of_uncounted hi (hid ▸ hfalse)
      rw [hid] at hcounted
      have hstreak := hc.noStreak (by rw [hpc]; nofun) (by rw [hpc]; nofun) (by rw [hpc]; nofun)
      refine h.moved hn rfl (hc.ending (.inr rfl) (fun _ => hcounted) ?_) (by rw [hpc]; nofun)
        nofun fun hf => .inl (finalized_of_moved (by rw [hpc]; nofun) hf)
      intro _ m hm
      rw [hm] at hstreak
      cases hstreak
  next hpc =>
    cases hs
    exact h.incremented hn hpc
  next hpc =>
    cases hs
    rw [hquiet (by rw [hpc]; nofun)]
    have hcounted : c.strikes = true → Counted s.base.db c.invocationId := fun hst =>
      hc.counted (by rw [OutcomeCall.struck, hst, hpc]; rfl)
    split
    next =>
      exact h.moved hn rfl (hc.ending (.inl rfl) hcounted nofun) (by rw [hpc]; nofun) nofun
        fun hf => .inl (finalized_of_moved (by rw [hpc]; nofun) hf)
    next hbelow =>
      refine h.moved hn rfl (hc.ending (.inr rfl) hcounted ?_) (by rw [hpc]; nofun) nofun
        fun hf => .inl (finalized_of_moved (by rw [hpc]; nofun) hf)
      intro _ m hm hle hlive
      exact absurd (hle.trans (hc.reached hpc m hm hlive)) hbelow
  next hpc =>
    cases hs
    rw [hquiet (by rw [hpc]; nofun)]
    have hrows : AccountInv { s with base := { s.base with
        db := s.base.db.autoPause c.automationId } } :=
      h.carryRows _ _ _ (fun _ h => h) (fun _ h => h) (fun _ _ _ _ _ _ => le_rfl)
        fun _ _ hs => absurd hs.enabled Bool.false_ne_true
    have hc' := hrows.calls c hmem
    have hcounted : c.strikes = true → Counted (s.base.db.autoPause c.automationId)
        c.invocationId := fun hst => hc'.counted (by rw [OutcomeCall.struck, hst, hpc]; rfl)
    exact hrows.moved hn rfl (hc'.ending (.inr rfl) hcounted fun _ _ _ _ _ => rfl)
      (by rw [hpc]; nofun) nofun fun hf => .inl (finalized_of_moved (by rw [hpc]; nofun) hf)
  next hpc =>
    cases hs
    rw [hquiet (by rw [hpc]; nofun)]
    have hrows : AccountInv { s with base := { s.base with
        db := s.base.db.resetConsecutiveFailures c.automationId } } := by
      refine h.carryRows _ _ _ (fun _ h => h) (fun _ h => h) ?_
        fun _ _ hs => ⟨⟨hs.schedule, hs.once, hs.enabled, hs.live, hs.noSlot⟩, rfl⟩
      intro k hk a hp hkc hid
      rw [Bool.and_eq_true, decide_eq_true_eq] at hp
      exact absurd (hid.symm.trans hp.1) (hok hpc k hk hkc)
    have hc' := hrows.calls c hmem
    have hstreak := hc.noStreak (by rw [hpc]; nofun) (by rw [hpc]; nofun) (by rw [hpc]; nofun)
    refine hrows.moved hn rfl (hc'.ending (.inr rfl) ?_ ?_) (by rw [hpc]; nofun) nofun
      fun hf => .inl (finalized_of_moved (by rw [hpc]; nofun) hf)
    · intro hst
      rw [hc.sawNone hpc] at hst
      cases hst
    · intro _ m hm
      rw [hm] at hstreak
      cases hstreak
  next => cases hs

/-- **One step keeps the invariant.** -/
theorem step {t : AccountingState} {act : AccountingAct} (h : AccountInv s)
    (hok : Undisturbed s act) (hs : accounting.step s act = some t) : AccountInv t := by
  simp only [accounting] at hs
  cases act with
  | base act =>
    simp only [accountingStep] at hs
    split at hs
    next hout =>
      obtain ⟨base, hbase, rfl⟩ := Option.map_eq_some_iff.mp hs
      have haside : (∀ st, act ≠ .other (.run st)) →
          (∀ c ∈ s.calls, c.pc = .counting → act.forgets c.automationId = false) →
          AccountInv { s with base } := fun hrun hforgets =>
        h.aside (h.base.step hbase) (firing_aside h.base hout hrun hbase) hforgets
      cases act with
      | begin caller => exact haside nofun hok
      | resume n answer => exact haside nofun hok
      | other statement =>
        cases statement with
        | edit edit => exact haside nofun hok
        | ledger st => exact haside nofun hok
        | run st =>
          cases hbase
          exact h.ran st hok
    next => cases hs
  | disableSettledOneShots =>
    cases hs
    exact h.carryRows _ _ _ (fun _ h => h) (fun _ h => h) (fun _ _ _ _ _ _ => le_rfl)
      fun _ _ hs => absurd hs.enabled Bool.false_ne_true
  | apply invocationId =>
    obtain ⟨i, hi, rfl⟩ := Option.map_eq_some_iff.mp hs
    exact h.applied (Table.mem_of_get? hi)
  | resume n now =>
    obtain ⟨c, hn, hs⟩ := Option.bind_eq_some_iff.mp hs
    obtain ⟨⟨db', c'⟩, hstep, rfl⟩ := Option.map_eq_some_iff.mp hs
    exact h.resumed hn hstep (hok c (Option.mem_toList.mpr hn))

/-! ## The sweep -/

/-- Every settled one-shot is finalized once all outcomes were applied. -/
theorem noOneShots (h : AccountInv s) (hall : s.AllApplied) :
    ∀ a ∈ s.base.db.automations.rows, s.base.db.oneShotSettled a = false := by
  intro a ha
  cases hs : s.base.db.oneShotSettled a with
  | false => rfl
  | true =>
    obtain ⟨i, hi, _, hset, hnone⟩ := h.oneShots a ha hs
    obtain ⟨⟨c, hc, hci, hpc, hg⟩, _⟩ := hall i hi hset
    have hfinal : c.finalized = true := by
      obtain ⟨htotal, hactive⟩ := settled_iff.mp hset
      rw [OutcomeCall.finalized, hg, hpc]
      simp [hactive, Nat.pos_of_ne_zero htotal]
    rw [hnone c hc hci] at hfinal
    cases hfinal

/-- The failure of a settled invocation was counted once all outcomes were applied. -/
theorem countedOf (h : AccountInv s) {i : AutomationInvocationRow}
    (hset : s.base.db.Settled i.id) (hf : ∃ r ∈ s.base.db.children i.id, r.status = .failed)
    (happlied : s.Applied i.id) : Counted s.base.db i.id := by
  obtain ⟨⟨c, hc, hci, hpc, hg⟩, _⟩ := happlied
  have hst := aggregate_strikes.mpr (hset.strikeDue hf)
  rw [← hci]
  refine (h.calls c hc).counted ?_
  rw [OutcomeCall.struck, OutcomeCall.strikes, hg, hpc]
  simpa using hst

theorem uncountedOutcomes_nil (h : AccountInv s) (hall : s.AllApplied) (since : Millis) :
    uncountedOutcomes s.base.db since = [] := by
  have hfilter : s.base.db.invocations.table.rows.filter (s.base.db.uncountedFailed since) = [] := by
    rw [List.filter_eq_nil_iff]
    intro i hi hun
    simp only [uncountedFailed, Bool.and_eq_true, List.any_eq_true, decide_eq_true_eq,
      Bool.not_eq_true', List.any_eq_false, Bool.not_eq_true, Option.isNone_iff_eq_none] at hun
    obtain ⟨⟨⟨_, hnone⟩, hf⟩, hidle⟩ := hun
    have hset : s.base.db.Settled i.id := by
      obtain ⟨r, hr, _⟩ := hf
      exact ⟨List.ne_nil_of_mem hr, hidle⟩
    obtain ⟨j, hj, hid, hcounted⟩ := h.countedOf hset hf (hall i hi hset)
    rw [Table.eq_of_key hj hi hid] at hcounted
    exact hcounted hnone
  unfold uncountedOutcomes getUncountedFailedInvocations
  rw [hfilter]
  rfl

end AccountInv

section Sweep

variable {db : AutomationDb} {now : Millis}

theorem disable_of_none (h : ∀ a ∈ db.automations.rows, db.oneShotSettled a = false)
    (automationId : Option Id) : db.disableSettledOneShots automationId = db := by
  have htable := @Table.update_of_none _ _ _ db.automations
    (fun a => db.oneShotSettled a && automationId.all (· = a.id))
    (fun a => { a with enabled := false }) (fun _ => rfl) (by
      intro a ha
      rw [h a ha, Bool.false_and])
  unfold disableSettledOneShots updateAutomations
  rw [htable]

/-- A call changes nothing where no one-shot is settled, the outcome is no reset and the
strike, if it is one, was counted. -/
theorem applyInvocationOutcome_same
    (hshots : ∀ a ∈ db.automations.rows, db.oneShotSettled a = false) (outcome : Id × Id)
    (hresets : (db.getInvocationRunAggregate outcome.2).resets = false)
    (hcounted : ¬((db.getInvocationRunAggregate outcome.2).strikes = true ∧
      db.failureUncounted outcome.2 = true)) :
    applyInvocationOutcome db outcome.1 outcome.2 now = db := by
  have hdone : ∀ n (c : OutcomeCall), c.pc = .done → OutcomeCall.run now n db c = db := by
    intro n c hc
    cases n with
    | zero => rfl
    | succ n => rw [OutcomeCall.run, OutcomeCall.step, hc]
  have hsettle : ∀ n (c : OutcomeCall), c.invocationId = outcome.2 →
      c.pc = OutcomeCall.settle (db.getInvocationRunAggregate outcome.2) →
      OutcomeCall.run now (n + 2) db c = db := by
    intro n c hid hc
    rw [settle_eq] at hc
    split at hc
    next hst =>
      have hfalse : db.failureUncounted outcome.2 = false := by
        simpa [hst] using hcounted
      rw [OutcomeCall.run, OutcomeCall.step, hc, hid]
      simp only [tryMark_counted hfalse, hfalse]
      exact hdone (n + 1) _ rfl
    next =>
      rw [hresets] at hc
      exact hdone (n + 2) c hc
  unfold applyInvocationOutcome OutcomeCall.statements
  rw [OutcomeCall.run, OutcomeCall.step]
  by_cases htotal : (db.getInvocationRunAggregate outcome.2).total = 0
  · simp only [htotal, if_true]
    exact hdone 5 _ rfl
  · by_cases hactive : (db.getInvocationRunAggregate outcome.2).active = 0
    · simp only [htotal, hactive, if_true, if_false]
      rw [OutcomeCall.run, OutcomeCall.step]
      simp only [Option.map_some, disable_of_none hshots]
      exact hsettle 2 _ rfl rfl
    · simp only [htotal, hactive, if_false]
      exact hsettle 3 _ rfl rfl

theorem applyOutcomes_same {outcomes : List (Id × Id)}
    (h : ∀ outcome ∈ outcomes, applyInvocationOutcome db outcome.1 outcome.2 now = db) :
    applyOutcomes db now outcomes = db := by
  unfold applyOutcomes
  induction outcomes with
  | nil => rfl
  | cons outcome outcomes ih =>
    rw [List.foldl_cons, h outcome (.head _)]
    exact ih fun o ho => h o (.tail _ ho)

end Sweep

/-! ## The result -/

variable {s t : AccountingState}

/-- A step that changes rows of automations without adding to a streak. -/
theorem StreakStep.rows {p : AutomationRow → Bool}
    {f : AutomationRow → AutomationRow}
    (ht : t.base.db.automations.rows =
      s.base.db.automations.rows.map fun a => if p a then f a else a)
    (hf : ∀ a, (f a).id = a.id) (hle : ∀ a, (f a).consecutiveFailures ≤ a.consecutiveFailures)
    (hs : t.strikes = s.strikes) : StreakStep s t := by
  refine .noStrike hs fun a' ha' => ?_
  rw [ht] at ha'
  obtain ⟨a, ha, rfl⟩ := List.mem_map.mp ha'
  refine ⟨a, ha, ?_, ?_⟩
  · split
    · exact (hf a).symm
    · rfl
  · split
    · exact hle a
    · exact le_rfl

theorem StreakStep.same (ht : t.base.db.automations = s.base.db.automations)
    (hs : t.strikes = s.strikes) :
    StreakStep s t :=
  .noStrike hs fun a ha => ⟨a, ht ▸ ha, rfl, le_rfl⟩

theorem AccountInv.streakStep {act : AccountingAct} (h : AccountInv s)
    (hs : accounting.step s act = some t) : StreakStep s t := by
  simp only [accounting] at hs
  cases act with
  | base act =>
    simp only [accountingStep] at hs
    split at hs
    next hout =>
      obtain ⟨base, hbase, rfl⟩ := Option.map_eq_some_iff.mp hs
      by_cases hrun : ∃ st, act = .other (.run st)
      · obtain ⟨st, rfl⟩ := hrun
        cases hbase
        exact .same (st.exec_frame s.base.db).1 rfl
      · push Not at hrun
        have haside := firing_aside h.base hout hrun hbase
        refine .noStrike rfl fun a' ha' => ?_
        obtain ⟨a, ha, hid, _, hstreak, _⟩ := haside.rows a' ha'
        refine ⟨a, ha, hid, ?_⟩
        rcases hstreak with he | ⟨_, hzero⟩
        · exact he.le
        · rw [hzero]
          exact Nat.zero_le _
    next => cases hs
  | disableSettledOneShots =>
    cases hs
    exact .rows rfl (fun _ => rfl) (fun _ => le_rfl) rfl
  | apply invocationId =>
    obtain ⟨i, _, rfl⟩ := Option.map_eq_some_iff.mp hs
    exact .same rfl rfl
  | resume n now =>
    obtain ⟨c, hn, hs⟩ := Option.bind_eq_some_iff.mp hs
    obtain ⟨⟨db', c'⟩, hstep, rfl⟩ := Option.map_eq_some_iff.mp hs
    have hc := h.calls c (List.mem_of_getElem? hn)
    have hquiet : c.pc ≠ .incrementing → c.strike s.base.db ++ s.strikes = s.strikes := by
      intro hpc
      rw [OutcomeCall.strike, if_neg fun hp => hpc hp.1, List.nil_append]
    unfold OutcomeCall.step at hstep
    split at hstep
    next hpc =>
      cases hstep
      exact .same rfl (hquiet (by rw [hpc]; nofun))
    next hpc =>
      obtain ⟨g, _, hstep⟩ := Option.map_eq_some_iff.mp hstep
      cases hstep
      exact .rows rfl (fun _ => rfl) (fun _ => le_rfl) (hquiet (by rw [hpc]; nofun))
    next hpc =>
      cases hstep
      exact .same rfl (hquiet (by rw [hpc]; nofun))
    next hpc =>
      cases hstep
      obtain ⟨i, hi, hid, hauto⟩ := hc.known
      have hdue : s.base.db.StrikeDue i.id := by
        rw [hid]
        refine hc.due ?_
        rw [OutcomeCall.mayStrike, hc.sawStrike (.inr hpc), hpc]
        rfl
      by_cases hlive : s.base.db.Live c.automationId
      · refine .strike i hi hdue ?_ ?_
        · show c.strike s.base.db ++ s.strikes = i.id :: s.strikes
          rw [OutcomeCall.strike, if_pos ⟨hpc, hlive⟩, hid]
          rfl
        · obtain ⟨row, hrow, hrowid, hrowlive⟩ := live_iff.mp hlive
          intro a' ha'
          obtain ⟨a, ha, rfl⟩ := List.mem_map.mp ha'
          refine ⟨a, ha, by split <;> rfl, ?_⟩
          by_cases hac : a.id = c.automationId
          · have har : a = row := Table.eq_of_key ha hrow (hac.trans hrowid.symm)
            simp [har, hauto, hrowid, hrowlive]
          · simp [hac, hauto]
      · refine .noStrike ?_ ?_
        · show c.strike s.base.db ++ s.strikes = s.strikes
          rw [OutcomeCall.strike, if_neg fun hp => hlive hp.2, List.nil_append]
        · intro a' ha'
          obtain ⟨a, ha, rfl⟩ := List.mem_map.mp ha'
          have hmiss : (a.id = c.automationId && a.deletedAt.isNone) = false := by
            by_cases hac : a.id = c.automationId
            · cases hdel : a.deletedAt with
              | none => exact absurd (live_iff.mpr ⟨a, ha, hac, hdel⟩) hlive
              | some at' => simp
            · simp [hac]
          refine ⟨a, ha, ?_, ?_⟩
          · simp [hmiss]
          · simp [hmiss]
    next hpc =>
      cases hstep
      exact .same rfl (hquiet (by rw [hpc]; nofun))
    next hpc =>
      cases hstep
      exact .rows rfl (fun _ => rfl) (fun _ => le_rfl) (hquiet (by rw [hpc]; nofun))
    next hpc =>
      cases hstep
      exact .rows rfl (fun _ => rfl) (fun _ => Nat.zero_le _) (hquiet (by rw [hpc]; nofun))
    next => cases hstep

theorem AccountInv.accounted {s : AccountingState} (h : AccountInv s) : Accounted s where
  onePerInvocation := List.nodup_iff_count_le_one.mp h.once
  streaks _ _ hs := h.streakStep hs
  exactlyOne i hi hset hf happlied hlive := by
    obtain ⟨j, hj, hid, hcounted⟩ := h.countedOf hset hf happlied
    rw [Table.eq_of_key hj hi hid] at hcounted
    refine List.count_eq_one_of_mem h.once ?_
    rcases h.exact i hi hcounted hlive with hst | ⟨c, hc, hci, hcid⟩
    · exact hst
    · exact absurd hci (happlied.2 c hc hcid)
  autoPaused c hc hpc n hn hle hlive := (h.calls c hc).paused hpc n hn hle hlive
  sweepHarmless hall since now hsafe := by
    have hshots := h.noOneShots hall
    unfold finalizationSweep
    simp only [disable_of_none hshots, h.uncountedOutcomes_nil hall]
    refine applyOutcomes_same fun outcome hmem => ?_
    obtain ⟨hresets, hcounted⟩ := hsafe outcome hmem
    exact applyInvocationOutcome_same hshots outcome hresets hcounted

/-- **Every failure is counted once**, in every run whose steps leave the reasons of
strikes and the streaks being read alone; and a sweep repeats none of it where it is
safe. -/
theorem failures_counted_once {automations : Table AutomationRow.id} {teams : Table TeamRow.id}
    {s : AccountingState}
    (h : accounting.Reachable Undisturbed (.initial (.created automations teams)) s) :
    Accounted s :=
  (h.inv AccountInv (.initial automations teams) fun _ _ _ hi hok hs => hi.step hok hs).accounted

/-! ## Two runs -/

/-- Two manual firings of one automation, `20` and then `30`, with a run each. -/
def overlappingFirings : List AccountingAct :=
  [.base (.begin (.trigger 1)), .base (.resume 0 (.identity none 10)),
    .base (.resume 0 (.stored 10)), .base (.resume 0 (.prepared 20 [(21, none)] none)),
    .base (.resume 0 (.stored 10)),
    .base (.begin (.trigger 1)), .base (.resume 1 (.identity none 20)),
    .base (.resume 1 (.stored 20)), .base (.resume 1 (.prepared 30 [(31, none)] none)),
    .base (.resume 1 (.stored 20))]

/-- One of the runs completes, then the other fails; each outcome is applied. -/
def completedThenFailed (completed failed : Id × Id) : List AccountingAct :=
  [.base (.other (.run (.updateRun completed.2 .completed 40))), .apply completed.1,
    .resume 0 41, .resume 0 42, .resume 0 43,
    .base (.other (.run (.updateRun failed.2 (.failed "tests failed") 50))), .apply failed.1,
    .resume 1 51, .resume 1 52, .resume 1 53, .resume 1 54, .resume 1 55]

def sharedAutomation : AutomationRow where
  id := 1
  triggerType := .webhook
  maxConcurrentRuns := 2
  userId := some 7

/-- The newer firing fails last: its strike is the streak, and the sweep leaves it. -/
theorem failures_counted_once_newer :
    ∃ s, accounting.run Undisturbed
        (.initial (.created ⟨[sharedAutomation], by decide⟩ .empty))
        (overlappingFirings ++ completedThenFailed (20, 21) (30, 31)) = some s ∧
      s.strikes = [30] ∧
      (finalizationSweep s.base.db 0 60).automations.rows.map
        AutomationRow.consecutiveFailures = [1] ∧ Accounted s := by
  have hrun : (accounting.run Undisturbed
      (.initial (.created ⟨[sharedAutomation], by decide⟩ .empty))
      (overlappingFirings ++ completedThenFailed (20, 21) (30, 31))).map (fun s =>
        (s.strikes, (finalizationSweep s.base.db 0 60).automations.rows.map
          AutomationRow.consecutiveFailures)) = some ([30], [1]) := by decide
  obtain ⟨s, hs, hshape⟩ := Option.map_eq_some_iff.mp hrun
  obtain ⟨hstrikes, hsweep⟩ := Prod.mk.inj hshape
  exact ⟨s, hs, hstrikes, hsweep, failures_counted_once (System.run_reachable hs)⟩

/-- **A sweep erases a strike.** The newer firing completes and resets the streak, the
older one fails after it and strikes, every outcome was applied; the sweep applies that of
the newer one again, and the streak is gone. -/
theorem sweep_erases_strike :
    ∃ s, accounting.Reachable anyStep
        (.initial (.created ⟨[sharedAutomation], by decide⟩ .empty)) s ∧
      s.AllApplied ∧ s.strikes = [20] ∧
      s.base.db.automations.rows.map AutomationRow.consecutiveFailures = [1] ∧
      (finalizationSweep s.base.db 0 60).automations.rows.map
        AutomationRow.consecutiveFailures = [0] := by
  have hrun : (accounting.run anyStep
      (.initial (.created ⟨[sharedAutomation], by decide⟩ .empty))
      (overlappingFirings ++ completedThenFailed (30, 31) (20, 21))).map (fun s =>
        (decide s.AllApplied, s.strikes,
          s.base.db.automations.rows.map AutomationRow.consecutiveFailures,
          (finalizationSweep s.base.db 0 60).automations.rows.map
            AutomationRow.consecutiveFailures)) = some (true, [20], [1], [0]) := by decide
  obtain ⟨s, hs, hshape⟩ := Option.map_eq_some_iff.mp hrun
  obtain ⟨hall, hshape⟩ := Prod.mk.inj hshape
  obtain ⟨hstrikes, hshape⟩ := Prod.mk.inj hshape
  obtain ⟨hbefore, hafter⟩ := Prod.mk.inj hshape
  exact ⟨s, System.run_reachable hs, of_decide_eq_true hall, hstrikes, hbefore, hafter⟩

end BackgroundAgents.Automation

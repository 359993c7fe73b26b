import BackgroundAgents.Session.AlarmScheduler

/-!
# No alarm deadline is lost

`no_deadline_lost`: in every run, from any row and any alarm, a pending
deadline is covered once everything has come to rest: the row is not cancelled
and the alarm is set no later. It is stated over the runs whose steps meet
`AlarmAct.safe`, which keeps two orders out:

* a `rearmPending()` that starts with a deadline pending in a cancelled row: it
  sets the alarm and, unlike `schedule()` and `rehydrate()`, leaves the row
  cancelled, so that the delivery it armed answers `cancelled`
  (`rearmed_while_cancelled`);
* a delivery that begins between the `setAlarm` of a reactivating operation
  and its `activate`, with the alarm it was for gone.

The invariant is `AlarmInv`: what an operation in progress has established so
far, call by call (`Promised`), and that a delivery in progress will make good
the slot that its alarm left empty (`Covers`).
-/

namespace BackgroundAgents.Session

open BackgroundAgents.Transition

/-! ## The row -/

namespace AlarmDeadlines

@[simp] theorem pending_setPending (d : AlarmDeadlines) (t : Millis) :
    (d.setPending t).pending = some t := by
  cases d <;> rfl

@[simp] theorem cancelled_setPending (d : AlarmDeadlines) (t : Millis) :
    (d.setPending t).cancelled = d.cancelled := by
  cases d <;> rfl

@[simp] theorem inFlight_setPending (d : AlarmDeadlines) (t : Millis) :
    (d.setPending t).inFlight = d.inFlight := by
  cases d <;> rfl

@[simp] theorem inFlight_setPendingEarliest (d : AlarmDeadlines) (t : Millis) :
    (d.setPendingEarliest t).inFlight = d.inFlight := by
  cases d <;> rfl

@[simp] theorem pending_activate (d : AlarmDeadlines) : d.activate.pending = d.pending := by
  cases d <;> rfl

@[simp] theorem cancelled_activate (d : AlarmDeadlines) : d.activate.cancelled = false := by
  cases d <;> rfl

@[simp] theorem inFlight_activate (d : AlarmDeadlines) : d.activate.inFlight = d.inFlight := by
  cases d <;> rfl

@[simp] theorem pending_clear (d : AlarmDeadlines) : d.clear.pending = none := rfl

@[simp] theorem inFlight_clear (d : AlarmDeadlines) : d.clear.inFlight = none := rfl

@[simp] theorem pending_completeDelivery (d : AlarmDeadlines) :
    d.completeDelivery.pending = d.pending := by
  cases d <;> rfl

@[simp] theorem cancelled_completeDelivery (d : AlarmDeadlines) :
    d.completeDelivery.cancelled = d.cancelled := by
  cases d <;> rfl

@[simp] theorem inFlight_completeDelivery (d : AlarmDeadlines) :
    d.completeDelivery.inFlight = none := by
  cases d <;> rfl

theorem cancelled_of_beginDelivery {d d' : AlarmDeadlines}
    (h : d.beginDelivery = (.cancelled, d')) : d.cancelled = true ∧ d' = d := by
  unfold beginDelivery at h
  split at h
  next => cases h
  next state =>
    split at h
    next hc =>
      cases h
      exact ⟨hc, rfl⟩
    next => cases h

/-- A delivery that begins takes the pending deadline, unless one is in flight
already: then that one is delivered again, and the pending one stays. -/
theorem delivered_of_beginDelivery {d d' : AlarmDeadlines} {x : Option Millis}
    (h : d.beginDelivery = (.delivered x, d')) :
    d.cancelled = false ∧ d'.cancelled = false ∧ d'.inFlight = x ∧
      (d'.pending = none ∨ d'.pending = d.pending ∧ ∃ y, x = some y) := by
  unfold beginDelivery at h
  split at h
  next =>
    cases h
    exact ⟨rfl, rfl, rfl, .inl rfl⟩
  next state =>
    split at h
    next => cases h
    next hc =>
      obtain ⟨p, f, c⟩ := state
      obtain rfl : c = false := by simpa using hc
      cases h
      cases f with
      | none => exact ⟨rfl, rfl, rfl, .inl rfl⟩
      | some y => exact ⟨rfl, rfl, rfl, .inr ⟨rfl, y, rfl⟩⟩

theorem earliest_le {d : AlarmDeadlines} {e p : Millis} (he : d.earliest = some e)
    (hp : d.pending = some p) : e ≤ p := by
  cases d with
  | none => cases hp
  | some state =>
    obtain ⟨pending, f, c⟩ := state
    obtain rfl : pending = some p := hp
    cases c with
    | true => simp [earliest] at he
    | false =>
      cases f with
      | none =>
        obtain rfl : p = e := by simpa [earliest] using he
        exact Nat.le_refl _
      | some f =>
        obtain rfl : min p f = e := by simpa [earliest] using he
        exact Nat.min_le_left _ _

theorem pending_of_earliest_none {d : AlarmDeadlines} (hc : d.cancelled = false)
    (he : d.earliest = none) : d.pending = none := by
  cases d with
  | none => rfl
  | some state =>
    obtain ⟨p, f, c⟩ := state
    obtain rfl : c = false := hc
    cases p with
    | none => rfl
    | some p => cases f <;> simp [earliest] at he

end AlarmDeadlines

/-! ## The invariant -/

/-- The deadline a delivery in progress was begun for. -/
def Delivery.deadline : Delivery → Option Millis
  | .idle | .fired => none
  | .handling delivered => delivered
  | .handled x | .rearming x | .rearmed x | .rearmFailed x => some x

/-- The delivery in progress will still begin, or still rearm. -/
def Delivery.WillRearm : Delivery → Prop
  | .fired | .handling (some _) | .handled _ => True
  | _ => False

namespace AlarmState

/-- Somebody wakes the session for the pending deadline `p`. -/
inductive Covers (s : AlarmState) (p : Millis) : Prop where
  | armed (r : Millis) (set : s.alarm = some r) (le : r ≤ p)
  | delivering (empty : s.alarm = none) (will : s.delivery.WillRearm)
  | retrying (again : s.redelivering = true) (r : Millis) (set : s.alarm = some r)

/-- What the operation in progress, or the last one if it succeeded, has
established about the pending deadline `p`. -/
def Promised (s : AlarmState) (p : Millis) : Prop :=
  match s.running with
  | none => s.succeeded = true → s.cancelled = false ∧ s.Covers p
  | some ⟨.getAlarm d, answer⟩ =>
    s.cancelled = false ∧ d ≤ p ∧
      ∀ r, answer = some (.resolved (some r)) → r ≤ d → s.Covers p
  | some ⟨.setAlarm d activates, answer⟩ =>
    s.cancelled = activates ∧ d ≤ p ∧ ∀ r, answer = some (.resolved r) → s.Covers p
  | some ⟨.deleteAlarm d activates, _⟩ =>
    activates = true ∧ s.cancelled = true ∧ ∃ e, d = some e ∧ e ≤ p

/-- Everything has come to rest after an operation that succeeded, with no direct
write since it began. -/
structure AtRest (s : AlarmState) : Prop where
  running : s.running = none
  delivery : s.delivery = .idle
  succeeded : s.succeeded = true
  written : s.written = false

end AlarmState

/-- Only the delivery in progress has its deadline in flight. -/
def AlarmState.OwnFlight (s : AlarmState) : Prop :=
  ∀ x, s.delivery.deadline = some x →
    s.deadlines.inFlight = none ∨ s.deadlines.inFlight = some x

structure AlarmInv (s : AlarmState) : Prop where
  flight : s.OwnFlight
  promised : s.written = false → ∀ p, s.pending = some p → s.Promised p

/-- The two orders that lose a deadline, as conditions on the state a step starts
from. -/
def AlarmAct.safe (s : AlarmState) : AlarmAct → Bool
  | .start .rearmPending | .rearm => !(s.cancelled && s.pending.isSome)
  | .beginDelivery =>
    match s.running with
    | some ⟨.setAlarm _ true, some (.resolved _)⟩ => s.alarm.isSome
    | _ => true
  | _ => true

/-! ## Operations -/

namespace AlarmInv

variable {s : AlarmState}

theorem flight_finish (h : s.OwnFlight) (success : Bool) : (s.finish success).OwnFlight := by
  intro x hx
  refine h x ?_
  cases hd : s.delivery <;> cases success <;> simp_all [AlarmState.finish, Delivery.deadline]

/-- The operation in progress succeeds. -/
theorem finish (h : s.OwnFlight)
    (hp : s.written = false → ∀ p, s.pending = some p → s.cancelled = false ∧ s.Covers p) :
    AlarmInv (s.finish true) := by
  refine ⟨flight_finish h true, ?_⟩
  intro hw p hpp _
  obtain ⟨hc, hcov⟩ := hp hw p hpp
  refine ⟨hc, ?_⟩
  cases hcov with
  | armed r set le => exact .armed r set le
  | retrying again r set => exact .retrying again r set
  | delivering empty will =>
    refine .delivering empty ?_
    cases hd : s.delivery <;> simp_all [AlarmState.finish, Delivery.WillRearm]

/-- The operation in progress fails: it has promised nothing. -/
theorem finish_failed (h : s.OwnFlight) : AlarmInv (s.finish false) := by
  refine ⟨flight_finish h false, ?_⟩
  intro _ _ _ hs
  cases hs

/-- An operation that found the row cancelled ends, with its alarm set. -/
theorem reactivated {activates : Bool} (h : s.OwnFlight)
    (hp : s.written = false → ∀ p, s.pending = some p →
      s.cancelled = activates ∧ s.Covers p) :
    AlarmInv (s.reactivated activates) := by
  cases activates with
  | false => exact finish h hp
  | true =>
    refine finish (fun x hx => by simpa using h x hx) ?_
    intro hw p hpp
    refine ⟨AlarmDeadlines.cancelled_activate _, ?_⟩
    cases (hp hw p ((AlarmDeadlines.pending_activate _).symm.trans hpp)).2 with
    | armed r set le => exact .armed r set le
    | retrying again r set => exact .retrying again r set
    | delivering empty will => exact .delivering empty will

/-- A schedule that has stored its deadline awaits the runtime. -/
theorem schedule_stored {next : Millis} (h : s.OwnFlight) (hp : s.pending = some next) :
    AlarmInv (if s.cancelled then s.await (.deleteAlarm (some next) true)
      else s.await (.getAlarm next)) := by
  split
  next hc =>
    refine ⟨h, fun _ p hpp => ⟨rfl, hc, next, rfl, ?_⟩⟩
    have he : some next = some p := hp.symm.trans hpp
    cases he
    exact Nat.le_refl _
  next hc =>
    have hc : s.cancelled = false := by simpa using hc
    refine ⟨h, fun _ p hpp => ⟨hc, ?_, ?_⟩⟩
    · have he : some next = some p := hp.symm.trans hpp
      cases he
      exact Nat.le_refl _
    · intro r hr
      cases hr

/-- The first turn of an operation, with nothing promised before it. -/
theorem startOp (h : s.OwnFlight) (op : SchedulerOp)
    (hop : op = .rearmPending → s.cancelled = true → s.pending = none) :
    AlarmInv (s.startOp op) := by
  cases op with
  | schedule t =>
    simp only [AlarmState.startOp]
    generalize AlarmState.sooner s.deadlines.pending t = next
    by_cases hn : some next ≠ s.deadlines.pending
    · rw [if_pos hn]
      have hs := schedule_stored
        (s := { s with deadlines := s.deadlines.setPending next })
        (fun x hx => by simpa using h x hx) (AlarmDeadlines.pending_setPending _ next)
      simpa [AlarmState.cancelled] using hs
    · rw [if_neg hn]
      exact schedule_stored h (not_not.mp hn).symm
  | cancel => exact ⟨fun _ _ => .inl rfl, fun _ p hp => by cases hp⟩
  | rehydrate =>
    simp only [AlarmState.startOp]
    split
    next hc => exact ⟨h, fun _ p hp => ⟨rfl, hc, p, hp, Nat.le_refl _⟩⟩
    next hc =>
      have hc : s.deadlines.cancelled = false := by simpa using hc
      split
      next he =>
        refine finish h fun _ p hp => ?_
        rw [AlarmState.pending, AlarmDeadlines.pending_of_earliest_none hc he] at hp
        cases hp
      next d he =>
        refine ⟨h, fun _ p hp => ⟨hc, AlarmDeadlines.earliest_le he hp, ?_⟩⟩
        intro r hr
        cases hr
  | rearmPending =>
    simp only [AlarmState.startOp]
    split
    next hn =>
      refine finish h fun _ p hp => ?_
      rw [AlarmState.pending, hn] at hp
      cases hp
    next q hq =>
      have hc : s.cancelled = false := by
        by_contra hc
        have hnone := hop rfl (by simpa using hc)
        rw [AlarmState.pending, hq] at hnone
        cases hnone
      refine ⟨h, fun _ p hp => ⟨hc, ?_, ?_⟩⟩
      · have he : some q = some p := hq.symm.trans hp
        cases he
        exact Nat.le_refl _
      · intro r hr
        cases hr

/-- An operation gets its turn. -/
theorem begin (h : s.OwnFlight) (op : SchedulerOp)
    (hop : op = .rearmPending → s.cancelled = true → s.pending = none) :
    AlarmInv (s.begin op) :=
  startOp (s := { s with succeeded := false, written := false, redelivering := false }) h op hop

/-- A call of the runtime takes effect, or fails. -/
theorem perform (h : AlarmInv s) {call : RuntimeCall} (hr : s.running = some ⟨call, none⟩)
    (outcome : CallOutcome) : AlarmInv (s.perform call outcome) := by
  refine ⟨h.flight, fun hw p hp => ?_⟩
  have hprom := h.promised hw p hp
  cases call with
  | getAlarm d =>
    simp only [AlarmState.Promised, hr] at hprom
    obtain ⟨hc, hd, -⟩ := hprom
    refine ⟨hc, hd, ?_⟩
    intro r hans hrd
    cases outcome with
    | fails applied => cases hans
    | succeeds =>
      have ha : s.alarm = some r := by
        simpa [CallOutcome.answer] using hans
      exact .armed r ha (Nat.le_trans hrd hd)
  | setAlarm d activates =>
    simp only [AlarmState.Promised, hr] at hprom
    obtain ⟨hc, hd, -⟩ := hprom
    refine ⟨hc, hd, ?_⟩
    intro r hans
    cases outcome with
    | fails applied => cases hans
    | succeeds => exact .armed d rfl hd
  | deleteAlarm d activates =>
    simp only [AlarmState.Promised, hr] at hprom
    exact hprom

/-- The code after an await. -/
theorem resume (h : AlarmInv s) {call : RuntimeCall} {answer : CallAnswer}
    (hr : s.running = some ⟨call, some answer⟩) : AlarmInv (s.resume call answer) := by
  cases answer with
  | rejected => exact finish_failed h.flight
  | resolved runtime =>
    cases call with
    | getAlarm d =>
      have hprom := h.promised
      simp only [AlarmState.Promised, hr] at hprom
      simp only [AlarmState.resume]
      split
      next hset =>
        refine ⟨h.flight, fun hw p hp => ?_⟩
        obtain ⟨hc, hd, -⟩ := hprom hw p hp
        refine ⟨hc, hd, ?_⟩
        intro r hans
        cases hans
      next hset =>
        refine finish h.flight fun hw p hp => ?_
        obtain ⟨hc, -, hcov⟩ := hprom hw p hp
        cases runtime with
        | none => simp at hset
        | some r => exact ⟨hc, hcov r rfl (by simpa using hset)⟩
    | setAlarm d activates =>
      refine reactivated h.flight fun hw p hp => ?_
      have hprom := h.promised hw p hp
      simp only [AlarmState.Promised, hr] at hprom
      exact ⟨hprom.1, hprom.2.2 runtime rfl⟩
    | deleteAlarm d activates =>
      have hprom := h.promised
      simp only [AlarmState.Promised, hr] at hprom
      cases d with
      | some d =>
        refine ⟨h.flight, fun hw p hp => ?_⟩
        obtain ⟨ha, hc, e, he, hle⟩ := hprom hw p hp
        cases he
        refine ⟨hc.trans ha.symm, hle, ?_⟩
        intro r hans
        cases hans
      | none =>
        refine reactivated h.flight fun hw p hp => ?_
        obtain ⟨-, -, e, he, -⟩ := hprom hw p hp
        cases he

/-! ## Deliveries -/

/-- A step beside the operations keeps what they have promised, when it keeps the
row's pending deadline and its coverage. -/
theorem beside {t : AlarmState} (h : AlarmInv s) (hflight : t.OwnFlight)
    (hrun : t.running = s.running) (hsucc : t.succeeded = s.succeeded)
    (hwritten : t.written = s.written)
    (hp : ∀ p, t.pending = some p →
      s.pending = some p ∧ t.cancelled = s.cancelled ∧ (s.Covers p → t.Covers p)) :
    AlarmInv t := by
  refine ⟨hflight, fun hw p htp => ?_⟩
  obtain ⟨hsp, hc, hcov⟩ := hp p htp
  have hprom := h.promised (hwritten ▸ hw) p hsp
  unfold AlarmState.Promised at hprom ⊢
  rw [hrun, hsucc, hc]
  split at hprom
  next => exact fun hs => ⟨(hprom hs).1, hcov (hprom hs).2⟩
  next =>
    obtain ⟨hcs, hd, hans⟩ := hprom
    exact ⟨hcs, hd, fun r hr hrd => hcov (hans r hr hrd)⟩
  next =>
    obtain ⟨hcs, hd, hans⟩ := hprom
    exact ⟨hcs, hd, fun r hr => hcov (hans r hr)⟩
  next => exact hprom

theorem setPendingEarliest (h : AlarmInv s) (d : Millis) :
    AlarmInv { s with deadlines := s.deadlines.setPendingEarliest d, written := true } := by
  refine ⟨fun x hx => by simpa using h.flight x hx, ?_⟩
  intro hw
  cases hw

theorem fire (h : AlarmInv s) :
    AlarmInv { s with alarm := none, delivery := .fired, redelivering := false } :=
  h.beside (fun x hx => by cases hx) rfl rfl rfl fun _ hp =>
    ⟨hp, rfl, fun _ => .delivering rfl trivial⟩

theorem beginDelivery (h : AlarmInv s) (hsafe : AlarmAct.beginDelivery.safe s = true) :
    AlarmInv s.beginDelivery := by
  unfold AlarmState.beginDelivery
  split
  next d' hb =>
    obtain ⟨hc, rfl⟩ := AlarmDeadlines.cancelled_of_beginDelivery hb
    refine ⟨fun x hx => (nomatch hx), fun hw p hp => ?_⟩
    have hprom := h.promised hw p hp
    unfold AlarmState.Promised at hprom ⊢
    have hcs : s.cancelled ≠ false := by simp [AlarmState.cancelled, hc]
    -- only an operation that found the row cancelled can be in progress
    split at hprom
    next hrun =>
      simp only [hrun]
      exact fun hs => absurd (hprom hs).1 hcs
    next => exact absurd hprom.1 hcs
    next e activates answer hrun =>
      obtain ⟨hce, hle, hans⟩ := hprom
      simp only [hrun]
      refine ⟨hce, hle, fun r hr => ?_⟩
      have hact : activates = true := hce.symm.trans hc
      have halarm : s.alarm.isSome = true := by
        simpa [AlarmAct.safe, hrun, hact, hr] using hsafe
      cases hans r hr with
      | armed r set le => exact .armed r set le
      | retrying again r set => exact .retrying again r set
      | delivering empty _ => simp [empty] at halarm
    next hrun =>
      simp only [hrun]
      exact hprom
  next x d' hb =>
    obtain ⟨hcs, hc, hf, hp⟩ := AlarmDeadlines.delivered_of_beginDelivery hb
    refine h.beside (fun y hy => .inr (hf.trans hy)) rfl rfl rfl fun p htp => ?_
    rcases hp with hnone | ⟨hpp, y, hy⟩
    · rw [AlarmState.pending, hnone] at htp
      cases htp
    · refine ⟨hpp.symm.trans htp, hc.trans hcs.symm, fun hcov => ?_⟩
      cases hcov with
      | armed r set le => exact .armed r set le
      | retrying again r set => exact .retrying again r set
      | delivering empty _ => exact .delivering empty (by simp [hy, Delivery.WillRearm])

theorem handled (h : AlarmInv s) {x : Option Millis} (hd : s.delivery = .handling x) :
    AlarmInv (s.handled x) := by
  cases x with
  | none =>
    refine h.beside (fun y hy => by cases hy) rfl rfl rfl fun p hp => ⟨hp, rfl, fun hcov => ?_⟩
    cases hcov with
    | armed r set le => exact .armed r set le
    | retrying again r set => exact .retrying again r set
    | delivering _ will => simp [hd, Delivery.WillRearm] at will
  | some x =>
    refine h.beside (fun y hy => h.flight y (by rw [hd]; exact hy)) rfl rfl rfl
      fun p hp => ⟨hp, rfl, fun hcov => ?_⟩
    cases hcov with
    | armed r set le => exact .armed r set le
    | retrying again r set => exact .retrying again r set
    | delivering empty _ => exact .delivering empty trivial

theorem redeliver (h : AlarmInv s) (retryAt : Millis) : AlarmInv (s.redeliver retryAt) := by
  refine h.beside (fun y hy => by cases hy) rfl rfl rfl fun p hp => ⟨hp, rfl, fun hcov => ?_⟩
  cases hcov with
  | armed r set le =>
    refine .armed (min r retryAt) (by simp [AlarmState.redeliver, set]) ?_
    exact Nat.le_trans (Nat.min_le_left _ _) le
  | retrying again r set =>
    exact .retrying (by simp [AlarmState.redeliver, again]) (min r retryAt)
      (by simp [AlarmState.redeliver, set])
  | delivering empty _ =>
    exact .retrying (by simp [AlarmState.redeliver, empty]) retryAt
      (by simp [AlarmState.redeliver, empty])

theorem complete (h : AlarmInv s) {x : Millis} (hd : s.delivery = .rearmed x) :
    AlarmInv { s with deadlines := s.deadlines.completeDelivery, delivery := .idle } := by
  refine h.beside (fun y hy => by cases hy) rfl rfl rfl fun p hp =>
    ⟨(AlarmDeadlines.pending_completeDelivery _).symm.trans hp,
      AlarmDeadlines.cancelled_completeDelivery _, fun hcov => ?_⟩
  cases hcov with
  | armed r set le => exact .armed r set le
  | retrying again r set => exact .retrying again r set
  | delivering _ will => simp [hd, Delivery.WillRearm] at will

theorem stopped (h : AlarmInv s) :
    AlarmInv { s with running := none, succeeded := s.succeeded && s.running.isNone } := by
  refine ⟨h.flight, fun hw p hp hs => ?_⟩
  obtain ⟨hsucc, hrun⟩ : s.succeeded = true ∧ s.running = none := by simpa using hs
  have hprom := h.promised hw p hp
  simp only [AlarmState.Promised, hrun] at hprom
  obtain ⟨hc, hcov⟩ := hprom hsucc
  refine ⟨hc, ?_⟩
  cases hcov with
  | armed r set le => exact .armed r set le
  | retrying again r set => exact .retrying again r set
  | delivering empty will => exact .delivering empty will

/-- **The step lemma.** -/
theorem step {a : AlarmAct} {t : AlarmState} (h : AlarmInv s) (hsafe : a.safe s = true)
    (hstep : alarmStep s a = some t) : AlarmInv t := by
  cases a with
  | start op =>
    simp only [alarmStep] at hstep
    split at hstep
    next =>
      cases hstep
      refine begin h.flight op ?_
      rintro rfl hc
      simpa [AlarmAct.safe, hc] using hsafe
    next => cases hstep
  | perform outcome =>
    simp only [alarmStep] at hstep
    split at hstep
    next hr =>
      cases hstep
      exact h.perform hr outcome
    next => cases hstep
  | resume =>
    simp only [alarmStep] at hstep
    split at hstep
    next hr =>
      cases hstep
      exact h.resume hr
    next => cases hstep
  | setPendingEarliest d =>
    cases hstep
    exact h.setPendingEarliest d
  | fire =>
    simp only [alarmStep] at hstep
    split at hstep
    next =>
      cases hstep
      exact h.fire
    next => cases hstep
  | beginDelivery =>
    simp only [alarmStep] at hstep
    split at hstep
    next =>
      cases hstep
      exact h.beginDelivery hsafe
    next => cases hstep
  | handled =>
    simp only [alarmStep] at hstep
    split at hstep
    next hd =>
      cases hstep
      exact h.handled hd
    next => cases hstep
  | threw retryAt =>
    simp only [alarmStep] at hstep
    split at hstep
    next =>
      cases hstep
      exact h.redeliver retryAt
    next =>
      cases hstep
      exact h.redeliver retryAt
    next => cases hstep
  | rearm =>
    simp only [alarmStep] at hstep
    split at hstep
    next x hd hr =>
      cases hstep
      refine begin (s := { s with delivery := .rearming x })
        (fun y hy => h.flight y (by rw [hd]; exact hy)) .rearmPending fun _ hc => ?_
      have hc : s.cancelled = true := hc
      simpa [AlarmAct.safe, hc] using hsafe
    next => cases hstep
  | complete =>
    simp only [alarmStep] at hstep
    split at hstep
    next hd =>
      cases hstep
      exact h.complete hd
    next => cases hstep
  | restart retryAt =>
    simp only [alarmStep] at hstep
    split at hstep
    next =>
      cases hstep
      exact h.stopped
    next =>
      cases hstep
      exact h.stopped.redeliver retryAt

end AlarmInv

/-! ## Runs -/

/-- A session that has just been started, from whatever row and alarm it finds. -/
def AlarmState.started (deadlines : AlarmDeadlines) (alarm : Option Millis) : AlarmState where
  deadlines := deadlines
  alarm := alarm

theorem AlarmInv.started (deadlines : AlarmDeadlines) (alarm : Option Millis) :
    AlarmInv (.started deadlines alarm) :=
  ⟨fun _ hx => (nomatch hx), fun _ _ _ hs => (nomatch hs)⟩

/-- What a deadline is promised: once everything has come to rest, the row is not
cancelled and the alarm is set no later than the pending deadline. The one
exception to "no later" is an alarm the runtime has set itself, to repeat a
delivery that did not succeed: that delivery is not over. -/
def AlarmState.DeadlineKept (s : AlarmState) : Prop :=
  s.AtRest → ∀ p, s.pending = some p →
    s.cancelled = false ∧ ∃ r, s.alarm = some r ∧ (r ≤ p ∨ s.redelivering = true)

/-- What a completed delivery is promised: it clears its own deadline at most. -/
def AlarmState.DeliveryPrecise (s : AlarmState) : Prop :=
  ∀ x t, s.delivery = .rearmed x → alarmStep s .complete = some t →
    t.pending = s.pending ∧ t.alarm = s.alarm ∧ t.deadlines.inFlight = none ∧
      (s.deadlines.inFlight = none ∨ s.deadlines.inFlight = some x)

theorem AlarmInv.deadlineKept {s : AlarmState} (h : AlarmInv s) : s.DeadlineKept := by
  intro hrest p hp
  have hprom := h.promised hrest.written p hp
  simp only [AlarmState.Promised, hrest.running] at hprom
  obtain ⟨hc, hcov⟩ := hprom hrest.succeeded
  refine ⟨hc, ?_⟩
  cases hcov with
  | armed r set le => exact ⟨r, set, .inl le⟩
  | retrying again r set => exact ⟨r, set, .inr again⟩
  | delivering _ will => simp [hrest.delivery, Delivery.WillRearm] at will

theorem AlarmState.OwnFlight.deliveryPrecise {s : AlarmState} (h : s.OwnFlight) :
    s.DeliveryPrecise := by
  intro x t hd ht
  simp only [alarmStep, hd] at ht
  cases ht
  exact ⟨AlarmDeadlines.pending_completeDelivery _, rfl,
    AlarmDeadlines.inFlight_completeDelivery _, h x (by rw [hd]; rfl)⟩

/-- **No alarm deadline is lost.** In every run whose steps are safe, whatever the
order of operations, deliveries, direct writes, failures and restarts. -/
theorem no_deadline_lost {deadlines : AlarmDeadlines} {alarm : Option Millis} {s : AlarmState}
    (h : alarmSystem.Reachable (fun s a => a.safe s = true) (.started deadlines alarm) s) :
    s.DeadlineKept ∧ s.DeliveryPrecise := by
  have hinv : AlarmInv s :=
    h.inv AlarmInv (.started deadlines alarm) fun _ _ _ hs hsafe hstep => hs.step hsafe hstep
  exact ⟨hinv.deadlineKept, hinv.flight.deliveryPrecise⟩

/-- An operation whose calls all succeed. -/
def AlarmAct.succeeding (op : SchedulerOp) (calls : Nat) : List AlarmAct :=
  .start op :: (List.replicate calls [.perform .succeeds, .resume]).flatten

/-- A delivery whose handler schedules a later deadline; the first attempt throws. -/
def rescheduledRun : List AlarmAct :=
  AlarmAct.succeeding (.schedule 5) 2 ++ [.fire, .beginDelivery, .threw 9, .fire, .beginDelivery] ++
    AlarmAct.succeeding (.schedule 20) 2 ++ [.handled, .rearm, .perform .succeeds, .resume, .complete]

theorem no_deadline_lost_rescheduled :
    ∃ s, alarmSystem.run (fun s a => a.safe s = true) (.started none none) rescheduledRun = some s ∧
      s.AtRest ∧ s.pending = some 20 ∧ s.DeadlineKept ∧ s.DeliveryPrecise := by
  have hrun : alarmSystem.run (fun s a => a.safe s = true) (.started none none) rescheduledRun =
      some { deadlines := some { pendingDeadline := some 20 }, alarm := some 20
             succeeded := true } := by decide
  exact ⟨_, hrun, ⟨rfl, rfl, rfl, rfl⟩, rfl, no_deadline_lost (System.run_reachable hrun)⟩

/-- During a delivery the session is cancelled, and then a stop writes its deadline. -/
def cancelledDeliveryRun : List AlarmAct :=
  AlarmAct.succeeding (.schedule 5) 2 ++ [.fire, .beginDelivery] ++
    AlarmAct.succeeding .cancel 1 ++ [.setPendingEarliest 20, .handled, .rearm,
      .perform .succeeds, .resume, .perform .succeeds, .resume, .complete]

/-- **A deadline lost.** `rearmPending()` sets the alarm of a cancelled row and leaves
it cancelled: everything comes to rest, and the delivery will not run the handler. -/
theorem rearmed_while_cancelled :
    ¬ ∀ s, alarmSystem.Reachable anyStep (.started none none) s → s.DeadlineKept := by
  intro h
  have hrun : alarmSystem.run anyStep (.started none none) cancelledDeliveryRun =
      some { deadlines := some { pendingDeadline := some 20, cancelled := true }
             alarm := some 20, succeeded := true } := by decide
  have hkept := h _ (System.run_reachable hrun)
  have hc := (hkept ⟨rfl, rfl, rfl, rfl⟩ 20 rfl).1
  cases hc

/-- The other order: the alarm of a reactivating `schedule()` fires before `activate`. -/
example :
    (alarmSystem.run anyStep (.started none none)
      (AlarmAct.succeeding .cancel 1 ++ [.start (.schedule 20), .perform .succeeds, .resume,
        .perform .succeeds, .fire, .beginDelivery, .resume])) =
      some { deadlines := some { pendingDeadline := some 20 }, alarm := none, succeeded := true } := by
  decide

end BackgroundAgents.Session

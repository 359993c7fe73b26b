import BackgroundAgents.Lib.Transition
import BackgroundAgents.Lib.Workers
import Mathlib.Data.Rat.Defs

/-!
# The metrics writer

`syncSessionMetrics` keeps the session's totals in the index. Writes are last
write wins, so one is in flight at most: a request made meanwhile only marks it
stale, and the writer goes round again. A pass reads everything before its only
await, so that it is one step from the request, or from the end of the pass
before it, to the write.

What ends a pass is the writer's next step: whether the write landed, failed, or
failed after it had landed. `Drained` is the invariant: while a pass is under
way, it began after the last request or the writer is stale.
-/

namespace BackgroundAgents.Session.MetricsSync

open Transition

/-- The columns of the session row that a pass reads. -/
structure SessionRow where
  total_cost : Option ℚ
  deriving DecidableEq

structure UsageTotals where
  inputTokens : Option Nat
  outputTokens : Option Nat
  reasoningTokens : Option Nat
  cacheReadTokens : Option Nat
  cacheWriteTokens : Option Nat
  deriving DecidableEq

/-- What the session's repositories hold; an artifact by its `type`. -/
structure SessionData where
  session : Option SessionRow
  messageCount : Nat
  activeDurationMs : Nat
  artifacts : List String
  usage : UsageTotals
  deriving DecidableEq

structure Metrics where
  totalCost : ℚ
  activeDurationMs : Nat
  messageCount : Nat
  prCount : Nat
  inputTokens : Nat
  outputTokens : Nat
  reasoningTokens : Nat
  cacheReadTokens : Nat
  cacheWriteTokens : Nat
  deriving DecidableEq

/-- The write that `projectSessionMetrics` makes; unknown usage is stored as zero. -/
def projectedMetrics (data : SessionData) : Option Metrics :=
  data.session.map fun session =>
    { totalCost := session.total_cost.getD 0
      activeDurationMs := data.activeDurationMs
      messageCount := data.messageCount
      prCount := (data.artifacts.filter (· = "pr")).length
      inputTokens := data.usage.inputTokens.getD 0
      outputTokens := data.usage.outputTokens.getD 0
      reasoningTokens := data.usage.reasoningTokens.getD 0
      cacheReadTokens := data.usage.cacheReadTokens.getD 0
      cacheWriteTokens := data.usage.cacheWriteTokens.getD 0 }

variable {ε : Type}

/-- Where `projectSessionMetrics` waits. -/
inductive Waiting (ε : Type) where
  | writing (metrics : Metrics)
  /-- there was no session -/
  | skipped
  /-- a read threw -/
  | threw (error : ε)

/-- A pass of the writer, with the time at which it read. -/
structure Pass (ε : Type) where
  startedAt : Nat
  read : SessionData
  waiting : Waiting ε

def projectSessionMetrics (data : SessionData) (now : Nat) (readError : Option ε) : Pass ε where
  startedAt := now
  read := data
  waiting :=
    match readError with
    | some error => .threw error
    | none =>
      match projectedMetrics data with
      | some metrics => .writing metrics
      | none => .skipped

/-- How a write ends. -/
inductive WriteEnd (ε : Type) where
  | written
  | failed (error : ε) (landed : Bool)

/-- The submitted task: its pass, its `failure`, and all that has failed in it. -/
structure Writer (ε : Type) where
  pass : Pass ε
  failure : Option ε
  failed : List ε

/-- A pass that ended, with its error if it failed. -/
structure Ended (ε : Type) where
  pass : Pass ε
  error : Option ε

structure State (ε : Type) where
  data : SessionData
  metricsSyncInFlight : Bool
  metricsSyncStale : Bool
  writers : List (Writer ε)
  /-- the row of the session index -/
  index : Option Metrics
  /-- what the background tasks logged -/
  reported : List ε
  now : Nat
  -- what happened so far
  changedAt : Nat
  requestedAt : Option Nat
  ended : List (Ended ε)
  drained : List (List ε)

/-- Every caller has read the session row, which is never deleted. -/
def syncSessionMetrics (s : State ε) (readError : Option ε) : State ε :=
  if s.metricsSyncInFlight then { s with metricsSyncStale := true }
  else if s.data.session.isNone then s
  else
    { s with
      metricsSyncInFlight := true
      metricsSyncStale := false
      writers := s.writers ++
        [{ pass := projectSessionMetrics s.data s.now readError, failure := none, failed := [] }] }

/-- What the pass wrote, and its error. -/
def Pass.finish (pass : Pass ε) (index : Option Metrics) (writeEnd : WriteEnd ε) :
    Option Metrics × Option ε :=
  match pass.waiting with
  | .skipped => (index, none)
  | .threw error => (index, some error)
  | .writing metrics =>
    match writeEnd with
    | .written => (some metrics, none)
    | .failed error landed => (if landed then some metrics else index, some error)

/-- The writer resumes: `failure ??= { error }`, and another pass if it is stale. -/
def resume (s : State ε) (i : Nat) (writer : Writer ε) (writeEnd : WriteEnd ε)
    (readError : Option ε) : State ε :=
  let finished := writer.pass.finish s.index writeEnd
  let failure := writer.failure.or finished.2
  let failed := writer.failed ++ finished.2.toList
  let s :=
    { s with
      index := finished.1
      ended := s.ended ++ [({ pass := writer.pass, error := finished.2 } : Ended ε)] }
  if s.metricsSyncStale then
    { s with
      metricsSyncStale := false
      writers := advance s.writers i (some
        ({ pass := projectSessionMetrics s.data s.now readError, failure, failed } : Writer ε)) }
  else
    { s with
      metricsSyncInFlight := false
      writers := advance s.writers i none
      reported := s.reported ++ failure.toList
      drained := s.drained ++ [failed] }

inductive Act (ε : Type) where
  | change (data : SessionData)
  | request (readError : Option ε)
  | resume (writer : Nat) (writeEnd : WriteEnd ε) (readError : Option ε)

def State.tick (s : State ε) : State ε := { s with now := s.now + 1 }

def State.step (s : State ε) : Act ε → Option (State ε)
  | .change data =>
    if s.data.session.isSome → data.session.isSome then
      some { s.tick with data, changedAt := s.now + 1 }
    else none
  | .request readError =>
    if s.data.session.isSome then
      some (syncSessionMetrics { s.tick with requestedAt := some (s.now + 1) } readError)
    else none
  | .resume i writeEnd readError =>
    (s.writers[i]?).map fun writer => resume s.tick i writer writeEnd readError

def metricsSystem (ε : Type) : System (State ε) (Act ε) where
  step := State.step

def State.initial (data : SessionData) (index : Option Metrics) : State ε where
  data
  metricsSyncInFlight := false
  metricsSyncStale := false
  writers := []
  index
  reported := []
  now := 0
  changedAt := 0
  requestedAt := none
  ended := []
  drained := []

/-! ## The invariant -/

/-- The pass read the session as it was when it began. -/
structure Pass.Read (pass : Pass ε) (s : State ε) : Prop where
  past : pass.startedAt ≤ s.now
  current : s.changedAt ≤ pass.startedAt → pass.read = s.data
  session : pass.read.session.isSome = true
  waits : pass.waiting = .skipped → projectedMetrics pass.read = none
  writes : ∀ metrics, pass.waiting = .writing metrics → projectedMetrics pass.read = some metrics

/-- The pass began after the last request. -/
def Pass.Covers (pass : Pass ε) (s : State ε) : Prop :=
  ∀ requestedAt, s.requestedAt = some requestedAt → requestedAt ≤ pass.startedAt

/-- The writer has nothing left to do. -/
structure Settled (s : State ε) (last : Ended ε) : Prop where
  ended : s.ended.getLast? = some last
  read : last.pass.Read s
  covers : last.pass.Covers s
  index : last.error = none → s.index = projectedMetrics last.pass.read

structure Drained (s : State ε) : Prop where
  inFlight : s.writers.length = if s.metricsSyncInFlight then 1 else 0
  session : s.metricsSyncInFlight = true → s.data.session.isSome = true
  changed : s.changedAt ≤ s.now
  requested : ∀ requestedAt, s.requestedAt = some requestedAt → requestedAt ≤ s.now
  writers : ∀ writer ∈ s.writers, writer.pass.Read s ∧
    (s.metricsSyncStale = true ∨ writer.pass.Covers s) ∧ writer.failure = writer.failed.head?
  idle : s.metricsSyncInFlight = false → s.requestedAt ≠ none → ∃ last, Settled s last
  reported : s.reported = s.drained.filterMap List.head?

variable {s : State ε} {data : SessionData} {index : Option Metrics} {pass : Pass ε}
  {readError : Option ε}

theorem drained_initial : Drained (State.initial data index : State ε) where
  inFlight := rfl
  session := fun h => absurd h Bool.false_ne_true
  changed := Nat.le_refl 0
  requested := fun _ h => absurd h.symm (Option.some_ne_none _)
  writers := fun _ h => absurd h (List.not_mem_nil)
  idle := fun _ h => absurd rfl h
  reported := rfl

theorem projected_none (h : data.session.isSome = true) : projectedMetrics data ≠ none := by
  rw [projectedMetrics, Ne, Option.map_eq_none_iff]
  exact Option.isSome_iff_ne_none.mp h

/-- A pass that begins now. -/
theorem projectSessionMetrics_read (hsession : s.data.session.isSome = true) :
    (projectSessionMetrics s.data s.now readError).Read s where
  past := Nat.le_refl _
  current := fun _ => rfl
  session := hsession
  waits := by
    intro h
    unfold projectSessionMetrics at h
    dsimp only at h
    cases readError with
    | some error => cases h
    | none =>
      dsimp only at h
      split at h
      next => cases h
      next hnone => exact hnone
  writes := by
    intro metrics h
    unfold projectSessionMetrics at h
    dsimp only at h
    cases readError with
    | some error => cases h
    | none =>
      dsimp only at h
      split at h
      next m hm =>
        cases h
        exact hm
      next => cases h

theorem Pass.Read.mono {t : State ε} (h : pass.Read s) (hnow : s.now ≤ t.now)
    (hcurrent : t.changedAt ≤ pass.startedAt → s.changedAt ≤ pass.startedAt ∧ t.data = s.data) :
    pass.Read t :=
  { h with
    past := Nat.le_trans h.past hnow
    current := by
      intro hchanged
      obtain ⟨hle, hdata⟩ := hcurrent hchanged
      rw [hdata]
      exact h.current hle }

theorem Drained.change (h : Drained s)
    (hkeeps : s.data.session.isSome = true → data.session.isSome = true) :
    Drained { s.tick with data, changedAt := s.now + 1 } := by
  have hread : ∀ pass : Pass ε, pass.Read s →
      pass.Read { s.tick with data, changedAt := s.now + 1 } := by
    intro pass hpass
    refine hpass.mono (Nat.le_succ _) ?_
    intro hchanged
    have hpast := hpass.past
    have hlate : s.now + 1 ≤ pass.startedAt := hchanged
    omega
  constructor
  case inFlight => exact h.inFlight
  case session => exact fun hflight => hkeeps (h.session hflight)
  case changed => exact Nat.le_refl _
  case requested =>
    intro requestedAt hrequested
    exact Nat.le_succ_of_le (h.requested requestedAt hrequested)
  case writers =>
    intro writer hwriter
    obtain ⟨hpass, hrest⟩ := h.writers writer hwriter
    exact ⟨hread _ hpass, hrest⟩
  case idle =>
    intro hidle hrequested
    obtain ⟨last, hlast⟩ := h.idle hidle hrequested
    exact ⟨last, hlast.ended, hread _ hlast.read, hlast.covers, hlast.index⟩
  case reported => exact h.reported

theorem Drained.request (h : Drained s) (hsession : s.data.session.isSome = true) :
    Drained (syncSessionMetrics { s.tick with requestedAt := some (s.now + 1) } readError) := by
  have hread : ∀ pass : Pass ε, pass.Read s → ∀ t : State ε, t.now = s.now + 1 →
      t.changedAt = s.changedAt → t.data = s.data → pass.Read t := by
    intro pass hpass t hnow hchanged hdata
    refine hpass.mono (by omega) ?_
    rw [hchanged]
    exact fun hle => ⟨hle, hdata⟩
  have hrequested : ∀ requestedAt, some (s.now + 1) = some requestedAt →
      requestedAt ≤ s.now + 1 := by
    intro requestedAt he
    cases he
    exact Nat.le_refl _
  unfold syncSessionMetrics
  split
  next hflight =>
    constructor
    case inFlight => exact h.inFlight
    case session => exact fun _ => hsession
    case changed => exact Nat.le_succ_of_le h.changed
    case requested => exact hrequested
    case writers =>
      intro writer hwriter
      obtain ⟨hpass, _, hfailure⟩ := h.writers writer hwriter
      exact ⟨hread _ hpass _ rfl rfl rfl, .inl rfl, hfailure⟩
    case idle =>
      intro hidle
      exact absurd (hflight.symm.trans hidle) Bool.false_ne_true.symm
    case reported => exact h.reported
  next hflight =>
    rw [if_neg]
    · have hempty : s.writers = [] := by
        have hlength := h.inFlight
        have hfalse : s.metricsSyncInFlight = false := Bool.eq_false_iff.mpr hflight
        rw [hfalse] at hlength
        exact List.length_eq_zero_iff.mp hlength
      constructor
      case inFlight =>
        show (s.writers ++ [_]).length = 1
        rw [hempty]
        rfl
      case session => exact fun _ => hsession
      case changed => exact Nat.le_succ_of_le h.changed
      case requested => exact hrequested
      case writers =>
        intro writer hwriter
        have hnew : writer ∈ s.writers ++ [_] := hwriter
        rw [hempty, List.nil_append, List.mem_singleton] at hnew
        subst hnew
        refine ⟨?_, .inr hrequested, rfl⟩
        refine (projectSessionMetrics_read (s := { s.tick with requestedAt := some (s.now + 1) })
          hsession).mono (Nat.le_refl _) ?_
        exact fun hle => ⟨hle, rfl⟩
      case idle => exact fun hidle => absurd hidle Bool.false_ne_true.symm
      case reported => exact h.reported
    · dsimp only [State.tick]
      rw [Option.isNone_iff_eq_none]
      exact Option.isSome_iff_ne_none.mp hsession

/-- What the index holds after a pass that did not fail. -/
theorem finish_index {writeEnd : WriteEnd ε} (hpass : pass.Read s)
    (h : (pass.finish index writeEnd).2 = none) :
    (pass.finish index writeEnd).1 = projectedMetrics pass.read := by
  unfold Pass.finish at h ⊢
  cases hwaiting : pass.waiting with
  | skipped => exact absurd (hpass.waits hwaiting) (projected_none hpass.session)
  | threw error =>
    rw [hwaiting] at h
    cases h
  | writing metrics =>
    rw [hwaiting] at h
    cases writeEnd with
    | written => exact (hpass.writes metrics hwaiting).symm
    | failed error landed => cases h

theorem head_append_toList (l : List ε) (o : Option ε) :
    (l ++ o.toList).head? = l.head?.or o := by
  cases l with
  | nil => cases o <;> rfl
  | cons a l => rfl

theorem filterMap_head_singleton (l : List ε) : [l].filterMap List.head? = l.head?.toList := by
  cases l <;> rfl

theorem Drained.resume {i : Nat} {writer : Writer ε} {writeEnd : WriteEnd ε} (h : Drained s)
    (hwriter : s.writers[i]? = some writer) :
    Drained (resume s.tick i writer writeEnd readError) := by
  -- the one writer there is
  have hmem := List.mem_of_getElem? hwriter
  have hlength := h.inFlight
  cases hflight : s.metricsSyncInFlight with
  | false =>
    rw [hflight] at hlength
    rw [List.length_eq_zero_iff.mp hlength] at hmem
    cases hmem
  | true =>
    rw [hflight] at hlength
    obtain ⟨only, honly⟩ := List.length_eq_one_iff.mp hlength
    have hi : i = 0 := by
      have hlt := (List.getElem?_eq_some_iff.mp hwriter).1
      rw [honly] at hlt
      exact Nat.lt_one_iff.mp hlt
    subst hi
    have hsession := h.session hflight
    obtain ⟨hpass, hcovers, hfailure⟩ := h.writers writer hmem
    have hfirst : writer.failure.or (writer.pass.finish s.index writeEnd).2 =
        (writer.failed ++ (writer.pass.finish s.index writeEnd).2.toList).head? := by
      rw [head_append_toList, hfailure]
    have hended : ∀ t : State ε, t.now = s.now + 1 → t.changedAt = s.changedAt → t.data = s.data →
        writer.pass.Read t := by
      intro t hnow hchanged hdata
      refine hpass.mono (by omega) ?_
      rw [hchanged]
      exact fun hle => ⟨hle, hdata⟩
    cases hstale : s.metricsSyncStale with
    | true =>
      -- it goes round again, after the last request
      rw [show MetricsSync.resume s.tick 0 writer writeEnd readError = _ from if_pos hstale]
      constructor
      case inFlight =>
        show (advance s.writers 0 (some _)).length = if s.metricsSyncInFlight then 1 else 0
        rw [honly, hflight]
        rfl
      case session => exact fun _ => hsession
      case changed => exact Nat.le_succ_of_le h.changed
      case requested =>
        intro requestedAt hrequested
        exact Nat.le_succ_of_le (h.requested requestedAt hrequested)
      case writers =>
        intro next hnext
        have hnew : next ∈ advance s.writers 0 (some _) := hnext
        rw [honly] at hnew
        rw [List.mem_singleton.mp hnew]
        refine ⟨?_, .inr ?_, hfirst⟩
        · refine (projectSessionMetrics_read (s := s.tick) hsession).mono (Nat.le_refl _) ?_
          exact fun hle => ⟨hle, rfl⟩
        · intro requestedAt hrequested
          exact Nat.le_succ_of_le (h.requested requestedAt hrequested)
      case idle =>
        intro hidle
        exact absurd (hflight.symm.trans hidle) Bool.false_ne_true.symm
      case reported => exact h.reported
    | false =>
      have hlast : writer.pass.Covers s := by
        rcases hcovers with hcovers | hcovers
        · exact absurd (hstale.symm.trans hcovers) Bool.false_ne_true
        · exact hcovers
      rw [show MetricsSync.resume s.tick 0 writer writeEnd readError = _ from
        if_neg (fun he => absurd (hstale.symm.trans he) Bool.false_ne_true)]
      constructor
      case inFlight =>
        show (advance s.writers 0 none).length = 0
        rw [honly]
        rfl
      case session => exact fun _ => hsession
      case changed => exact Nat.le_succ_of_le h.changed
      case requested =>
        intro requestedAt hrequested
        exact Nat.le_succ_of_le (h.requested requestedAt hrequested)
      case writers =>
        intro next hnext
        have hnone : next ∈ advance s.writers 0 none := hnext
        rw [honly] at hnone
        cases hnone
      case idle =>
        intro _ _
        refine ⟨{ pass := writer.pass, error := (writer.pass.finish s.index writeEnd).2 }, ?_⟩
        refine ⟨List.getLast?_concat, hended _ rfl rfl rfl, hlast, ?_⟩
        exact finish_index hpass
      case reported =>
        show s.reported ++ (writer.failure.or _).toList = (s.drained ++ [_]).filterMap List.head?
        have hsame : writer.failure.or (writer.pass.finish s.tick.index writeEnd).2 =
          (writer.failed ++ (writer.pass.finish s.tick.index writeEnd).2.toList).head? := hfirst
        rw [h.reported, List.filterMap_append, hsame, filterMap_head_singleton]

/-- Every step of the system keeps it. -/
theorem Drained.step {act : Act ε} {t : State ε} (h : Drained s) (hstep : s.step act = some t) :
    Drained t := by
  unfold State.step at hstep
  cases act with
  | change data =>
    dsimp only at hstep
    split at hstep
    next hkeeps =>
      cases hstep
      exact h.change hkeeps
    next => cases hstep
  | request readError =>
    dsimp only at hstep
    split at hstep
    next hsession =>
      cases hstep
      exact h.request hsession
    next => cases hstep
  | resume i writeEnd readError =>
    obtain ⟨writer, hwriter, rfl⟩ := Option.map_eq_some_iff.mp hstep
    exact h.resume hwriter

/-- The writes in flight. -/
def State.inFlight (s : State ε) : List Metrics :=
  s.writers.filterMap fun writer =>
    match writer.pass.waiting with
    | .writing metrics => some metrics
    | _ => none

/-- **The metrics writer.** Two writes are never in flight at once. When the writer is idle, the
last pass, failed or not, read the session at or after the last request, and the index holds what
it read unless it failed. Of every run of the writer, the first failure is reported. -/
theorem metrics_coalesced (data : SessionData) (index : Option Metrics) (s : State ε)
    (h : (metricsSystem ε).Reachable anyStep (State.initial data index) s) :
    s.inFlight.length ≤ 1 ∧
      (s.metricsSyncInFlight = false → ∀ requestedAt, s.requestedAt = some requestedAt →
        ∃ last, s.ended.getLast? = some last ∧ requestedAt ≤ last.pass.startedAt ∧
          (s.changedAt ≤ last.pass.startedAt → last.pass.read = s.data) ∧
          (last.error = none → s.index = projectedMetrics last.pass.read)) ∧
      s.reported = s.drained.filterMap List.head? := by
  have hdrained : Drained s :=
    h.inv Drained drained_initial fun _ _ _ hs _ hstep => hs.step hstep
  refine ⟨?_, ?_, hdrained.reported⟩
  · refine Nat.le_trans (List.length_filterMap_le _ _) ?_
    rw [hdrained.inFlight]
    split
    · exact Nat.le_refl 1
    · exact Nat.zero_le 1
  · intro hidle requestedAt hrequested
    obtain ⟨last, hlast⟩ := hdrained.idle hidle (by rw [hrequested]; exact Option.some_ne_none _)
    exact ⟨last, hlast.ended, hlast.covers _ hrequested, hlast.read.current, hlast.index⟩

/-- A session with one message. -/
def oneMessage : SessionData where
  session := some { total_cost := none }
  messageCount := 1
  activeDurationMs := 0
  artifacts := []
  usage :=
    { inputTokens := none
      outputTokens := none
      reasoningTokens := none
      cacheReadTokens := none
      cacheWriteTokens := none }

/-- A second message settles while the first write is in flight, and that write fails. -/
def failedPass : List (Act String) :=
  [.request none, .change { oneMessage with messageCount := 2 }, .request none,
    .resume 0 (.failed "D1 is down" false) none, .resume 0 .written none]

theorem metrics_coalesced_failedPass : ∃ s : State String, s.reported = ["D1 is down"] ∧
    ∃ last, s.ended.getLast? = some last ∧ 3 ≤ last.pass.startedAt := by
  have hrun : ((metricsSystem String).run anyStep (State.initial oneMessage none) failedPass).any
      (fun s => s.metricsSyncInFlight = false ∧ s.requestedAt = some 3 ∧
        s.reported = ["D1 is down"]) = true := by
    decide +kernel
  obtain ⟨s, hs, hfacts⟩ := (Option.any_eq_true _ _).mp hrun
  obtain ⟨hidle, hrequested, hreported⟩ := of_decide_eq_true hfacts
  have hcoalesced := metrics_coalesced oneMessage none s (System.run_reachable hs)
  obtain ⟨last, hlast, hcovers, _⟩ := hcoalesced.2.1 hidle 3 hrequested
  exact ⟨s, hreported, last, hlast, hcovers⟩

end BackgroundAgents.Session.MetricsSync

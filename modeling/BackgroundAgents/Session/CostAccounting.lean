import BackgroundAgents.Session.BudgetService
import Mathlib.Algebra.BigOperators.Group.List.Lemmas
import Mathlib.Tactic.Linarith

/-!
# Cost accounting

Three transactions move the session's cost and its budget flag: a `step_finish`
event, an `execution_complete` event and a live edit of the limit
(`CostOp`). This file follows arbitrary sequences of them.

The accounting works because a report is cumulative: a row keeps the highest
one seen (`raiseCosts`, a join), and the session total moves by exactly what
the row moves, so that `total − Σ reported` never changes
(`raiseReportedCost_ledger`). Order, duplicates and lost intermediate reports
then cannot matter: `cost_of_reports` reads the total off the highest reports.

The flag is maintained step by step. `applyCost_flag` is the step lemma: the
flag stays exact, and the one transaction that turns it on stops the running
turn and persists one warning.
-/

namespace BackgroundAgents.Session

/-- A transaction that moves the session's cost or its limit. -/
inductive CostOp where
  | stepFinish (event : StepFinishEvent) (now : Millis)
  | executionComplete (event : ExecutionCompleteEvent) (now : Millis)
  | updateLimit (maxCostUsd : Option ℚ) (now : Millis)

def CostOp.now : CostOp → Millis
  | .stepFinish _ now | .executionComplete _ now | .updateLimit _ now => now

/-- What the transaction commits, `none` if it throws. A sandbox event is attributed
to the message it names, and the processing message is read as it arrives. -/
def CostOp.commit (db : SessionDb) : CostOp → Option SessionDb
  | .stepFinish e now => (ingestStepFinish db e (some e.messageId) now).map Prod.snd
  | .executionComplete e now =>
    (completeExecution db e ((getProcessingMessage db).map MessageRow.id) now).map fun r => r.2.2
  | .updateLimit maxCostUsd now =>
    if db.session.maxCostUsd = maxCostUsd then some db
    else (commitLimit db maxCostUsd now).map Prod.snd

/-- The storage after the transaction: a throw rolls back. -/
def applyCost (db : SessionDb) (op : CostOp) : SessionDb :=
  (op.commit db).getD db

def runCosts (db : SessionDb) (ops : List CostOp) : SessionDb :=
  ops.foldl applyCost db

theorem runCosts_append (db : SessionDb) (done rest : List CostOp) :
    runCosts db (done ++ rest) = runCosts (runCosts db done) rest :=
  List.foldl_append

/-! ## Reading statuses and fences -/

/-- Until when a message fences the queue. -/
def SessionDb.fence? (db : SessionDb) (m : MessageId) : Option Millis :=
  (db.message? m).bind MessageRow.stopConfirmationDeadline

variable {db : SessionDb}

theorem messageStatus?_eq_some {m : MessageId} {s : MessageStatus} :
    db.messageStatus? m = some s ↔ ∃ row, db.message? m = some row ∧ row.status = s := by
  rw [SessionDb.messageStatus?, Option.map_eq_some_iff]

/-- At most one message is being processed. -/
def AtMostOneProcessing (db : SessionDb) : Prop :=
  ∀ m m', db.messageStatus? m = some .processing → db.messageStatus? m' = some .processing →
    m = m'

/-- A storage change that keeps every message's status and fence, the warnings
and the session row. -/
structure Quiet (db db' : SessionDb) : Prop where
  status : db'.messageStatus? = db.messageStatus?
  fence : db'.fence? = db.fence?
  warnings : db'.warningCount = db.warningCount

theorem Quiet.refl (db : SessionDb) : Quiet db db :=
  ⟨rfl, rfl, rfl⟩

theorem raiseReportedCost_quiet (db : SessionDb) (m : MessageId) (cost : ℚ) :
    Quiet db (raiseReportedCost db m cost).2 ∧
      (raiseReportedCost db m cost).2.session = db.session := by
  rcases raiseReportedCost_cases db m cost with ⟨he, -⟩ | ⟨row, -, -, -, he⟩
  · rw [he]
    exact ⟨.refl db, rfl⟩
  · rw [he]
    refine ⟨⟨?_, ?_, rfl⟩, rfl⟩
    all_goals
      funext k
      have hk := message?_updateMessage db m (·.report cost)
        (fun _ => rfl) k
      by_cases hm : k = m
      · rw [if_pos hm] at hk
        simp only [SessionDb.messageStatus?, SessionDb.fence?, hk, Option.map_map,
          Option.bind_map]
        rfl
      · rw [if_neg hm] at hk
        simp only [SessionDb.messageStatus?, SessionDb.fence?, hk]

/-- Nothing is processing any more: the turn that was has failed and fences the
queue, and the other messages keep their status. -/
def StopsTurn (db db' : SessionDb) (now : Millis) : Prop :=
  ∀ m, db'.messageStatus? m ≠ some .processing ∧
    (db.messageStatus? m = some .processing →
      db'.messageStatus? m = some .failed ∧
        db'.fence? m = some (now + stopConfirmationTimeoutMs)) ∧
    (db.messageStatus? m ≠ some .processing → db'.messageStatus? m = db.messageStatus? m)

theorem Stopped.stopsTurn {db db' : SessionDb} {reason : String} {now : Millis}
    (h : Stopped db db' reason now) (hone : AtMostOneProcessing db) : StopsTurn db db' now := by
  intro m
  cases hp : getProcessingMessage db with
  | none =>
    have hidle : db.messageStatus? m ≠ some .processing := by
      rw [ne_eq, messageStatus?_eq_some]
      rintro ⟨row, hrow, hstatus⟩
      exact getProcessingMessage_none.mp hp m row hrow hstatus
    have hsame : db'.messageStatus? m = db.messageStatus? m := by
      rw [SessionDb.messageStatus?, h.idle hp]
      rfl
    exact ⟨hsame ▸ hidle, fun hm => absurd hm hidle, fun _ => hsame⟩
  | some p =>
    obtain ⟨hrow, hprocessing⟩ := getProcessingMessage_some hp
    have hpm : db.messageStatus? p.id = some .processing :=
      messageStatus?_eq_some.mpr ⟨p, hrow, hprocessing⟩
    by_cases hm : m = p.id
    · subst hm
      have hget : db'.message? p.id = some (p.stop reason now) := by
        rw [h.stopped p hp, if_pos rfl]
      simp only [SessionDb.messageStatus?, SessionDb.fence?, hget]
      exact ⟨nofun, fun _ => ⟨rfl, rfl⟩, fun hne => absurd hpm hne⟩
    · have hother : db.messageStatus? m ≠ some .processing := fun hm' => hm (hone _ _ hm' hpm)
      have hsame : db'.messageStatus? m = db.messageStatus? m := by
        rw [SessionDb.messageStatus?, h.stopped p hp, if_neg hm]
        rfl
      exact ⟨hsame ▸ hother, fun hm' => absurd hm' hother, fun _ => hsame⟩

/-! ## The ledger -/

/-- A report, joined into what is stored for its message. -/
def raiseCosts (costs : List (MessageId × ℚ)) (m : MessageId) (cost : ℚ) :
    List (MessageId × ℚ) :=
  costs.map fun c => if c.1 = m then (c.1, max c.2 cost) else c

def SessionDb.reportedTotal (db : SessionDb) : ℚ :=
  (db.messages.rows.map MessageRow.reportedCostUsd).sum

/-- Reports only go up from zero. -/
def CostsNonneg (db : SessionDb) : Prop :=
  ∀ c ∈ db.costs, 0 ≤ c.2

theorem reportedTotal_eq (db : SessionDb) :
    db.reportedTotal = (db.costs.map Prod.snd).sum := by
  rw [SessionDb.reportedTotal, SessionDb.costs, List.map_map]
  rfl

/-- A report joins into its row, and the amount returned is what the rows gained. -/
theorem raiseReportedCost_ledger (h : CostsNonneg db) (m : MessageId) (cost : ℚ) :
    (raiseReportedCost db m cost).2.costs = raiseCosts db.costs m cost ∧
      (raiseReportedCost db m cost).2.reportedTotal =
        db.reportedTotal + (raiseReportedCost db m cost).1 ∧
      0 ≤ (raiseReportedCost db m cost).1 := by
  rcases raiseReportedCost_cases db m cost with ⟨he, hwhy⟩ | ⟨row, hrow, hpos, hlt, he⟩
  · rw [he]
    refine ⟨?_, (add_zero _).symm, le_rfl⟩
    rw [raiseCosts, SessionDb.costs, List.map_map]
    refine List.map_congr_left ?_
    intro r hr
    have hget : db.message? r.id = some r := Table.mem_rows_iff.mp hr
    simp only [Function.comp]
    split
    next hm =>
      rcases hwhy with hle | hnone | ⟨row, hrow, hle⟩
      · rw [max_eq_left (hle.trans (h _ (List.mem_map_of_mem hr)))]
      · rw [← hm, hget] at hnone
        cases hnone
      · rw [← hm, hget] at hrow
        cases hrow
        rw [max_eq_left hle]
    next => rfl
  · rw [he]
    refine ⟨?_, ?_, (sub_pos.mpr hlt).le⟩
    · simp only [raiseCosts, SessionDb.costs, SessionDb.updateMessage, Table.update, List.map_map]
      refine List.map_congr_left ?_
      intro r hr
      have hget : db.message? r.id = some r := Table.mem_rows_iff.mp hr
      simp only [Function.comp, decide_eq_true_eq]
      split
      next hm =>
        rw [hm, hrow] at hget
        cases hget
        rw [max_eq_right hlt.le]
        rfl
      next => rfl
    · exact Table.sum_update_key hrow (·.report cost) (fun _ => rfl) MessageRow.reportedCostUsd

/-! ## What each transaction does -/

/-- What an observation leaves the flag: the storage as it was, or an exhaustion. -/
theorem applyObservedCost_some (db : SessionDb) (totalCost : ℚ) (m : Option MessageId)
    (now : Millis) :
    ∃ transition db', applyObservedCost db totalCost m now = some (transition, db') ∧
      ((db' = db ∧ ∀ limit, db.session.maxCostUsd = some limit →
          db.session.budgetExhausted = true ∨ totalCost < limit) ∨
        ∃ limit reason, db.session.maxCostUsd = some limit ∧
          db.session.budgetExhausted = false ∧ limit ≤ totalCost ∧
          db'.session = { db.session with budgetExhausted := true, updatedAt := now } ∧
          db'.warningCount = db.warningCount + 1 ∧ Stopped db db' reason now) := by
  unfold applyObservedCost
  cases hmax : db.session.maxCostUsd with
  | none => exact ⟨_, _, rfl, .inl ⟨rfl, nofun⟩⟩
  | some limit =>
    dsimp only
    split
    next hno =>
      refine ⟨_, _, rfl, .inl ⟨rfl, ?_⟩⟩
      intro l hl
      cases hl
      exact hno
    next hyes =>
      rw [not_or, Bool.not_eq_true, not_lt] at hyes
      obtain ⟨reason, transition, db', he, -, hsession, hwarn, hstop⟩ :=
        prepareExhaustion_some (markBudgetExhausted db now) totalCost limit m now
      refine ⟨transition, db', he, .inr ⟨limit, reason, rfl, hyes.1, hyes.2, hsession, hwarn, ?_⟩⟩
      exact ⟨hstop.costs, hstop.attachments, hstop.userEvents, hstop.idle, hstop.stopped⟩

/-- The flag says whether the limit is reached. -/
def FlagExact (db : SessionDb) : Prop :=
  db.session.budgetExhausted = true ↔
    ∃ limit, db.session.maxCostUsd = some limit ∧ limit ≤ db.session.totalCost

/-- A step turns the flag on. -/
def TurnsOn (db db' : SessionDb) : Prop :=
  db.session.budgetExhausted = false ∧ db'.session.budgetExhausted = true

instance (db db' : SessionDb) : Decidable (TurnsOn db db') :=
  inferInstanceAs (Decidable (_ ∧ _))

/-- What a step does to the flag: it does not turn it on and leaves the turns and the
warnings alone, or it turns it on, stops the running turn and warns once. -/
inductive FlagStep (db db' : SessionDb) (now : Millis) : Prop where
  | quiet : Quiet db db' →
      (db'.session.budgetExhausted = true → db.session.budgetExhausted = true) →
      FlagStep db db' now
  | exhausted : TurnsOn db db' → db'.warningCount = db.warningCount + 1 →
      (AtMostOneProcessing db → StopsTurn db db' now) → FlagStep db db' now

/-- A report for `m`, or none. -/
def joinReport (costs : List (MessageId × ℚ)) : Option (MessageId × ℚ) → List (MessageId × ℚ)
  | none => costs
  | some (m, cost) => raiseCosts costs m cost

/-- What a step does to the ledger: its report is joined into its row, and the total
moves with the rows. -/
structure LedgerStep (db db' : SessionDb) (report : Option (MessageId × ℚ)) : Prop where
  costs : db'.costs = joinReport db.costs report
  balance : db'.session.totalCost - db'.reportedTotal = db.session.totalCost - db.reportedTotal
  mono : db.session.totalCost ≤ db'.session.totalCost

/-- Statuses, fences and warnings are read the same before a quiet change. -/
theorem FlagStep.of_quiet {db db₁ db₂ : SessionDb} {now : Millis} (hq : Quiet db db₁)
    (hsession : db₁.session = db.session) (h : FlagStep db₁ db₂ now) : FlagStep db db₂ now := by
  have hone : AtMostOneProcessing db → AtMostOneProcessing db₁ := by
    intro h m m'
    rw [hq.status]
    exact h m m'
  cases h with
  | quiet hq' hoff =>
    refine .quiet ⟨hq'.status.trans hq.status, hq'.fence.trans hq.fence,
      hq'.warnings.trans hq.warnings⟩ ?_
    rw [← hsession]
    exact hoff
  | exhausted hon hwarn hstop =>
    refine .exhausted ⟨hsession ▸ hon.1, hon.2⟩ (by rw [hwarn, hq.warnings]) ?_
    intro h m
    have hm := hstop (hone h) m
    rw [hq.status] at hm
    exact hm

/-- An observed cost raises the total, and settles the flag against it. -/
theorem charge_some (db : SessionDb) {delta : ℚ} (hdelta : 0 < delta) (m : Option MessageId)
    (now : Millis) :
    ∃ transition db',
      applyObservedCost (addSessionCost db delta now).2 (addSessionCost db delta now).1 m now =
        some (transition, db') ∧
      db'.session.totalCost = db.session.totalCost + delta ∧ db'.costs = db.costs ∧
      (FlagExact db → FlagExact db' ∧ FlagStep db db' now) := by
  obtain ⟨transition, db', he, hcase⟩ := applyObservedCost_some (addSessionCost db delta now).2
    (addSessionCost db delta now).1 m now
  refine ⟨transition, db', he, ?_⟩
  rcases hcase with ⟨rfl, hbelow⟩ | ⟨limit, reason, hmax, hoff, hreached, hsession, hwarn, hstop⟩
  · refine ⟨rfl, rfl, fun hflag => ⟨?_, .quiet ⟨rfl, rfl, rfl⟩ fun h => h⟩⟩
    constructor
    · intro hon
      obtain ⟨limit, hmax, hle⟩ := hflag.mp hon
      exact ⟨limit, hmax, hle.trans (le_add_of_nonneg_right hdelta.le)⟩
    · rintro ⟨limit, hmax, hle⟩
      rcases hbelow limit hmax with hon | hlt
      · exact hon
      · exact absurd hle (not_le.mpr hlt)
  · have hstop' : Stopped db db' reason now :=
      ⟨hstop.costs, hstop.attachments, hstop.userEvents, hstop.idle, hstop.stopped⟩
    refine ⟨by rw [hsession]; rfl, hstop.costs, fun _ =>
      ⟨?_, .exhausted ⟨hoff, by rw [hsession]⟩ hwarn hstop'.stopsTurn⟩⟩
    rw [FlagExact, hsession]
    exact ⟨fun _ => ⟨limit, hmax, hreached⟩, fun _ => rfl⟩

theorem FlagExact.of_session {db db' : SessionDb} (hsession : db'.session = db.session)
    (h : FlagExact db) : FlagExact db' := by
  rw [FlagExact, hsession]
  exact h

/-- A cumulative report: nothing new to charge, or the new amount is charged. -/
theorem observeExecutionCost_some (db : SessionDb) (e : ExecutionCompleteEvent) (now : Millis) :
    ∃ transition db', observeExecutionCost db e now = some (transition, db') ∧
      (FlagExact db → FlagExact db' ∧ FlagStep db db' now) ∧
      (CostsNonneg db → LedgerStep db db' (e.messageCostUsd.map fun c => (e.messageId, c))) := by
  unfold observeExecutionCost
  cases hcost : e.messageCostUsd with
  | none =>
    exact ⟨_, _, rfl, fun hflag => ⟨hflag, .quiet (.refl db) fun h => h⟩,
      fun _ => ⟨rfl, rfl, le_rfl⟩⟩
  | some cost =>
    obtain ⟨hquiet, hsession⟩ := raiseReportedCost_quiet db e.messageId cost
    dsimp only
    split
    next hno =>
      refine ⟨_, _, rfl, fun hflag => ⟨hflag.of_session hsession, .quiet hquiet ?_⟩, ?_⟩
      · rw [hsession]
        exact fun h => h
      · intro hnonneg
        obtain ⟨hcosts, htotal, hle⟩ := raiseReportedCost_ledger hnonneg e.messageId cost
        refine ⟨hcosts, ?_, by rw [hsession]⟩
        rw [hsession, htotal, le_antisymm hno hle, add_zero]
    next hyes =>
      obtain ⟨transition, db', he, htotal', hcosts', hflag'⟩ := charge_some
        (raiseReportedCost db e.messageId cost).2 (not_le.mp hyes) (some e.messageId) now
      refine ⟨_, db', by simp only [he, Option.bind_eq_bind, Option.bind_some]; rfl, ?_, ?_⟩
      · intro hflag
        obtain ⟨hexact, hstep⟩ := hflag' (hflag.of_session hsession)
        exact ⟨hexact, hstep.of_quiet hquiet hsession⟩
      · intro hnonneg
        obtain ⟨hcosts, htotal, hle⟩ := raiseReportedCost_ledger hnonneg e.messageId cost
        refine ⟨hcosts'.trans hcosts, ?_, ?_⟩
        · rw [htotal', hsession, reportedTotal_eq, hcosts', ← reportedTotal_eq, htotal]
          linarith
        · rw [htotal', hsession]
          exact le_add_of_nonneg_right hle

/-- A step report. Without the cumulative field the step's own cost is charged, and the
ledger says nothing of it. -/
theorem ingestStepFinish_some (db : SessionDb) (e : StepFinishEvent) (now : Millis) :
    ∃ transition db', ingestStepFinish db e (some e.messageId) now = some (transition, db') ∧
      (FlagExact db → FlagExact db' ∧ FlagStep db db' now) ∧
      (∀ cost, e.messageCostUsd = some cost → CostsNonneg db →
        LedgerStep db db' (some (e.messageId, cost))) := by
  -- whatever the step reports, it is observed quietly and then charged if it is positive
  have hcharge : ∀ (delta : ℚ) (observed : SessionDb),
      observeReportedCost db e (some e.messageId) = (delta, observed) →
      Quiet db observed → observed.session = db.session →
      ∃ transition db', ingestStepFinish db e (some e.messageId) now = some (transition, db') ∧
        (FlagExact db → FlagExact db' ∧ FlagStep db db' now) ∧ db'.costs = observed.costs ∧
        db'.session.totalCost = db.session.totalCost + max 0 delta := by
    intro delta observed hobs hquiet hsession
    unfold ingestStepFinish
    rw [hobs]
    dsimp only
    split
    next hpos =>
      obtain ⟨transition, db', he, htotal, hcosts, hflag'⟩ :=
        charge_some observed hpos (some e.messageId) now
      refine ⟨_, db', by simp only [he, Option.bind_eq_bind, Option.bind_some]; rfl, ?_, hcosts,
        ?_⟩
      · intro hflag
        obtain ⟨hexact, hstep⟩ := hflag' (hflag.of_session hsession)
        exact ⟨hexact, hstep.of_quiet hquiet hsession⟩
      · rw [htotal, hsession, max_eq_right hpos.le]
    next hno =>
      refine ⟨_, _, rfl, fun hflag => ⟨hflag.of_session hsession, .quiet hquiet ?_⟩, rfl, ?_⟩
      · rw [hsession]
        exact fun h => h
      · rw [hsession, max_eq_left (not_lt.mp hno), add_zero]
  cases hcost : e.messageCostUsd with
  | some cost =>
    have hobs : observeReportedCost db e (some e.messageId) =
        raiseReportedCost db e.messageId cost := by
      rw [observeReportedCost, hcost]
      rfl
    obtain ⟨hquiet, hsession⟩ := raiseReportedCost_quiet db e.messageId cost
    obtain ⟨transition, db', he, hflag, hcosts', htotal'⟩ :=
      hcharge (raiseReportedCost db e.messageId cost).1 (raiseReportedCost db e.messageId cost).2
        hobs hquiet hsession
    refine ⟨transition, db', he, hflag, ?_⟩
    intro c hc hnonneg
    cases hc
    obtain ⟨hcosts, htotal, hle⟩ := raiseReportedCost_ledger hnonneg e.messageId cost
    rw [max_eq_right hle] at htotal'
    refine ⟨hcosts'.trans hcosts, ?_, ?_⟩
    · rw [htotal', reportedTotal_eq, hcosts', ← reportedTotal_eq, htotal]
      linarith
    · rw [htotal']
      exact le_add_of_nonneg_right hle
  | none =>
    have hobs : (observeReportedCost db e (some e.messageId)).2 = db := by
      unfold observeReportedCost
      rw [hcost]
      dsimp only
      split
      next => split <;> rfl
      next => rfl
    obtain ⟨transition, db', he, hflag, -⟩ := hcharge _ db (Prod.ext rfl hobs) (.refl db) rfl
    exact ⟨transition, db', he, hflag, nofun⟩

/-- The first half of `handleExecutionComplete`'s transaction: the turn it names ends by
its own outcome if it was running; otherwise at most its fence goes. -/
theorem settleTurn_spec (db : SessionDb) (e : ExecutionCompleteEvent) (now : Millis) :
    ∃ completion db₁, (∀ transition db', observeExecutionCost db₁ e now = some (transition, db') →
        completeExecution db e ((getProcessingMessage db).map MessageRow.id) now =
          some (completion, transition, db')) ∧
      db₁.session = db.session ∧ db₁.costs = db.costs ∧ db₁.warningCount = db.warningCount ∧
      ∀ k, db₁.messageStatus? k = db.messageStatus? k ∨
        (k = e.messageId ∧ db.messageStatus? k = some .processing ∧
          db₁.messageStatus? k = some e.outcome.status) := by
  unfold completeExecution
  by_cases hmine : (getProcessingMessage db).map MessageRow.id = some e.messageId
  · rw [if_pos hmine]
    obtain ⟨p, hp, hid⟩ := Option.map_eq_some_iff.mp hmine
    obtain ⟨hrow, hprocessing⟩ := getProcessingMessage_some hp
    rw [hid] at hrow
    have hcosts := recordMessageCompletion_costs db e.messageId e.outcome now .processing
    have hwarn := recordMessageCompletion_warningCount db e.messageId e.outcome now .processing
    rcases recordMessageCompletion_cases db e.messageId e.outcome now .processing with
      ⟨-, hne⟩ | ⟨row, db₁, hrec, hget, -, hdb, hmsg, -⟩
    · exact absurd hprocessing (hne p hrow)
    · rw [hrow] at hget
      cases hget
      rw [hrec] at hcosts hwarn ⊢
      have hsession : db₁.session = db.session := by rw [hdb]
      refine ⟨some ⟨e.messageId, p.createdAt, p.startedAt, now, e.outcome.status⟩, db₁, ?_,
        hsession, hcosts, hwarn, ?_⟩
      · intro transition db' he
        simp only [Option.isNone_some, Bool.false_eq_true, if_false, he, Option.bind_eq_bind,
          Option.bind_some]
      · intro k
        by_cases hk : k = e.messageId
        · refine .inr ⟨hk, messageStatus?_eq_some.mpr ⟨p, hk ▸ hrow, hprocessing⟩, ?_⟩
          rw [SessionDb.messageStatus?, hmsg, if_pos hk]
          rfl
        · refine .inl ?_
          rw [SessionDb.messageStatus?, hmsg, if_neg hk]
          rfl
  · rw [if_neg hmine]
    refine ⟨none, clearMessageAwaitingStopConfirmation db e.messageId, ?_, rfl,
      costs_updateMessage db e.messageId (·.unfence) (fun _ => rfl) fun _ => rfl, rfl, ?_⟩
    · intro transition db' he
      simp only [Option.isNone_none, if_true, he, Option.bind_eq_bind, Option.bind_some]
    · intro k
      refine .inl ?_
      have hk := message?_updateMessage db e.messageId (·.unfence) (fun _ => rfl) k
      have hget : (clearMessageAwaitingStopConfirmation db e.messageId).message? k = _ := hk
      rw [SessionDb.messageStatus?, hget]
      split
      · rw [Option.map_map]
        rfl
      · rfl

/-- A live edit of the limit sets the flag by what was spent. -/
theorem commitLimit_some (db : SessionDb) (maxCostUsd : Option ℚ) (now : Millis) :
    ∃ transition db', commitLimit db maxCostUsd now = some (transition, db') ∧
      (FlagExact db → FlagExact db' ∧ FlagStep db db' now) ∧ LedgerStep db db' none := by
  have hreached : (maxCostUsd.any fun limit => limit ≤ db.session.totalCost) = true ↔
      ∃ limit, maxCostUsd = some limit ∧ limit ≤ db.session.totalCost := by
    simp [Option.any_eq_true]
  unfold commitLimit
  dsimp only
  split
  next hon =>
    obtain ⟨hlimit, hoff⟩ := hon
    rw [Bool.not_eq_true] at hoff
    obtain ⟨reason, transition, db', he, -, hsession, hwarn, hstop⟩ := prepareExhaustion_some
      (setSessionBudget db maxCostUsd (maxCostUsd.any fun limit => limit ≤ db.session.totalCost)
        now) db.session.totalCost (maxCostUsd.getD 0) none now
    have hstop' : Stopped db db' reason now :=
      ⟨hstop.costs, hstop.attachments, hstop.userEvents, hstop.idle, hstop.stopped⟩
    refine ⟨transition, db', he, fun _ => ⟨?_, .exhausted ⟨hoff, ?_⟩ hwarn hstop'.stopsTurn⟩,
      ⟨hstop.costs, ?_, by rw [hsession]; rfl⟩⟩
    · rw [FlagExact, hsession]
      exact hreached
    · rw [hsession]
      exact hlimit
    · rw [hsession, reportedTotal_eq, hstop'.costs, ← reportedTotal_eq]
      rfl
  next hno =>
    refine ⟨_, _, rfl, fun _ => ⟨hreached, .quiet ⟨rfl, rfl, rfl⟩ ?_⟩, ⟨rfl, rfl, le_rfl⟩⟩
    intro hlimit
    by_contra hoff
    exact hno ⟨hlimit, hoff⟩

/-! ## One transaction -/

/-- The cumulative report a transaction carries. -/
def CostOp.report : CostOp → Option (MessageId × ℚ)
  | .stepFinish e _ => e.messageCostUsd.map fun c => (e.messageId, c)
  | .executionComplete e _ => e.messageCostUsd.map fun c => (e.messageId, c)
  | .updateLimit _ _ => none

/-- A step that carries the cumulative field. -/
def CostOp.Cumulative : CostOp → Prop
  | .stepFinish e _ => e.messageCostUsd.isSome
  | _ => True

instance : DecidablePred CostOp.Cumulative
  | .stepFinish e _ => inferInstanceAs (Decidable (e.messageCostUsd.isSome = true))
  | .executionComplete _ _ | .updateLimit _ _ => .isTrue trivial

theorem applyCost_ledger {op : CostOp} (hop : op.Cumulative) (h : CostsNonneg db) :
    LedgerStep db (applyCost db op) op.report := by
  cases op with
  | stepFinish e now =>
    obtain ⟨cost, hcost⟩ := Option.isSome_iff_exists.mp hop
    obtain ⟨transition, db', he, -, hledger⟩ := ingestStepFinish_some db e now
    simp only [applyCost, CostOp.commit, he, Option.map_some, Option.getD_some, CostOp.report,
      hcost]
    exact hledger cost hcost h
  | executionComplete e now =>
    obtain ⟨completion, db₁, hrun, hsession, hcosts, -, -⟩ := settleTurn_spec db e now
    obtain ⟨transition, db', he, -, hledger⟩ := observeExecutionCost_some db₁ e now
    simp only [applyCost, CostOp.commit, hrun _ _ he, Option.map_some, Option.getD_some]
    have hnonneg : CostsNonneg db₁ := by
      rw [CostsNonneg, hcosts]
      exact h
    have hstep := hledger hnonneg
    refine ⟨by rw [hstep.costs, hcosts]; rfl, ?_, hsession ▸ hstep.mono⟩
    rw [hstep.balance, hsession, reportedTotal_eq, hcosts, ← reportedTotal_eq]
  | updateLimit maxCostUsd now =>
    obtain ⟨transition, db', he, -, hledger⟩ := commitLimit_some db maxCostUsd now
    simp only [applyCost, CostOp.commit, CostOp.report]
    split
    next => exact ⟨rfl, rfl, le_rfl⟩
    next =>
      simp only [he, Option.map_some, Option.getD_some]
      exact hledger

/-! ## Runs: the ledger -/

/-- What a report says of `m`. -/
def reportFor (m : MessageId) : Option (MessageId × ℚ) → ℚ
  | some (k, cost) => if m = k then cost else 0
  | none => 0

/-- The highest positive report for `m` among the transactions, `0` if there is none. -/
def highestReport (m : MessageId) (ops : List CostOp) : ℚ :=
  (ops.map fun op => reportFor m op.report).foldr max 0

theorem highestReport_nonneg (m : MessageId) (ops : List CostOp) : 0 ≤ highestReport m ops := by
  induction ops with
  | nil => exact le_rfl
  | cons op ops ih => exact le_max_of_le_right ih

theorem joinReport_eq {costs : List (MessageId × ℚ)} (h : ∀ c ∈ costs, 0 ≤ c.2)
    (report : Option (MessageId × ℚ)) :
    joinReport costs report = costs.map fun c => (c.1, max c.2 (reportFor c.1 report)) := by
  cases report with
  | none =>
    refine ((List.map_congr_left ?_).trans (List.map_id costs)).symm
    intro c hc
    simp only [reportFor, max_eq_left (h c hc), id_eq]
  | some r =>
    refine List.map_congr_left ?_
    intro c hc
    simp only [reportFor]
    split
    next => rfl
    next => rw [max_eq_left (h c hc)]

/-- After a run, a row holds the highest of what it held and what was reported for it,
and the total has moved with the rows. -/
theorem runCosts_ledger (h : CostsNonneg db) {ops : List CostOp} (hops : ∀ op ∈ ops, op.Cumulative)
    :
    (runCosts db ops).costs = db.costs.map (fun c => (c.1, max c.2 (highestReport c.1 ops))) ∧
      (runCosts db ops).session.totalCost - (runCosts db ops).reportedTotal =
        db.session.totalCost - db.reportedTotal ∧
      db.session.totalCost ≤ (runCosts db ops).session.totalCost := by
  induction ops generalizing db with
  | nil =>
    refine ⟨?_, rfl, le_rfl⟩
    refine ((List.map_congr_left ?_).trans (List.map_id db.costs)).symm
    intro c hc
    simp only [highestReport, List.map_nil, List.foldr_nil, max_eq_left (h c hc), id_eq]
  | cons op ops ih =>
    have hstep := applyCost_ledger (hops op List.mem_cons_self) h
    have hcosts := hstep.costs.trans (joinReport_eq h op.report)
    have hnonneg : CostsNonneg (applyCost db op) := by
      rw [CostsNonneg, hcosts]
      intro c hc
      obtain ⟨d, hd, rfl⟩ := List.mem_map.mp hc
      exact (h d hd).trans (le_max_left _ _)
    obtain ⟨ihcosts, ihbalance, ihmono⟩ := ih hnonneg fun o ho => hops o (List.mem_cons_of_mem _ ho)
    refine ⟨?_, ihbalance.trans hstep.balance, hstep.mono.trans ihmono⟩
    refine ihcosts.trans ?_
    rw [hcosts, List.map_map]
    refine List.map_congr_left ?_
    intro c _
    simp only [Function.comp, highestReport, List.map_cons, List.foldr_cons, max_assoc]

theorem runCosts_nonneg (h : CostsNonneg db) {ops : List CostOp} (hops : ∀ op ∈ ops, op.Cumulative)
    :
    CostsNonneg (runCosts db ops) := by
  rw [CostsNonneg, (runCosts_ledger h hops).1]
  intro c hc
  obtain ⟨d, hd, rfl⟩ := List.mem_map.mp hc
  exact (h d hd).trans (le_max_left _ _)

/-- No message has been charged yet. -/
def NothingReported (db : SessionDb) : Prop :=
  ∀ r ∈ db.messages.rows, r.reportedCostUsd = 0

theorem NothingReported.nonneg (h : NothingReported db) : CostsNonneg db := by
  intro c hc
  obtain ⟨r, hr, rfl⟩ := List.mem_map.mp hc
  exact (h r hr).ge

/-- **Cost is a function of the highest reports.** Whatever cumulative reports arrive, in
whatever order, repeated or with intermediate ones lost, and however the limit is
edited meanwhile: the total has grown by the sum, over the messages there are, of the
highest positive report for each, that report is what the row holds, a report for a
message there is not adds nothing, and the total never went down on the way. -/
theorem cost_of_reports {db : SessionDb} (h : NothingReported db) {ops : List CostOp}
    (hops : ∀ op ∈ ops, op.Cumulative) :
    (runCosts db ops).session.totalCost =
        db.session.totalCost + (db.messages.rows.map fun r => highestReport r.id ops).sum ∧
      (∀ m, ((runCosts db ops).message? m).map MessageRow.reportedCostUsd =
        (db.message? m).map fun _ => highestReport m ops) ∧
      (∀ op : CostOp, op.Cumulative →
        (∀ m cost, op.report = some (m, cost) → (runCosts db ops).message? m = none) →
        (applyCost (runCosts db ops) op).session.totalCost =
          (runCosts db ops).session.totalCost) ∧
      ∀ done rest, ops = done ++ rest →
        (runCosts db done).session.totalCost ≤ (runCosts db ops).session.totalCost := by
  have hzero : db.reportedTotal = 0 := by
    refine List.sum_eq_zero ?_
    intro c hc
    obtain ⟨r, hr, rfl⟩ := List.mem_map.mp hc
    exact h r hr
  obtain ⟨hcosts, hbalance, -⟩ := runCosts_ledger h.nonneg hops
  have hrows : (runCosts db ops).costs =
      db.messages.rows.map fun r => (r.id, highestReport r.id ops) := by
    rw [hcosts, SessionDb.costs, List.map_map]
    refine List.map_congr_left ?_
    intro r hr
    simp only [Function.comp, h r hr, max_eq_right (highestReport_nonneg r.id ops)]
  refine ⟨?_, ?_, ?_, ?_⟩
  · rw [hzero, sub_zero, reportedTotal_eq, hrows, List.map_map] at hbalance
    exact sub_eq_iff_eq_add.mp hbalance
  · intro m
    have hcolumn := Table.map_get? (runCosts db ops).messages MessageRow.reportedCostUsd m
    have hbefore := Table.map_get? db.messages (fun r => highestReport r.id ops) m
    rw [← hrows] at hbefore
    refine (hcolumn.trans hbefore.symm).trans ?_
    refine Option.map_congr ?_
    intro r hr
    rw [SessionDb.id_of_message? hr]
  · intro op hop hunknown
    have hstep := applyCost_ledger hop (runCosts_nonneg h.nonneg hops)
    have hsame : joinReport (runCosts db ops).costs op.report = (runCosts db ops).costs := by
      cases hreport : op.report with
      | none => rfl
      | some r =>
        obtain ⟨m, cost⟩ := r
        refine (List.map_congr_left ?_).trans (List.map_id _)
        intro c hc
        obtain ⟨r, hr, rfl⟩ := List.mem_map.mp hc
        rw [if_neg (Table.get?_eq_none.mp (hunknown m cost hreport) r hr)]
        rfl
    have hbalance' := hstep.balance
    rw [reportedTotal_eq, hstep.costs, hsame, ← reportedTotal_eq] at hbalance'
    exact sub_left_inj.mp hbalance'
  · intro done rest hsplit
    subst hsplit
    have hdone : ∀ op ∈ done, op.Cumulative := fun o ho => hops o (List.mem_append_left _ ho)
    have hrest : ∀ op ∈ rest, op.Cumulative := fun o ho => hops o (List.mem_append_right _ ho)
    have hmono := (runCosts_ledger (runCosts_nonneg h.nonneg hdone) hrest).2.2
    rw [runCosts_append]
    exact hmono

/-- Two turns report out of order, one report is repeated and one comes after the turn
was stopped; a third names a message there is not. -/
def twoTurnsDb : SessionDb :=
  { SessionDb.fresh {} with
    messages :=
      { rows :=
          [{ id := 1, rowid := 1, content := "a", source := .web, status := .completed,
             createdAt := 1 },
           { id := 2, rowid := 2, content := "b", source := .web, status := .processing,
             createdAt := 2, startedAt := some 3 }]
        nodup := by decide } }

def shuffledReports : List CostOp :=
  [.stepFinish { messageId := 2, messageCostUsd := some 2 } 4,
    .executionComplete { messageId := 1, outcome := { success := true }, messageCostUsd := some 3 } 5,
    .updateLimit (some 4) 6,
    .stepFinish { messageId := 2, messageCostUsd := some (1 / 2) } 7,
    .stepFinish { messageId := 1, messageCostUsd := some 3 } 8,
    .executionComplete { messageId := 2, outcome := { success := false }, messageCostUsd := some 2 } 9,
    .stepFinish { messageId := 9, messageCostUsd := some 8 } 10]

theorem cost_of_shuffledReports : (runCosts twoTurnsDb shuffledReports).session.totalCost = 5 := by
  have hnone : NothingReported twoTurnsDb := by
    unfold NothingReported
    decide
  have hops : ∀ op ∈ shuffledReports, op.Cumulative := by decide
  rw [(cost_of_reports hnone hops).1]
  decide +kernel

/-! ## Runs: the flag -/

/-- The message whose `execution_complete` this transaction is, and how it ended. -/
def CostOp.Settles (m : MessageId) (status : MessageStatus) : CostOp → Prop
  | .executionComplete e _ => e.messageId = m ∧ status = e.outcome.status
  | _ => False

/-- What a transaction does to an exact flag. -/
structure BudgetStep (db db' : SessionDb) (op : CostOp) : Prop where
  exact : FlagExact db'
  warnings : db'.warningCount = db.warningCount + if TurnsOn db db' then 1 else 0
  one : AtMostOneProcessing db'
  stops : TurnsOn db db' → ∀ m, db'.messageStatus? m ≠ some .processing ∧
    (db.messageStatus? m = some .processing →
      db'.messageStatus? m = some .failed ∧
          db'.fence? m = some (op.now + stopConfirmationTimeoutMs) ∨
        ∃ status, op.Settles m status ∧ db'.messageStatus? m = some status)

theorem FlagStep.budgetStep {db db' : SessionDb} {op : CostOp} (hone : AtMostOneProcessing db)
    (hexact : FlagExact db') (h : FlagStep db db' op.now) : BudgetStep db db' op := by
  cases h with
  | quiet hq hoff =>
    have hno : ¬TurnsOn db db' := by
      rintro ⟨hfalse, hon⟩
      rw [hoff hon] at hfalse
      cases hfalse
    refine ⟨hexact, by rw [if_neg hno, hq.warnings, add_zero], ?_, fun hon => absurd hon hno⟩
    intro m m'
    rw [hq.status]
    exact hone m m'
  | exhausted hon hwarn hstop =>
    refine ⟨hexact, by rw [if_pos hon, hwarn], ?_, ?_⟩
    · intro m m' hm
      exact absurd hm (hstop hone m).1
    · intro _ m
      exact ⟨(hstop hone m).1, fun hm => .inl ((hstop hone m).2.1 hm)⟩

theorem ExecutionOutcome.status_ne_processing (o : ExecutionOutcome) :
    o.status ≠ .processing := by
  unfold ExecutionOutcome.status
  split <;> nofun

/-- **One transaction.** The flag stays exact; when it goes on, nothing is left processing
and one warning is persisted. -/
theorem applyCost_flag (hflag : FlagExact db) (hone : AtMostOneProcessing db) (op : CostOp) :
    BudgetStep db (applyCost db op) op := by
  cases op with
  | stepFinish e now =>
    obtain ⟨transition, db', he, hstep, -⟩ := ingestStepFinish_some db e now
    simp only [applyCost, CostOp.commit, he, Option.map_some, Option.getD_some]
    obtain ⟨hexact, hflagStep⟩ := hstep hflag
    exact hflagStep.budgetStep hone hexact
  | updateLimit maxCostUsd now =>
    obtain ⟨transition, db', he, hstep, -⟩ := commitLimit_some db maxCostUsd now
    simp only [applyCost, CostOp.commit]
    split
    next =>
      have hquiet : FlagStep db db (CostOp.updateLimit maxCostUsd now).now :=
        .quiet (.refl db) fun h => h
      exact hquiet.budgetStep hone hflag
    next =>
      simp only [he, Option.map_some, Option.getD_some]
      obtain ⟨hexact, hflagStep⟩ := hstep hflag
      exact hflagStep.budgetStep hone hexact
  | executionComplete e now =>
    obtain ⟨completion, db₁, hrun, hsession, -, hwarn, hstatus⟩ := settleTurn_spec db e now
    obtain ⟨transition, db', he, hstep, -⟩ := observeExecutionCost_some db₁ e now
    simp only [applyCost, CostOp.commit, hrun _ _ he, Option.map_some, Option.getD_some]
    have hstill : ∀ m, db₁.messageStatus? m = some .processing →
        db.messageStatus? m = some .processing := by
      intro m hm
      rcases hstatus m with hsame | ⟨-, -, hended⟩
      · rw [← hsame]
        exact hm
      · rw [hended, Option.some.injEq] at hm
        exact absurd hm e.outcome.status_ne_processing
    have hone₁ : AtMostOneProcessing db₁ := fun m m' hm hm' => hone m m' (hstill m hm) (hstill m' hm')
    obtain ⟨hexact, hflagStep⟩ := hstep (hflag.of_session hsession)
    have hb : BudgetStep db₁ db' (.executionComplete e now) := hflagStep.budgetStep hone₁ hexact
    have hturns : TurnsOn db db' ↔ TurnsOn db₁ db' := by
      rw [TurnsOn, TurnsOn, hsession]
    refine ⟨hexact, ?_, hb.one, ?_⟩
    · rw [hb.warnings, hwarn]
      simp only [hturns]
    · intro hon m
      obtain ⟨hidle, hstopped⟩ := hb.stops (hturns.mp hon) m
      refine ⟨hidle, fun hm => ?_⟩
      rcases hstatus m with hsame | ⟨hmine, -, hended⟩
      · exact hstopped (hsame.trans hm)
      · -- the turn ended by its own report before its cost was settled
        refine .inr ⟨e.outcome.status, ⟨hmine.symm, rfl⟩, ?_⟩
        have hkept : db'.messageStatus? m = db₁.messageStatus? m := by
          cases hflagStep with
          | quiet hq _ => rw [hq.status]
          | exhausted _ _ hstop =>
            refine (hstop hone₁ m).2.2 ?_
            rw [hended, ne_eq, Option.some.injEq]
            exact e.outcome.status_ne_processing
        rw [hkept, hended]

theorem runCosts_flag (hflag : FlagExact db) (hone : AtMostOneProcessing db) (ops : List CostOp) :
    FlagExact (runCosts db ops) ∧ AtMostOneProcessing (runCosts db ops) := by
  induction ops generalizing db with
  | nil => exact ⟨hflag, hone⟩
  | cons op ops ih =>
    have hstep := applyCost_flag hflag hone op
    exact ih hstep.exact hstep.one

/-- One running turn, and a limit of five dollars. -/
def runningTurnDb : SessionDb :=
  { SessionDb.fresh { maxCostUsd := some 5 } with
    messages :=
      { rows :=
          [{ id := 1, rowid := 1, content := "a", source := .web, status := .processing,
             createdAt := 1, startedAt := some 2 }]
        nodup := by decide } }

theorem runningTurnDb_atMostOneProcessing : AtMostOneProcessing runningTurnDb := by
  have hid : ∀ m, runningTurnDb.messageStatus? m = some .processing → m = 1 := by
    intro m hm
    obtain ⟨row, hrow, -⟩ := messageStatus?_eq_some.mp hm
    have hmem := List.mem_singleton.mp (Table.mem_of_get? hrow)
    rw [← SessionDb.id_of_message? hrow, hmem]
  intro m m' hm hm'
  rw [hid m hm, hid m' hm']

theorem runningTurnDb_below :
    ∀ limit, runningTurnDb.session.maxCostUsd = some limit →
      runningTurnDb.session.totalCost < limit := by
  intro limit hlimit
  cases hlimit
  decide +kernel

/-- A step report that reaches the limit stops the turn. -/
def exhaustingStep : CostOp :=
  .stepFinish { messageId := 1, messageCostUsd := some 6 } 3

/-- The turn's own final report may be the one that reaches the limit: that turn is
completed, not failed, and there is no stop to confirm. -/
def exhaustingCompletion : CostOp :=
  .executionComplete
    { messageId := 1, outcome := { success := true }, messageCostUsd := some 6 } 3

end BackgroundAgents.Session

import BackgroundAgents.Session.QueueWakeup

/-!
# The status of a settled session

When a session is open and has no unfinished message, its status should say how
the latest finished message ended (`Truthful`). Most of the code derives it from
the messages. Two places write an outcome they were handed instead, both through
`reconcileAfterExecution`:

* whatever fails a message on the spot writes `failed`, in the same turn. That is
  the truth, unless a completed message has the same `completed_at` and wins the
  tie (`Outranked`);
* `handleExecutionComplete` writes the outcome of its turn after it has awaited
  the projection. By then a later turn may have ended otherwise (`Stale`).

`status_truthful` is about the runs in which neither happens; the invariant is
that the status is truthful, or a completion handler has still to write it.
`late_completion_overwrites_failure` is a run in which the second happens.
-/

namespace BackgroundAgents.Session

open BackgroundAgents.Coroutine

/-! ## What a status is read off -/

/-- Where a message stands, in the order in which finished messages are compared. -/
def MessageRow.standing (row : MessageRow) : MessageStatus × (Millis ×ₗ Millis ×ₗ MessageId) :=
  (row.status, row.terminalKey)

def SessionDb.standing (db : SessionDb) (m : MessageId) :
    Option (MessageStatus × (Millis ×ₗ Millis ×ₗ MessageId)) :=
  (db.message? m).map MessageRow.standing

/-- Open, with nothing queued or running. -/
def Settled (db : SessionDb) : Prop :=
  isSessionClosed db = false ∧ getPendingOrProcessingCount db = 0

/-- A settled session has the status of its latest finished message. -/
def Truthful (db : SessionDb) : Prop :=
  Settled db → db.session.status = getIdleStatusFromTerminalMessages db

section Standing

variable {db db' db'' : SessionDb} {m : MessageId} {t : Millis}

theorem standing_eq_some {x : MessageStatus × (Millis ×ₗ Millis ×ₗ MessageId)} :
    db.standing m = some x ↔ ∃ row, db.message? m = some row ∧ row.standing = x := by
  rw [SessionDb.standing, Option.map_eq_some_iff]

/-- The key of a message names it. -/
theorem id_of_standing {st : MessageStatus} {key : Millis ×ₗ Millis ×ₗ MessageId}
    (h : db.standing m = some (st, key)) : (ofLex (ofLex key).2).2 = m := by
  obtain ⟨row, hrow, he⟩ := standing_eq_some.mp h
  have hkey : row.terminalKey = key := congrArg Prod.snd he
  rw [← hkey]
  exact db.id_of_message? hrow

theorem settled_iff : Settled db ↔ isSessionClosed db = false ∧
    ∀ k st key, db.standing k = some (st, key) → st.unfinished = false := by
  rw [Settled, getPendingOrProcessingCount_eq_zero]
  refine and_congr_right fun _ => ?_
  constructor
  · intro h k st key hk
    obtain ⟨row, hrow, he⟩ := standing_eq_some.mp hk
    cases he
    exact h k row hrow
  · intro h k row hrow
    exact h k _ _ (standing_eq_some.mpr ⟨row, hrow, rfl⟩)

/-- The idle status is the outcome of the message at the end of the order. -/
theorem idleStatus_of_latest {st : MessageStatus} {key : Millis ×ₗ Millis ×ₗ MessageId}
    (h : db.standing m = some (st, key)) (hterminal : st.terminal = true)
    (hmax : ∀ k st' key', db.standing k = some (st', key') → st'.terminal = true → key' ≤ key) :
    getIdleStatusFromTerminalMessages db = if st = .failed then .failed else .completed := by
  obtain ⟨row, hrow, he⟩ := standing_eq_some.mp h
  cases he
  unfold getIdleStatusFromTerminalMessages
  cases hlatest : getLatestTerminalMessage db with
  | none =>
    have hno := getLatestTerminalMessage_none.mp hlatest m row hrow
    rw [hno] at hterminal
    cases hterminal
  | some latest =>
    obtain ⟨hl, hlt, hlmax⟩ := getLatestTerminalMessage_some hlatest
    have hls := standing_eq_some.mpr ⟨latest, hl, rfl⟩
    have heq : latest.terminalKey = row.terminalKey :=
      le_antisymm (hmax _ _ _ hls hlt) (hlmax m row hrow hterminal)
    have hid : latest.id = m := by
      rw [← id_of_standing hls, ← id_of_standing h, heq]
    rw [hid, hrow] at hl
    cases hl
    rfl

theorem idleStatus_of_none (h : ∀ k st key, db.standing k = some (st, key) → st.terminal = false) :
    getIdleStatusFromTerminalMessages db = .created := by
  unfold getIdleStatusFromTerminalMessages
  rw [getLatestTerminalMessage_none.mpr]
  intro k row hrow
  exact h k _ _ (standing_eq_some.mpr ⟨row, hrow, rfl⟩)

theorem idleStatus_congr (h : ∀ k, db'.standing k = db.standing k) :
    getIdleStatusFromTerminalMessages db' = getIdleStatusFromTerminalMessages db := by
  cases hlatest : getLatestTerminalMessage db with
  | none =>
    have hnone : ∀ k st key, db.standing k = some (st, key) → st.terminal = false := by
      intro k st key hk
      obtain ⟨row, hrow, he⟩ := standing_eq_some.mp hk
      cases he
      exact getLatestTerminalMessage_none.mp hlatest k row hrow
    rw [idleStatus_of_none hnone, idleStatus_of_none fun k st key hk => hnone k st key (h k ▸ hk)]
  | some latest =>
    obtain ⟨hl, hlt, hlmax⟩ := getLatestTerminalMessage_some hlatest
    have hls : db.standing latest.id = some (latest.status, latest.terminalKey) :=
      standing_eq_some.mpr ⟨latest, hl, rfl⟩
    have hmax : ∀ k st' key', db.standing k = some (st', key') → st'.terminal = true →
        key' ≤ latest.terminalKey := by
      intro k st' key' hk ht
      obtain ⟨row, hrow, he⟩ := standing_eq_some.mp hk
      cases he
      exact hlmax k row hrow ht
    rw [idleStatus_of_latest hls hlt hmax, idleStatus_of_latest ((h _).trans hls) hlt
      fun k st' key' hk => hmax k st' key' (h k ▸ hk)]

/-- A transaction that leaves every message where it stands, and the status too. -/
structure SameStanding (db db' : SessionDb) : Prop where
  standing : ∀ k, db'.standing k = db.standing k
  status : db'.session.status = db.session.status

theorem SameStanding.refl (db : SessionDb) : SameStanding db db := ⟨fun _ => rfl, rfl⟩

theorem SameStanding.trans (h : SameStanding db db') (h' : SameStanding db' db'') :
    SameStanding db db'' :=
  ⟨fun k => (h'.standing k).trans (h.standing k), h'.status.trans h.status⟩

theorem SameStanding.of_messages (h : db'.messages = db.messages)
    (hstatus : db'.session.status = db.session.status) : SameStanding db db' := by
  refine ⟨?_, hstatus⟩
  intro k
  rw [SessionDb.standing, SessionDb.standing, message?_congr h]

theorem SameStanding.closed (h : SameStanding db db') :
    isSessionClosed db' = isSessionClosed db := by
  rw [isSessionClosed, isSessionClosed, h.status]

theorem SameStanding.settled (h : SameStanding db db') : Settled db' ↔ Settled db := by
  rw [settled_iff, settled_iff, h.closed]
  simp only [h.standing]

theorem SameStanding.truthful (h : SameStanding db db') (ht : Truthful db) : Truthful db' := by
  intro hs
  rw [h.status, idleStatus_congr h.standing]
  exact ht (h.settled.mp hs)

theorem sameStanding_updateMessage (m : MessageId) (f : MessageRow → MessageRow)
    (hf : ∀ r, (f r).id = r.id) (hsame : ∀ r, (f r).standing = r.standing) :
    SameStanding db (db.updateMessage m f hf) := by
  refine ⟨?_, rfl⟩
  intro k
  rw [SessionDb.standing, SessionDb.standing, message?_updateMessage]
  split
  next =>
    rw [Option.map_map]
    exact congrArg (Option.map · _) (funext hsame)
  next => rfl

/-- A message that is unfinished keeps the session from being settled. -/
theorem truthful_of_unfinished {row : MessageRow} (hrow : db.message? m = some row)
    (h : row.status.unfinished = true) : Truthful db := by
  intro hs
  rw [getPendingOrProcessingCount_eq_zero.mp hs.2 m row hrow] at h
  cases h

theorem truthful_of_closed (h : isSessionClosed db = true) : Truthful db := by
  intro hs
  rw [hs.1] at h
  cases h

end Standing

/-! ## What a reconcile writes -/

section Reconcile

variable {db db' db'' : SessionDb} {m : MessageId} {t : Millis}

theorem beginTransition_settled {status : SessionStatus} {now : Millis}
    (h : Settled (beginTransition db status now)) : getPendingOrProcessingCount db = 0 := by
  have hmessages := (beginTransition_sessionOnly db status now).messages
  have hcount := h.2
  rw [getPendingOrProcessingCount, hmessages] at hcount
  exact hcount

theorem beginTransition_idleStatus (status : SessionStatus) (now : Millis) :
    getIdleStatusFromTerminalMessages (beginTransition db status now) =
      getIdleStatusFromTerminalMessages db := by
  refine idleStatus_congr ?_
  intro k
  rw [SessionDb.standing, SessionDb.standing,
    message?_congr (beginTransition_sessionOnly db status now).messages]

/-- A reconcile with an outcome it was handed is truthful if that is the outcome to write. -/
theorem reconcileAfterExecution_truthful {success : Bool} {now : Millis}
    (h : Settled db → getIdleStatusFromTerminalMessages db =
      if success then .completed else .failed) :
    Truthful (reconcileAfterExecution db success now) := by
  unfold reconcileAfterExecution
  split
  next hclosed => exact truthful_of_closed hclosed
  next hopen =>
    intro hs
    have hcount := beginTransition_settled hs
    rw [beginTransition_status, beginTransition_idleStatus, if_neg (by omega)]
    exact (h ⟨Bool.eq_false_iff.mpr hopen, hcount⟩).symm

theorem settleFromMessageState_truthful (now : Millis) :
    Truthful (settleFromMessageState db now) := by
  intro hs
  unfold settleFromMessageState at hs ⊢
  have hcount := beginTransition_settled hs
  rw [beginTransition_status, beginTransition_idleStatus, if_neg (by omega)]

theorem reconcileAfterQueueRemoval_truthful (now : Millis) :
    Truthful (reconcileAfterQueueRemoval db now) := by
  unfold reconcileAfterQueueRemoval
  split
  next hclosed => exact truthful_of_closed hclosed
  next =>
    split
    next hcount =>
      intro hs
      rw [hs.2] at hcount
      omega
    next =>
      intro _
      rw [beginTransition_status, beginTransition_idleStatus]

theorem reconcileFromMessageState_truthful (now : Millis) :
    Truthful (reconcileFromMessageState db now) := by
  unfold reconcileFromMessageState
  split
  next hclosed => exact truthful_of_closed hclosed
  next => exact settleFromMessageState_truthful now

/-! ## A message that fails on the spot -/

/-- `m` fails with `completed_at` set to `t`, and nothing else moves. -/
structure FailedAlone (m : MessageId) (t : Millis) (db db' : SessionDb) : Prop where
  status : db'.session.status = db.session.status
  standing : ∃ st key, db.standing m = some (st, key) ∧ ∀ k, db'.standing k =
    if k = m then some (.failed, toLex (t, (ofLex key).2)) else db.standing k

/-- If `m` were to fail with `completed_at` set to `t`, it would leave an open session
with nothing to do, and a completed message would come after it in the order. -/
def Outranked (db : SessionDb) (m : MessageId) (t : Millis) : Prop :=
  isSessionClosed db = false ∧
    (∀ r ∈ db.messages.rows, r.id ≠ m → r.status.unfinished = false) ∧
    ∃ row ∈ db.messages.rows, row.id = m ∧
      ∃ c ∈ db.messages.rows, c.status = .completed ∧
        toLex (t, (ofLex row.terminalKey).2) < c.terminalKey

instance (db : SessionDb) (m : MessageId) (t : Millis) : Decidable (Outranked db m t) :=
  inferInstanceAs (Decidable (_ ∧ _ ∧ _))

theorem FailedAlone.after (h : FailedAlone m t db' db'') (hsame : SameStanding db db') :
    FailedAlone m t db db'' := by
  obtain ⟨st, key, hm, hstanding⟩ := h.standing
  refine ⟨h.status.trans hsame.status, st, key, (hsame.standing m) ▸ hm, ?_⟩
  intro k
  rw [hstanding, hsame.standing]

theorem FailedAlone.before (h : FailedAlone m t db db') (hsame : SameStanding db' db'') :
    FailedAlone m t db db'' := by
  obtain ⟨st, key, hm, hstanding⟩ := h.standing
  refine ⟨hsame.status.trans h.status, st, key, hm, ?_⟩
  intro k
  rw [hsame.standing, hstanding]

theorem FailedAlone.of_message {row row' : MessageRow} (hrow : db.message? m = some row)
    (hq : ∀ k, db'.message? k = if k = m then some row' else db.message? k)
    (hrow' : row'.standing = (.failed, toLex (t, (ofLex row.terminalKey).2)))
    (hstatus : db'.session.status = db.session.status) : FailedAlone m t db db' := by
  refine ⟨hstatus, row.status, row.terminalKey, standing_eq_some.mpr ⟨row, hrow, rfl⟩, ?_⟩
  intro k
  rw [SessionDb.standing, hq]
  split
  next => exact congrArg some hrow'
  next => rfl

/-- The session it leaves settled has failed, unless a completed message outranks it. -/
theorem FailedAlone.idleStatus (h : FailedAlone m t db db') (hout : ¬ Outranked db m t)
    (hs : Settled db') : getIdleStatusFromTerminalMessages db' = .failed := by
  obtain ⟨st, key, hm, hstanding⟩ := h.standing
  obtain ⟨row, hrow, he⟩ := standing_eq_some.mp hm
  cases he
  rw [settled_iff] at hs
  have hopen : isSessionClosed db = false := by
    rw [isSessionClosed, ← h.status]
    exact hs.1
  have hothers : ∀ r ∈ db.messages.rows, r.id ≠ m → r.status.unfinished = false := by
    intro r hr hne
    refine hs.2 r.id r.status r.terminalKey ?_
    rw [hstanding, if_neg hne]
    exact standing_eq_some.mpr ⟨r, Table.mem_rows_iff.mp hr, rfl⟩
  have hmine : db'.standing m = some (.failed, toLex (t, (ofLex row.terminalKey).2)) := by
    rw [hstanding, if_pos rfl]
  unfold getIdleStatusFromTerminalMessages
  cases hlatest : getLatestTerminalMessage db' with
  | none =>
    obtain ⟨row', hrow', he'⟩ := standing_eq_some.mp hmine
    have hno := getLatestTerminalMessage_none.mp hlatest m row' hrow'
    have hfailed : row'.status = .failed := congrArg Prod.fst he'
    rw [hfailed] at hno
    cases hno
  | some latest =>
    obtain ⟨hl, hlt, hlmax⟩ := getLatestTerminalMessage_some hlatest
    have hls := standing_eq_some.mpr ⟨latest, hl, rfl⟩
    dsimp only
    by_cases hfailed : latest.status = .failed
    · rw [if_pos hfailed]
    · -- the latest message is a completed one, and not `m`: it outranks `m`
      exfalso
      have hne : latest.id ≠ m := by
        rintro rfl
        have hsame := Option.some.inj (hmine.symm.trans hls)
        exact hfailed (congrArg Prod.fst hsame).symm
      rw [hstanding, if_neg hne] at hls
      obtain ⟨c, hc, hceq⟩ := standing_eq_some.mp hls
      have hcs : c.status = latest.status := congrArg Prod.fst hceq
      have hck : c.terminalKey = latest.terminalKey := congrArg Prod.snd hceq
      have hcompleted : c.status = .completed := by
        rw [hcs]
        cases hst : latest.status with
        | completed => rfl
        | failed => exact absurd hst hfailed
        | pending | processing =>
          rw [hst] at hlt
          cases hlt
      obtain ⟨row', hrow', he'⟩ := standing_eq_some.mp hmine
      have hle : toLex (t, (ofLex row.terminalKey).2) ≤ latest.terminalKey := by
        have hkey : row'.terminalKey = toLex (t, (ofLex row.terminalKey).2) := congrArg Prod.snd he'
        rw [← hkey]
        refine hlmax m row' hrow' ?_
        have hf' : row'.status = .failed := congrArg Prod.fst he'
        rw [hf']
        rfl
      have hkeys : toLex (t, (ofLex row.terminalKey).2) ≠ latest.terminalKey := by
        intro heq
        have hid := id_of_standing (standing_eq_some.mpr ⟨latest, hl, rfl⟩)
        have hid' := id_of_standing hm
        rw [← heq] at hid
        exact hne (hid.symm.trans hid')
      refine hout ⟨hopen, hothers, row, Table.mem_of_get? hrow, db.id_of_message? hrow, c,
        Table.mem_of_get? hc, hcompleted, ?_⟩
      rw [hck]
      exact lt_of_le_of_ne hle hkeys

/-- The reconcile that follows is truthful. -/
theorem FailedAlone.reconciled (h : FailedAlone m t db db') (hout : ¬ Outranked db m t)
    (now : Millis) : Truthful (reconcileAfterExecution db' false now) :=
  reconcileAfterExecution_truthful fun hs => h.idleStatus hout hs

end Reconcile

/-! ## What the transactions do to the standings -/

section Transactions

variable {db db' db'' : SessionDb} {s s' : QueueState} {m : MessageId} {now t : Millis}

theorem messageStatus?_standing (db : SessionDb) (m : MessageId) :
    db.messageStatus? m = (db.standing m).map Prod.fst := by
  rw [SessionDb.messageStatus?, SessionDb.standing, Option.map_map]
  rfl

theorem failMessage_failedAlone {error : String} {expected : MessageStatus}
    (h : failMessage s m error t expected = (true, s')) :
    s.db.messageStatus? m = some expected ∧ FailedAlone m t s.db s'.db := by
  unfold failMessage at h
  split at h
  next db hrecord =>
    cases h
    rcases recordMessageCompletion_cases s.db m ⟨false, some error⟩ t expected with
      ⟨he, -⟩ | ⟨row, db', he, hrow, hstatus, hdb, hmsg, -⟩
    · rw [recordFailure, he] at hrecord
      cases hrecord
    · rw [recordFailure, he] at hrecord
      cases hrecord
      refine ⟨messageStatus?_eq_some.mpr ⟨row, hrow, hstatus⟩, ?_⟩
      exact .of_message hrow hmsg rfl (congrArg (·.session.status) hdb)
  next => cases h

theorem failMessage_same {error : String} {expected : MessageStatus}
    (h : failMessage s m error t expected = (false, s')) : s' = s := (failMessage_none h).1

/-- What a transaction that may stop the running turn does: it moves nothing, or it
fails one message that was processing. -/
def BudgetMove (db db' : SessionDb) (now : Millis) (stopped : Bool) : Prop :=
  (stopped = false ∧ SameStanding db db') ∨
    ∃ m, stopped = true ∧ db.messageStatus? m = some .processing ∧ FailedAlone m now db db'

theorem BudgetMove.after {stopped : Bool} (h : BudgetMove db' db'' now stopped)
    (hsame : SameStanding db db') : BudgetMove db db'' now stopped := by
  rcases h with ⟨hno, hstill⟩ | ⟨m, hyes, hm, hfailed⟩
  · exact .inl ⟨hno, hsame.trans hstill⟩
  · refine .inr ⟨m, hyes, ?_, hfailed.after hsame⟩
    rw [messageStatus?_standing, ← hsame.standing, ← messageStatus?_standing]
    exact hm

theorem prepare_move (reason : String) :
    BudgetMove db (prepare db reason now).2 now (prepare db reason now).1.isSome := by
  cases hp : getProcessingMessage db with
  | none =>
    rw [prepare_none hp]
    exact .inl ⟨rfl, .refl db⟩
  | some p =>
    obtain ⟨preparation, db', he, -, -, hsession, -, hstop⟩ := @prepare_some db reason now p hp
    obtain ⟨hrow, hprocessing⟩ := getProcessingMessage_some hp
    rw [he]
    refine .inr ⟨p.id, rfl, messageStatus?_eq_some.mpr ⟨p, hrow, hprocessing⟩, ?_⟩
    exact .of_message hrow (hstop.stopped p hp) rfl (by rw [hsession])

variable {k : Option MessageId}

theorem persistWarning_sameStanding {message : String}
    (h : persistWarning db message k now = some db') : SameStanding db db' := by
  obtain ⟨db₁, he, hdb, -⟩ := persistWarning_some db message k now
  rw [h] at he
  cases he
  exact .of_messages (by rw [hdb]) (by rw [hdb])

variable {transition : BudgetTransition}

theorem prepareExhaustion_move {totalCost limit : ℚ}
    (h : prepareExhaustion db totalCost limit k now = some (transition, db')) :
    BudgetMove db db' now transition.stopPreparation.isSome := by
  unfold prepareExhaustion at h
  simp only [Option.bind_eq_bind, Option.bind_eq_some_iff] at h
  obtain ⟨warned, hwarn, h⟩ := h
  cases h
  have hsame := persistWarning_sameStanding hwarn
  rcases @prepare_move db now ("Session cost limit reached: " ++ formatCost totalCost ++ " of " ++
    formatCost limit) with ⟨hno, hstill⟩ | ⟨m, hyes, hm, hfailed⟩
  · exact .inl ⟨hno, hstill.trans hsame⟩
  · exact .inr ⟨m, hyes, hm, hfailed.before hsame⟩

theorem applyObservedCost_move {totalCost : ℚ}
    (h : applyObservedCost db totalCost k now = some (transition, db')) :
    BudgetMove db db' now transition.stopPreparation.isSome := by
  unfold applyObservedCost at h
  split at h
  next =>
    cases h
    exact .inl ⟨rfl, .refl _⟩
  next =>
    split at h
    next =>
      cases h
      exact .inl ⟨rfl, .refl _⟩
    next => exact BudgetMove.after (prepareExhaustion_move h) (.of_messages rfl rfl)

theorem raiseReportedCost_sameStanding (m : MessageId) (cost : ℚ) :
    SameStanding db (raiseReportedCost db m cost).2 := by
  rcases raiseReportedCost_cases db m cost with ⟨he, -⟩ | ⟨row, -, -, -, he⟩
  · rw [he]
    exact .refl db
  · rw [he]
    exact sameStanding_updateMessage m _ _ fun _ => rfl

theorem addSessionCost_sameStanding (cost : ℚ) (updatedAt : Millis) :
    SameStanding db (addSessionCost db cost updatedAt).2 :=
  .of_messages rfl rfl

theorem ingestStepFinish_move {e : StepFinishEvent}
    (h : ingestStepFinish db e k now = some (transition, db')) :
    BudgetMove db db' now transition.stopPreparation.isSome := by
  have hobs : SameStanding db (observeReportedCost db e k).2 := by
    unfold observeReportedCost
    split
    next => exact raiseReportedCost_sameStanding _ _
    next =>
      split
      next => split <;> exact .refl db
      next => exact .refl db
  unfold ingestStepFinish at h
  dsimp only at h
  split at h
  next =>
    simp only [Option.bind_eq_bind, Option.bind_eq_some_iff] at h
    obtain ⟨⟨tr, settled⟩, hcharge, h⟩ := h
    cases h
    exact (applyObservedCost_move hcharge).after (hobs.trans (addSessionCost_sameStanding _ _))
  next =>
    cases h
    exact .inl ⟨rfl, hobs⟩

theorem observeExecutionCost_move {e : ExecutionCompleteEvent}
    (h : observeExecutionCost db e now = some (transition, db')) :
    BudgetMove db db' now transition.stopPreparation.isSome := by
  unfold observeExecutionCost at h
  split at h
  next =>
    cases h
    exact .inl ⟨rfl, .refl _⟩
  next cost _ =>
    dsimp only at h
    split at h
    next =>
      cases h
      exact .inl ⟨rfl, raiseReportedCost_sameStanding _ _⟩
    next =>
      simp only [Option.bind_eq_bind, Option.bind_eq_some_iff] at h
      obtain ⟨⟨tr, settled⟩, hcharge, h⟩ := h
      cases h
      exact (applyObservedCost_move hcharge).after
        ((raiseReportedCost_sameStanding _ _).trans (addSessionCost_sameStanding _ _))

theorem commitLimit_move {maxCostUsd : Option ℚ}
    (h : commitLimit db maxCostUsd now = some (transition, db')) :
    BudgetMove db db' now transition.stopPreparation.isSome := by
  unfold commitLimit at h
  dsimp only at h
  split at h
  next => exact BudgetMove.after (prepareExhaustion_move h) (.of_messages rfl rfl)
  next =>
    cases h
    exact .inl ⟨rfl, .of_messages rfl rfl⟩

theorem clearMessageAwaitingStopConfirmation_sameStanding (m : MessageId) :
    SameStanding db (clearMessageAwaitingStopConfirmation db m) :=
  sameStanding_updateMessage m (·.unfence) _ fun _ => rfl

/-- A completion event that settles no turn moves at most what its cost stops. -/
theorem completeExecution_move {e : ExecutionCompleteEvent} {processing : Option MessageId}
    (h : completeExecution db e processing now = some (none, transition, db')) :
    BudgetMove db db' now transition.stopPreparation.isSome := by
  unfold completeExecution at h
  simp only [Option.bind_eq_bind, Option.bind_eq_some_iff] at h
  obtain ⟨⟨tr, settled⟩, hcost, h⟩ := h
  simp only [Option.some.injEq, Prod.mk.injEq] at h
  obtain ⟨hnone, rfl, rfl⟩ := h
  refine BudgetMove.after (observeExecutionCost_move hcost) ?_
  rw [hnone, if_pos Option.isNone_none]
  split
  next hmine =>
    rw [if_pos hmine] at hnone
    rcases recordMessageCompletion_cases db e.messageId e.outcome now .processing with
      ⟨he, -⟩ | ⟨_, _, he, -⟩
    · rw [he]
      exact clearMessageAwaitingStopConfirmation_sameStanding _
    · rw [he] at hnone
      cases hnone
  next => exact clearMessageAwaitingStopConfirmation_sameStanding _

end Transactions

/-! ## What a step fails on the spot -/

/-- `m` with the `completed_at` it gets, if it has the status a failure expects. -/
def rowFailure (s : QueueState) (m : MessageId) (expected : MessageStatus) (completedAt : Millis) :
    Option (MessageId × Millis) :=
  if s.db.messageStatus? m = some expected then some (m, completedAt) else none

/-- The running turn, failed now. -/
def runningFailure (s : QueueState) : Option (MessageId × Millis) :=
  (getProcessingMessage s.db).map fun p => (p.id, s.now)

/-- What a pump fails in `s`: the head of the queue, if its model cannot run. -/
def pumpFailure (cfg : QueueConfig) (s : QueueState) : Option (MessageId × Millis) :=
  if !s.mayDispatch || isSessionClosed s.db || (getMessageAwaitingStopConfirmation s.db).isSome ||
      s.db.session.budgetExhausted || (getProcessingMessage s.db).isSome then none
  else do
    let message ← getNextPendingMessage s.db
    let _ ← cfg.harnessIncompatibility message.model
    some (message.id, s.now)

/-- The state in which `resumeAfterSandboxTermination` pumps. -/
def unfenced (s : QueueState) : QueueState :=
  match getMessageAwaitingStopConfirmation s.db with
  | none => s
  | some (m, _) => s.commit (clearMessageAwaitingStopConfirmation s.db m)

/-- The state in which a step runs the pump from its start, if it does. -/
def pumped (s : QueueState) : Event Call Frame Answer Unit → Option QueueState
  | .enter .processMessageQueue | .resume .thenPump (.answered .resolved)
  | .resume (.limitDelivered false) (.ended (.returned _)) => some s
  | .enter .resumeAfterSandboxTermination | .resume .terminating (.answered .resolved)
  | .resume (.fatalTerminated _) (.answered (.terminated .sandboxTerminated)) => some (unfenced s)
  | .resume .redriven (.answered .resolved) => if s.promptBlocked then none else some s
  | .resume (.providerAuth message _) (.answered (.authenticated none)) =>
    if s.mayDispatch && !s.db.session.budgetExhausted && s.target = .unavailable &&
        !isPromptStillDispatchable s message.id then some s
    else none
  | .resume (.managedMcp message _ socket revision) (.answered (.prepared _)) =>
    if s.db.messageStatus? message.id = some .processing &&
        (!s.mayDispatch || s.target ≠ .dispatch socket) then
      some (giveBack s message.id revision)
    else none
  | .resume (.managedMcp message _ _ revision) (.answered .contextChanged) =>
    if s.db.messageStatus? message.id = some .processing then some (giveBack s message.id revision)
    else none
  | _ => none

/-- What a step fails itself, before it writes the status. -/
def fails (s : QueueState) : Event Call Frame Answer Unit → Option (MessageId × Millis)
  | .enter (.stop _) | .enter (.failStuckProcessingMessage _) => runningFailure s
  | .enter (.handleFatalSandboxFailure _ interrupts) =>
    if interrupts then none else runningFailure s
  | .enter (.failPendingMessage m _) => rowFailure s m .pending s.now
  | .enter (.stepFinish event) =>
    if (ingestStepFinish s.db event (some event.messageId) s.now).any
        fun r => r.1.stopPreparation.isSome then runningFailure s
    else none
  | .enter (.executionComplete event) =>
    if (completeExecution s.db event ((getProcessingMessage s.db).map MessageRow.id) s.now).any
        fun r => r.1.isNone && r.2.1.stopPreparation.isSome then runningFailure s
    else none
  | .enter (.updateLimit maxCostUsd) =>
    if s.db.session.maxCostUsd ≠ maxCostUsd && (commitLimit s.db maxCostUsd s.now).any
        fun r => r.1.stopPreparation.isSome then runningFailure s
    else none
  | .resume (.providerAuth message t) (.answered (.authenticated (some _))) =>
    if s.mayDispatch && !s.db.session.budgetExhausted then rowFailure s message.id .pending t
    else none
  | .resume (.managedMcp message _ _ _) (.answered .rejected) =>
    rowFailure s message.id .processing s.now
  | .resume (.fatalTerminated (some m)) (.answered (.terminated (.abandoned _))) =>
    rowFailure s m .pending s.now
  | _ => none

/-- None of these failures would be outranked. -/
def Unranked (db : SessionDb) (failure : Option (MessageId × Millis)) : Prop :=
  ∀ x ∈ failure, ¬ Outranked db x.1 x.2

/-! ## Turns that keep the status truthful -/

section Turns

variable {cfg : QueueConfig} {s s' : QueueState} {m : MessageId} {t : Millis}

theorem Truthful.of_same (h : Truthful s.db) (hdb : s'.db = s.db) : Truthful s'.db := hdb ▸ h

theorem reconciled_truthful (h : FailedAlone m t s.db s'.db) (hout : ¬ Outranked s.db m t) :
    Truthful (reconciled s' false).db :=
  h.reconciled hout s'.now

theorem failMessage_truthful {error : String} {expected : MessageStatus}
    (h : failMessage s m error t expected = (true, s'))
    (hout : Unranked s.db (rowFailure s m expected t)) : Truthful (reconciled s' false).db := by
  obtain ⟨hstatus, hfailed⟩ := failMessage_failedAlone h
  refine reconciled_truthful hfailed (hout (m, t) ?_)
  rw [rowFailure, if_pos hstatus]
  rfl

variable {message : MessageRow}

theorem authenticationFailed_truthful {error : String} (h : Truthful s.db)
    (hout : Unranked s.db (rowFailure s message.id .pending t)) :
    Truthful (authenticationFailed s message error t).state.db := by
  unfold authenticationFailed
  split
  next failed hfail => exact failMessage_truthful hfail hout
  next same hfail => exact h.of_same (congrArg QueueState.db (failMessage_same hfail))

theorem processMessageQueue_truthful (h : Truthful s.db)
    (hout : Unranked s.db (pumpFailure cfg s)) :
    Truthful (processMessageQueue cfg s).state.db := by
  unfold processMessageQueue
  split
  next => exact h
  next hmay =>
  split
  next => exact h
  next hopen =>
  split
  next =>
    split
    next =>
      unfold recoverStopConfirmationTimeout
      split
      next => exact h
      next => split <;> exact h
    next => exact h
  next hfence =>
  split
  next => exact h
  next hbudget =>
  split
  next => exact h
  next hidle =>
  split
  next => exact h
  next message hnext =>
  split
  next error hincompatible =>
    refine authenticationFailed_truthful h ?_
    intro x hx
    refine hout x ?_
    rw [rowFailure] at hx
    split at hx
    next =>
      unfold pumpFailure
      rw [if_neg (by simp_all)]
      simpa [hnext, hincompatible] using hx
    next => cases hx
  next => exact h

theorem unfenced_sameStanding (s : QueueState) : SameStanding s.db (unfenced s).db := by
  unfold unfenced
  split
  next => exact .refl _
  next => exact clearMessageAwaitingStopConfirmation_sameStanding _

theorem resumeAfterSandboxTermination_eq :
    resumeAfterSandboxTermination cfg s = processMessageQueue cfg (unfenced s) := by
  unfold resumeAfterSandboxTermination unfenced
  cases getMessageAwaitingStopConfirmation s.db <;> rfl

theorem resumeAfterSandboxTermination_truthful (h : Truthful s.db)
    (hout : Unranked (unfenced s).db (pumpFailure cfg (unfenced s))) :
    Truthful (resumeAfterSandboxTermination cfg s).state.db := by
  rw [resumeAfterSandboxTermination_eq]
  exact processMessageQueue_truthful ((unfenced_sameStanding s).truthful h) hout

/-! ### Entry points -/

theorem truthful_of_status {db : SessionDb} {st : MessageStatus} (h : db.messageStatus? m = some st)
    (hst : st.unfinished = true) : Truthful db := by
  obtain ⟨row, hrow, he⟩ := messageStatus?_eq_some.mp h
  exact truthful_of_unfinished hrow (he ▸ hst)

theorem beginTransition_messageStatus? (db : SessionDb) (status : SessionStatus) (now : Millis) :
    (beginTransition db status now).messageStatus? m = db.messageStatus? m := by
  rw [SessionDb.messageStatus?, SessionDb.messageStatus?,
    message?_congr (beginTransition_sessionOnly db status now).messages]

theorem enqueuePrompt_truthful (h : Truthful s.db) (r : PromptRequest) :
    Truthful (enqueuePrompt cfg s r).state.db := by
  unfold enqueuePrompt
  split
  next => exact h
  next =>
  split
  next => exact h
  next => exact h
  next =>
  split
  next => exact h
  next =>
  split
  next => exact h
  next =>
  split
  next => exact h
  next =>
  split
  next => exact h
  next db hcreate =>
    obtain ⟨-, -, hrow, -⟩ := createMessageWithAttachments_some hcreate
    have hpending : db.messageStatus? r.messageId = some .pending :=
      messageStatus?_eq_some.mpr ⟨_, (hrow r.messageId).trans (if_pos rfl), rfl⟩
    have hstill := (beginTransition_messageStatus? db .active s.now).trans hpending
    exact truthful_of_status hstill rfl

theorem redrivePendingAutofix_truthful (h : Truthful s.db) (m : MessageId) :
    Truthful (redrivePendingAutofix s m).state.db := by
  unfold redrivePendingAutofix
  split
  next => exact h
  next hgo =>
    simp only [Bool.or_eq_true, decide_eq_true_eq, not_or, ne_eq, not_not] at hgo
    have hstill := (beginTransition_messageStatus? s.db .active s.now).trans hgo.1
    exact truthful_of_status hstill rfl

theorem lookupAutofix_truthful (h : Truthful s.db) (key : Nat) :
    Truthful (lookupAutofix s key).state.db := by
  unfold lookupAutofix
  split
  next => exact h
  next => exact redrivePendingAutofix_truthful h _

theorem enqueueAutofix_truthful (h : Truthful s.db) (r : AutofixRequest) :
    Truthful (enqueueAutofix s r).state.db := by
  unfold enqueueAutofix
  split
  next => exact h
  next => exact h
  next => exact redrivePendingAutofix_truthful h _
  next m db hadmit =>
    refine redrivePendingAutofix_truthful (s := s.commit db) ?_ m
    rcases admitAutofixMessage_some hadmit with ⟨rfl, -⟩ | ⟨-, hcreate⟩
    · exact h
    · obtain ⟨-, -, hrow⟩ := createMessage_some hcreate
      exact truthful_of_unfinished ((hrow r.messageId).trans (if_pos rfl)) rfl

theorem cancelQueuedPrompt_truthful (h : Truthful s.db) (m : MessageId) :
    Truthful (cancelQueuedPrompt s m).state.db := by
  unfold cancelQueuedPrompt
  split
  next => exact h
  next => exact reconcileAfterQueueRemoval_truthful _

theorem failPendingMessage_truthful (h : Truthful s.db) (m : MessageId) (error : String)
    (hout : Unranked s.db (rowFailure s m .pending s.now)) :
    Truthful (failPendingMessage s m error).state.db := by
  unfold failPendingMessage
  split
  next failed hfail => exact failMessage_truthful hfail hout
  next same hfail => exact h.of_same (congrArg QueueState.db (failMessage_same hfail))

theorem failStuckProcessingMessage_truthful (h : Truthful s.db) (error : String)
    (hout : Unranked s.db (runningFailure s)) :
    Truthful (failStuckProcessingMessage s error).state.db := by
  unfold failStuckProcessingMessage
  split
  next => exact h
  next p hp =>
    obtain ⟨hrow, hprocessing⟩ := getProcessingMessage_some hp
    split
    next failed hfail =>
      refine failMessage_truthful hfail ?_
      intro x hx
      rw [rowFailure, if_pos (messageStatus?_eq_some.mpr ⟨p, hrow, hprocessing⟩)] at hx
      refine hout x ?_
      rw [runningFailure, hp]
      exact hx
    next same hfail => exact h.of_same (congrArg QueueState.db (failMessage_same hfail))

theorem interrupt_truthful (error : String) : Truthful (interrupt s error).db :=
  reconcileFromMessageState_truthful _

/-- An interruption leaves nothing running. -/
theorem interrupt_idle (hone : AtMostOneProcessing s.db) (error : String) :
    getProcessingMessage (interrupt s error).db = none := by
  have hsame : ∀ (db : SessionDb) (now : Millis), getProcessingMessage db = none →
      getProcessingMessage (reconcileFromMessageState db now) = none := by
    intro db now hdb
    refine getProcessingMessage_none.mpr ?_
    rw [message?_congr (reconcileFromMessageState_sessionOnly db now).messages]
    exact getProcessingMessage_none.mp hdb
  unfold interrupt
  dsimp only
  refine hsame _ s.now ?_
  split
  next hnone => exact hnone
  next p hp =>
    obtain ⟨hrow, hprocessing⟩ := getProcessingMessage_some hp
    have hstatus := messageStatus?_eq_some.mpr ⟨p, hrow, hprocessing⟩
    cases hfail : failMessage s p.id error s.now .processing with
    | mk failed s' =>
      cases failed with
      | false => exact absurd hstatus (failMessage_none hfail).2
      | true =>
        obtain ⟨-, hfailed⟩ := failMessage_failedAlone hfail
        obtain ⟨st, key, -, hstanding⟩ := hfailed.standing
        refine getProcessingMessage_none.mpr ?_
        intro k x hx hxp
        have hk := standing_eq_some.mpr ⟨x, hx, rfl⟩
        rw [hstanding] at hk
        split at hk
        next =>
          have hst : MessageStatus.failed = x.status := congrArg Prod.fst (Option.some.inj hk)
          rw [hxp] at hst
          cases hst
        next hne =>
          -- a second running message would have been there before
          have hsecond : s.db.messageStatus? k = some .processing := by
            rw [messageStatus?_standing, hk]
            exact congrArg some hxp
          exact hne (hone k p.id hsecond hstatus)

theorem handleFatalSandboxFailure_truthful (h : Truthful s.db) (hone : AtMostOneProcessing s.db)
    (reason : String) (interrupts : Bool)
    (hout : Unranked s.db (if interrupts then none else runningFailure s)) :
    Truthful (handleFatalSandboxFailure s reason interrupts).state.db := by
  unfold handleFatalSandboxFailure
  dsimp only
  rw [Turn.awaitedBy_state]
  cases interrupts with
  | false => exact failStuckProcessingMessage_truthful h reason hout
  | true =>
    refine failStuckProcessingMessage_truthful (interrupt_truthful reason) reason ?_
    intro x hx
    rw [runningFailure, interrupt_idle hone] at hx
    cases hx

theorem deliver_truthful {preparation : ExecutionStopPreparation}
    (h : FailedAlone m t s.db s'.db) (hout : ¬ Outranked s.db m t) :
    Truthful (deliver s' preparation).state.db := by
  unfold deliver
  dsimp only
  have htold : ∀ told : QueueState, told.db = s'.db → Truthful (reconciled told false).db :=
    fun told hdb => reconciled_truthful (hdb ▸ h) hout
  refine htold _ ?_
  split
  next => split <;> rfl
  next => rfl

/-- A transaction that may stop the running turn, and the delivery of the stop. -/
theorem deliverTransition_truthful {db : SessionDb} {transition : BudgetTransition}
    (h : Truthful s.db) (hone : AtMostOneProcessing s.db)
    (hmove : BudgetMove s.db db s.now transition.stopPreparation.isSome)
    (hout : transition.stopPreparation.isSome = true → Unranked s.db (runningFailure s)) :
    Truthful (deliverTransition (s.commit db) transition).state.db := by
  unfold deliverTransition
  split
  next hstop =>
    rw [hstop] at hmove
    rcases hmove with ⟨-, hsame⟩ | ⟨_, hyes, -⟩
    · exact hsame.truthful h
    · cases hyes
  next preparation hstop =>
    rw [hstop] at hmove hout
    rcases hmove with ⟨hno, -⟩ | ⟨m, -, hm, hfailed⟩
    · cases hno
    · have hfailed' : FailedAlone m s.now s.db (s.commit db).db := hfailed
      refine deliver_truthful hfailed' (hout rfl (m, s.now) ?_)
      obtain ⟨row, hrow, hprocessing⟩ := messageStatus?_eq_some.mp hm
      cases hp : getProcessingMessage s.db with
      | none => exact absurd hprocessing (getProcessingMessage_none.mp hp m row hrow)
      | some p =>
        obtain ⟨hp', hpp⟩ := getProcessingMessage_some hp
        have hid := hone m p.id hm (messageStatus?_eq_some.mpr ⟨p, hp', hpp⟩)
        rw [runningFailure, hp, hid]
        rfl

theorem stop_truthful (h : Truthful s.db) (hone : AtMostOneProcessing s.db) (reason : String)
    (hout : Unranked s.db (runningFailure s)) : Truthful (stop s reason).state.db := by
  have hmove := @prepare_move s.db s.now reason
  unfold stop
  split
  next => exact h
  next preparation db he =>
    rw [he] at hmove
    -- a stop is delivered like one that a budget transition prepared
    let transition : BudgetTransition := ⟨none, some preparation, true⟩
    have hmove' : BudgetMove s.db db s.now transition.stopPreparation.isSome := hmove
    exact deliverTransition_truthful h hone hmove' fun _ => hout

theorem handleStepFinish_truthful (h : Truthful s.db) (hone : AtMostOneProcessing s.db)
    (event : StepFinishEvent) (hout : Unranked s.db (fails s (.enter (.stepFinish event)))) :
    Truthful (handleStepFinish s event).state.db := by
  unfold handleStepFinish
  split
  next => exact h
  next transition db he =>
    refine deliverTransition_truthful h hone (ingestStepFinish_move he) ?_
    intro hstop
    rw [fails, he, if_pos (by simpa using hstop)] at hout
    exact hout

theorem updateLimit_truthful (h : Truthful s.db) (hone : AtMostOneProcessing s.db)
    (maxCostUsd : Option ℚ) (hout : Unranked s.db (fails s (.enter (.updateLimit maxCostUsd)))) :
    Truthful (updateLimit s maxCostUsd).state.db := by
  unfold updateLimit
  split
  next => exact h
  next hchanged =>
  split
  next => exact h
  next transition db he =>
    rw [Turn.awaitedBy_state]
    refine deliverTransition_truthful h hone (commitLimit_move he) ?_
    intro hstop
    rw [fails, he, if_pos (by simpa [hchanged] using hstop)] at hout
    exact hout

theorem failMessage_session (m : MessageId) (error : String) (t : Millis)
    (expected : MessageStatus) :
    (failMessage s m error t expected).2.db.session = s.db.session := by
  unfold failMessage
  split
  next db hrecord =>
    rcases recordMessageCompletion_cases s.db m ⟨false, some error⟩ t expected with
      ⟨he, -⟩ | ⟨row, db', he, -, -, hdb, -⟩
    · rw [recordFailure, he] at hrecord
      cases hrecord
    · rw [recordFailure, he] at hrecord
      cases hrecord
      show db.session = s.db.session
      rw [hdb]
  next => rfl

theorem cancel_truthful : Truthful (cancel s).state.db := by
  unfold cancel
  extract_lets db row closed drained ended
  have hdrained : drained.db.session = closed.db.session := by
    have hrun : ∀ (messages : List MessageRow) (s' : QueueState),
        (messages.foldl (fun s'' message => (failMessage s'' message.id
          "Execution was cancelled before it started" s.now .pending).2) s').db.session =
          s'.db.session := by
      intro messages
      induction messages with
      | nil => exact fun _ => rfl
      | cons message messages ih => exact fun s' => (ih _).trans (failMessage_session _ _ _ _)
    exact hrun _ closed
  have hended : ended.db.session = closed.db.session := by
    refine Eq.trans ?_ hdrained
    unfold ended
    split
    next => rfl
    next => exact failMessage_session _ _ _ _
  refine truthful_of_closed ?_
  have hfinal : ∀ final : QueueState, final.db = ended.db → isSessionClosed final.db = true := by
    intro final hdb
    rw [isSessionClosed, hdb, hended]
    rfl
  refine hfinal _ ?_
  split
  next => split <;> rfl
  next => rfl

theorem archive_truthful (h : Truthful s.db) : Truthful (archive s).state.db := by
  unfold archive
  split
  next => exact h
  next =>
    refine truthful_of_closed ?_
    show isSessionClosed (beginTransition s.db .archived s.now) = true
    rw [isSessionClosed, beginTransition_status]
    rfl

theorem unarchive_truthful (h : Truthful s.db) : Truthful (unarchive s).state.db := by
  unfold unarchive
  split
  next => exact h
  next => exact settleFromMessageState_truthful _

/-! ### Answers -/

theorem afterDelivery_db (preparation : ExecutionStopPreparation) (stopSent alarmed : Bool) :
    (afterDelivery s preparation stopSent alarmed).state.db = s.db := by
  unfold afterDelivery
  split
  next => rfl
  next => split <;> rfl

theorem giveBack_truthful {r : Nat} (h : s.db.messageStatus? m = some .processing) :
    Truthful (giveBack s m r).db := by
  obtain ⟨row, hrow, hprocessing⟩ := messageStatus?_eq_some.mp h
  rcases updateMessageToPending_cases s.db m with ⟨-, hother⟩ | ⟨row', db, hdb, -, -, -, hmsg, -⟩
  · exact absurd hprocessing (hother row hrow)
  · show Truthful (updateMessageToPending s.db m)
    rw [hdb]
    exact truthful_of_unfinished ((hmsg m).trans (if_pos rfl)) rfl

theorem sendPrompt_truthful {socket : SocketId} {r : Nat} {managed : Bool}
    (h : s.db.messageStatus? message.id = some .processing) :
    Truthful (sendPrompt s message socket r managed).state.db := by
  unfold sendPrompt
  split
  next => exact truthful_of_status h rfl
  next => exact giveBack_truthful h

theorem afterProviderAuth_truthful {error : Option String}
    (h : Truthful s.db)
    (hfails : Unranked s.db (fails s (.resume (.providerAuth message t)
      (.answered (.authenticated error)))))
    (hpumped : ∀ s' ∈ pumped s (.resume (.providerAuth message t)
      (.answered (.authenticated error))), Unranked s'.db (pumpFailure cfg s')) :
    Truthful (afterProviderAuth cfg s message t error).state.db := by
  unfold afterProviderAuth
  split
  next => exact h
  next hmay =>
  split
  next => exact h
  next hbudget =>
  rw [Bool.not_eq_true, Bool.not_eq_false'] at hmay
  rw [Bool.not_eq_true] at hbudget
  split
  next error' =>
    rw [fails, if_pos (by simp [hmay, hbudget])] at hfails
    exact authenticationFailed_truthful h hfails
  next =>
  split
  next => exact h
  next htarget =>
    split
    next hgone =>
      refine processMessageQueue_truthful h (hpumped s ?_)
      rw [pumped, if_pos (by simp [hmay, hbudget, htarget, hgone])]
      rfl
    next => exact h
  next socket htarget =>
  split
  next => exact h
  next => exact h
  next db hclaim =>
    have hprocessing : db.messageStatus? message.id = some .processing := by
      rcases startMessageProcessing_some hclaim with ⟨hfalse, -⟩ | ⟨row, -, -, -, -, -, hmsg, -⟩
      · cases hfalse
      · refine messageStatus?_eq_some.mpr ⟨row.claim t, ?_, rfl⟩
        rw [hmsg, if_pos rfl]
    split
    next => exact truthful_of_status hprocessing rfl
    next => exact sendPrompt_truthful (s := s.commit db) hprocessing

theorem afterManagedMcp_truthful {socket : SocketId} {r : Nat}
    {answer : Answer} {turn : QueueTurn} (h : Truthful s.db)
    (hfails : Unranked s.db (fails s (.resume (.managedMcp message t socket r) (.answered answer))))
    (hpumped : ∀ s' ∈ pumped s (.resume (.managedMcp message t socket r) (.answered answer)),
      Unranked s'.db (pumpFailure cfg s'))
    (hturn : afterManagedMcp cfg s message socket r answer = some turn) :
    Truthful turn.state.db := by
  unfold afterManagedMcp at hturn
  split at hturn
  next managed =>
    cases hturn
    split
    next => exact h
    next hprocessing =>
    rw [ne_eq, not_not] at hprocessing
    split
    next hlost =>
      refine processMessageQueue_truthful (giveBack_truthful hprocessing) (hpumped _ ?_)
      rw [pumped, if_pos (by simpa [hprocessing] using hlost)]
      rfl
    next => exact sendPrompt_truthful hprocessing
  next =>
    cases hturn
    split
    next hprocessing =>
      refine processMessageQueue_truthful (giveBack_truthful hprocessing) (hpumped _ ?_)
      rw [pumped, if_pos hprocessing]
      rfl
    next => exact h
  next =>
    cases hturn
    split
    next failed hfail =>
      obtain ⟨hstatus, hfailed⟩ := failMessage_failedAlone hfail
      have hfailed' : FailedAlone message.id s.now s.db
          (failed.record (.unsent message.id r failed.db)).db := hfailed
      refine reconciled_truthful hfailed' (hfails (message.id, s.now) ?_)
      rw [fails, rowFailure, if_pos hstatus]
      rfl
    next same hfail =>
      obtain rfl := failMessage_same hfail
      exact h
  next => cases hturn

theorem applySandboxRecovery_truthful (h : Truthful s.db) (bootPrompt : Option MessageId)
    (result : TerminationResult)
    (hfails : Unranked s.db (fails s (.resume (.fatalTerminated bootPrompt)
      (.answered (.terminated result)))))
    (hpumped : ∀ s' ∈ pumped s (.resume (.fatalTerminated bootPrompt)
      (.answered (.terminated result))), Unranked s'.db (pumpFailure cfg s')) :
    Truthful (applySandboxRecovery cfg s bootPrompt result).state.db := by
  unfold applySandboxRecovery
  split
  next => exact resumeAfterSandboxTermination_truthful h (hpumped _ rfl)
  next =>
    split
    next => exact h
    next => exact failPendingMessage_truthful h _ _ hfails
  next => exact h
  next => exact h

end Turns

/-! ## Runs -/

/-- The turn whose outcome a completion handler has still to write. -/
def Frame.owes : Frame → Option MessageId
  | .completionDelivered event (some _) | .completionProjected event => some event.messageId
  | _ => none

/-- The late reconcile of `event` would overwrite a newer outcome: the session is settled,
its latest message ended otherwise, and the handler of that message, if it had one, has
written its outcome already. -/
structure Stale (s : QueueState) (fs : List Frame) (event : ExecutionCompleteEvent) : Prop where
  settled : Settled s.db
  differs : getIdleStatusFromTerminalMessages s.db ≠
    if event.outcome.success then .completed else .failed
  written : ∀ f ∈ fs.erase (.completionProjected event), ∀ latest ∈ getLatestTerminalMessage s.db,
    f.owes ≠ some latest.id

/-- The event whose handler comes back from its projection. -/
def reconciling : Event Call Frame Answer Unit → Option ExecutionCompleteEvent
  | .resume (.completionProjected event) _ => some event
  | _ => none

/-- How the delivery a handler waits for has ended, once it has recorded a completion. -/
def deliveryEnd : Event Call Frame Answer Unit → Option (Wake Answer Unit)
  | .resume (.completionDelivered _ (some _)) w => some w
  | _ => none

/-- Nothing throws into a handler that has recorded a completion: a completed turn leaves
nothing to stop, so the delivery it waits for does nothing. -/
def Delivered : StepCondition QueueState Call Frame Answer Unit :=
  fun _ _ e => ∀ w ∈ deliveryEnd e, w = .ended (.returned ())

/-- No step writes an outcome over a newer one. -/
def Faithful (cfg : QueueConfig) : StepCondition QueueState Call Frame Answer Unit :=
  fun s fs e =>
    Delivered s fs e ∧ (∀ event ∈ reconciling e, ¬ Stale s fs event) ∧ Unranked s.db (fails s e) ∧
      ∀ s' ∈ pumped s e, Unranked s'.db (pumpFailure cfg s')

/-- The status is truthful, or a completion handler has still to write it. -/
def TruthInv (s : QueueState) (fs : List Frame) : Prop :=
  Truthful s.db ∨ ∃ f ∈ fs, f.owes ≠ none

section Runs

variable {cfg : QueueConfig} {s : QueueState} {fs others : List Frame}

theorem AtMostOneProcessing.of_queueInv {now : Millis} {issued : List MessageId} {db : SessionDb}
    (h : QueueInv now issued db.message?) : AtMostOneProcessing db := by
  intro m m' hm hm'
  obtain ⟨x, hx, hp⟩ := messageStatus?_eq_some.mp hm
  obtain ⟨x', hx', hp'⟩ := messageStatus?_eq_some.mp hm'
  exact h.one m x m' x' hx hx' hp hp'

/-- A completion that settles a turn leaves a handler that owes its outcome. -/
theorem handleExecutionComplete_truth {event : ExecutionCompleteEvent} (h : Truthful s.db)
    (hone : AtMostOneProcessing s.db)
    (hout : Unranked s.db (fails s (.enter (.executionComplete event)))) :
    Truthful (handleExecutionComplete s event).state.db ∨
      ∃ f ∈ (handleExecutionComplete s event).frames, f.owes ≠ none := by
  unfold handleExecutionComplete
  split
  next => exact .inl h
  next completion transition db he =>
    cases completion with
    | some c => exact .inr ⟨_, Turn.mem_awaitedBy.mpr (.inl rfl), Option.some_ne_none _⟩
    | none =>
      refine .inl ?_
      rw [Turn.awaitedBy_state]
      refine deliverTransition_truthful h hone (completeExecution_move he) ?_
      intro hstop
      rw [fails, he, if_pos (by simpa using hstop)] at hout
      exact hout

/-- What a caller does. -/
theorem enter_truth {call : Call} (h : Truthful s.db) (hone : AtMostOneProcessing s.db)
    (hfails : Unranked s.db (fails s (.enter call)))
    (hpumped : ∀ s' ∈ pumped s (.enter call), Unranked s'.db (pumpFailure cfg s')) :
    Truthful (enter cfg (s.issue call.generates) call).state.db ∨
      ∃ f ∈ (enter cfg (s.issue call.generates) call).frames, f.owes ≠ none := by
  cases call with
  | enqueuePrompt r => exact .inl (@enqueuePrompt_truthful cfg (s.issue (some r.messageId)) h r)
  | enqueueAutofix r => exact .inl (@enqueueAutofix_truthful (s.issue (some r.messageId)) h r)
  | lookupAutofix key => exact .inl (lookupAutofix_truthful h key)
  | cancelQueuedPrompt m => exact .inl (cancelQueuedPrompt_truthful h m)
  | processMessageQueue => exact .inl (processMessageQueue_truthful h (hpumped s rfl))
  | stop reason => exact .inl (stop_truthful h hone reason hfails)
  | recoverStopConfirmationTimeout =>
    refine .inl ?_
    show Truthful (recoverStopConfirmationTimeout s).state.db
    unfold recoverStopConfirmationTimeout
    split
    next => exact h
    next => split <;> exact h
  | resumeAfterSandboxTermination =>
    exact .inl (resumeAfterSandboxTermination_truthful h (hpumped _ rfl))
  | failPendingMessage m error => exact .inl (failPendingMessage_truthful h m error hfails)
  | failStuckProcessingMessage error =>
    exact .inl (failStuckProcessingMessage_truthful h error hfails)
  | handleFatalSandboxFailure reason interrupts =>
    exact .inl (handleFatalSandboxFailure_truthful h hone reason interrupts hfails)
  | interrupt error => exact .inl (interrupt_truthful error)
  | stepFinish event => exact .inl (handleStepFinish_truthful h hone event hfails)
  | executionComplete event => exact handleExecutionComplete_truth h hone hfails
  | updateLimit maxCostUsd => exact .inl (updateLimit_truthful h hone maxCostUsd hfails)
  | cancel => exact .inl cancel_truthful
  | archive => exact .inl (archive_truthful h)
  | unarchive => exact .inl (unarchive_truthful h)
  | setMayDispatch | setPromptBlocked | setSandbox | tick => exact .inl h

/-- What a frame that owes nothing does when it is answered. -/
theorem answered_truthful {f : Frame} {answer : Answer} {t : QueueTurn} (h : Truthful s.db)
    (hf : f.owes = none) (hfails : Unranked s.db (fails s (.resume f (.answered answer))))
    (hpumped : ∀ s' ∈ pumped s (.resume f (.answered answer)), Unranked s'.db (pumpFailure cfg s'))
    (ht : answered cfg s f answer = some t) : Truthful t.state.db := by
  unfold answered at ht
  split at ht
  next =>
    cases ht
    exact afterProviderAuth_truthful h hfails hpumped
  next => exact afterManagedMcp_truthful h hfails hpumped ht
  next =>
    cases ht
    exact processMessageQueue_truthful h (hpumped s rfl)
  next =>
    cases ht
    split
    next => exact h
    next hblocked =>
      refine processMessageQueue_truthful h (hpumped s ?_)
      rw [pumped, if_neg hblocked]
      rfl
  next =>
    cases ht
    exact h
  next =>
    cases ht
    exact resumeAfterSandboxTermination_truthful h (hpumped _ rfl)
  next =>
    cases ht
    exact h.of_same (afterDelivery_db _ _ _)
  next =>
    cases ht
    exact h.of_same (afterDelivery_db _ _ _)
  next => cases hf
  next =>
    cases ht
    exact h
  next bootPrompt result =>
    cases ht
    exact applySandboxRecovery_truthful h bootPrompt result hfails hpumped
  all_goals
    cases ht
    try exact h

/-- **The step lemma.** -/
theorem TruthInv.queueTurn {e : Event Call Frame Answer Unit} {t : QueueTurn}
    (hone : AtMostOneProcessing s.db) (h : TruthInv s fs) (hok : Faithful cfg s fs e)
    (hfs : fs.Perm (e.frames ++ others)) (ht : queueTurn cfg s e = some t) :
    TruthInv t.state (t.frames ++ others) := by
  obtain ⟨hdelivered, hstale, hfails, hpumped⟩ := hok
  -- a handler in flight other than the one that runs still owes its outcome
  have hothers : (∃ f ∈ others, f.owes ≠ none) → TruthInv t.state (t.frames ++ others) := by
    rintro ⟨f, hf, ho⟩
    exact .inr ⟨f, List.mem_append_right _ hf, ho⟩
  have hturn : (Truthful t.state.db ∨ ∃ f ∈ t.frames, f.owes ≠ none) →
      TruthInv t.state (t.frames ++ others) := by
    rintro (htrue | ⟨f, hf, ho⟩)
    · exact .inl htrue
    · exact .inr ⟨f, List.mem_append_left _ hf, ho⟩
  have hcases : Truthful s.db ∨ (∃ f ∈ e.frames, f.owes ≠ none) ∨ ∃ f ∈ others, f.owes ≠ none := by
    rcases h with htrue | ⟨f, hf, ho⟩
    · exact .inl htrue
    · rcases List.mem_append.mp (hfs.mem_iff.mp hf) with hf | hf
      · exact .inr (.inl ⟨f, hf, ho⟩)
      · exact .inr (.inr ⟨f, hf, ho⟩)
  cases e with
  | enter call =>
    simp only [Session.queueTurn] at ht
    split at ht
    next => cases ht
    next =>
      cases ht
      rcases hcases with htrue | ⟨f, hf, -⟩ | hother
      · exact hturn (enter_truth htrue hone hfails hpumped)
      · cases hf
      · exact hothers hother
  | resume f w =>
    by_cases hf : f.owes = none
    · have htrue : Truthful s.db ∨ ∃ f ∈ others, f.owes ≠ none := by
        rcases hcases with htrue | ⟨g, hg, ho⟩ | hother
        · exact .inl htrue
        · rw [List.mem_singleton.mp hg] at ho
          exact absurd hf ho
        · exact .inr hother
      rcases htrue with htrue | hother
      · refine hturn (.inl ?_)
        cases w with
        | answered answer => exact answered_truthful htrue hf hfails hpumped ht
        | ended o =>
          have hended : Session.ended cfg s f o = some t := ht
          unfold Session.ended at hended
          split at hended
          next => cases hf
          next =>
            cases hended
            exact htrue
          next exhausted _ =>
            cases hended
            cases exhausted with
            | true => exact htrue
            | false => exact processMessageQueue_truthful htrue (hpumped s rfl)
          all_goals
            cases hended
            try exact htrue
      · exact hothers hother
    · -- the frame is a completion handler on its way to its reconcile
      cases f with
      | completionDelivered event completion =>
        cases completion with
        | none => exact absurd rfl hf
        | some c =>
          cases hdelivered w rfl
          cases ht
          exact hturn (.inr ⟨.completionProjected event, by simp, Option.some_ne_none _⟩)
      | completionProjected event =>
        have hnot := hstale event rfl
        cases w with
        | ended o => cases ht
        | answered answer =>
          cases answer with
          | resolved =>
            cases ht
            by_cases hs : Settled s.db ∧ getIdleStatusFromTerminalMessages s.db ≠
                if event.outcome.success then .completed else .failed
            · refine hothers ?_
              by_contra hnone
              refine hnot ⟨hs.1, hs.2, ?_⟩
              intro g hg latest _ ho
              have hg' : g ∈ others := by
                have hperm : fs.Perm (.completionProjected event :: others) := hfs
                have hrest := hperm.erase (.completionProjected event)
                rw [List.erase_cons_head] at hrest
                exact hrest.mem_iff.mp hg
              exact hnone ⟨g, hg', by simp [ho]⟩
            · refine hturn (.inl (reconcileAfterExecution_truthful ?_))
              intro hsettled
              by_contra hne
              exact hs ⟨hsettled, hne⟩
          | _ => cases ht
      | _ => exact absurd rfl hf

/-- **The status tells the truth**, in runs in which no step writes an outcome over a
newer one: when no completion handler has still to reconcile, an open session without
unfinished messages is `created` if nothing has ended, and otherwise has the outcome of
the latest message. -/
theorem status_truthful {s₀ : QueueState} {p : QueuePool} (hfresh : Fresh s₀)
    (hcreated : s₀.db.session.status = .created)
    (h : (queueMachine cfg).Reachable (Faithful cfg) (QueuePool.idle s₀) p)
    (hhandlers : ∀ f ∈ p.frames, f.owes = none)
    (hidle : ∀ m row, p.shared.db.message? m = some row → row.status.unfinished = false)
    (hopen : p.shared.db.session.status ≠ .cancelled ∧ p.shared.db.session.status ≠ .archived) :
    p.shared.db.session.status =
      match getLatestTerminalMessage p.shared.db with
      | none => .created
      | some latest => if latest.status = .failed then .failed else .completed := by
  have hinv : DispatchInv p.shared.issued p.shared p.frames ∧ TruthInv p.shared p.frames := by
    refine Machine.reachable_inv (fun s fs => DispatchInv s.issued s fs ∧ TruthInv s fs) ?_ ?_ ?_ h
    · rintro s fs gs hp ⟨hd, ht⟩
      refine ⟨hd.perm hp, ?_⟩
      rcases ht with htrue | ⟨f, hf, ho⟩
      · exact .inl htrue
      · exact .inr ⟨f, hp.mem_iff.mp hf, ho⟩
    · rintro s fs others e t ⟨hd, htruth⟩ hok hfs ht
      exact ⟨hd.queueTurn hfs ht, htruth.queueTurn (.of_queueInv hd.queue) hok hfs ht⟩
    · have hstart : (queueMachine cfg).Reachable (Faithful cfg) (QueuePool.idle s₀)
          (QueuePool.idle s₀) := .refl
      refine ⟨queue_dispatchInv hfresh hstart, .inl fun _ => ?_⟩
      refine hcreated.trans (idleStatus_of_none ?_).symm
      intro k st key hk
      obtain ⟨row, hrow, -⟩ := standing_eq_some.mp hk
      have hmem := Table.mem_of_get? hrow
      have hrows : (QueuePool.idle s₀).shared.db.messages.rows = [] := hfresh.messages
      rw [hrows] at hmem
      cases hmem
  rcases hinv.2 with htrue | ⟨f, hf, ho⟩
  · refine htrue ⟨?_, getPendingOrProcessingCount_eq_zero.mpr hidle⟩
    rw [isSessionClosed]
    cases hst : p.shared.db.session.status with
    | cancelled => exact absurd hst hopen.1
    | archived => exact absurd hst hopen.2
    | _ => rfl
  · exact absurd (hhandlers f hf) ho

end Runs

instance (db : SessionDb) : Decidable (Settled db) := inferInstanceAs (Decidable (_ ∧ _))

instance (s : QueueState) (fs : List Frame) (event : ExecutionCompleteEvent) :
    Decidable (Stale s fs event) :=
  decidable_of_iff
    (Settled s.db ∧
      getIdleStatusFromTerminalMessages s.db ≠
        (if event.outcome.success then .completed else .failed) ∧
      ∀ f ∈ fs.erase (.completionProjected event), ∀ latest ∈ getLatestTerminalMessage s.db,
        f.owes ≠ some latest.id)
    ⟨fun ⟨a, b, c⟩ => ⟨a, b, c⟩, fun ⟨a, b, c⟩ => ⟨a, b, c⟩⟩

instance (db : SessionDb) (failure : Option (MessageId × Millis)) :
    Decidable (Unranked db failure) :=
  inferInstanceAs (Decidable (∀ x ∈ failure, ¬ Outranked db x.1 x.2))

instance (s : QueueState) (fs : List Frame) (e : Event Call Frame Answer Unit) :
    Decidable (Delivered s fs e) :=
  inferInstanceAs (Decidable (∀ w ∈ deliveryEnd e, w = .ended (.returned ())))

instance (cfg : QueueConfig) : ∀ s fs e, Decidable (Faithful cfg s fs e) :=
  fun s fs e => inferInstanceAs (Decidable
    (Delivered s fs e ∧ (∀ event ∈ reconciling e, ¬ Stale s fs event) ∧ Unranked s.db (fails s e) ∧
      ∀ s' ∈ pumped s e, Unranked s'.db (pumpFailure cfg s')))

/-- One turn completes, and the next one is stopped while the completion handler of the
first has yet to come back from its projection. -/
def stopBehindCompletion : List (Act Call Answer) :=
  [.enter (.enqueuePrompt { messageId := 1, content := "a" }), .answer 0 .resolved,
    .answer 0 (.authenticated none), .enter (.enqueuePrompt { messageId := 2, content := "b" }),
    .enter (.executionComplete { messageId := 1, outcome := { success := true } }), .proceed 2,
    .answer 1 .resolved, .answer 2 (.authenticated none), .enter (.tick 1),
    .enter (.stop "Execution was stopped")]

/-- From there on, everything that is in flight is answered. -/
def handlerComesBack : List (Act Call Answer) :=
  [.answer 1 .resolved, .answer 3 .resolved, .answer 3 .resolved, .answer 2 .resolved,
    .answer 0 .resolved, .answer 0 .resolved, .answer 0 .resolved]

/-- The late handler leaves the session `completed`, whose last turn has failed. -/
theorem late_completion_overwrites_failure :
    ∃ p, (queueMachine {}).Reachable Delivered (QueuePool.idle readySession) p ∧ p.tasks = [] ∧
      getPendingOrProcessingCount p.shared.db = 0 ∧
      (getLatestTerminalMessage p.shared.db).map MessageRow.status = some .failed ∧
      p.shared.db.session.status = .completed := by
  have hrun : ∃ p, (queueMachine {}).run Delivered (QueuePool.idle readySession)
      (stopBehindCompletion ++ handlerComesBack) = some p ∧ p.tasks = [] ∧
      getPendingOrProcessingCount p.shared.db = 0 ∧
      (getLatestTerminalMessage p.shared.db).map MessageRow.status = some .failed ∧
      p.shared.db.session.status = .completed := by
    refine ⟨((queueMachine {}).run Delivered (QueuePool.idle readySession)
      (stopBehindCompletion ++ handlerComesBack)).getD (QueuePool.idle readySession), ?_⟩
    decide +kernel
  obtain ⟨p, hp, hrest⟩ := hrun
  exact ⟨p, Machine.run_reachable .refl hp, hrest⟩

/-- The same turns, with the handler back before the second turn starts. -/
def handlerFirst : List (Act Call Answer) :=
  [.enter (.enqueuePrompt { messageId := 1, content := "a" }), .answer 0 .resolved,
    .answer 0 (.authenticated none), .enter (.enqueuePrompt { messageId := 2, content := "b" }),
    .enter (.executionComplete { messageId := 1, outcome := { success := true } }), .proceed 2,
    .answer 2 .resolved, .answer 1 .resolved, .answer 2 (.authenticated none), .enter (.tick 1),
    .enter (.stop "Execution was stopped")]

def handlerFirstPool : QueuePool :=
  ((queueMachine {}).run (Faithful {}) (QueuePool.idle readySession) handlerFirst).getD
    (QueuePool.idle readySession)

theorem status_truthful_handlerFirst : handlerFirstPool.shared.db.session.status = .failed := by
  have hrun : (queueMachine {}).run (Faithful {}) (QueuePool.idle readySession) handlerFirst =
      some handlerFirstPool := by decide +kernel
  rw [status_truthful readySession_fresh rfl (Machine.run_reachable .refl hrun) (by decide +kernel)
    (getPendingOrProcessingCount_eq_zero.mp (by decide +kernel)) (by decide +kernel)]
  decide +kernel

end BackgroundAgents.Session

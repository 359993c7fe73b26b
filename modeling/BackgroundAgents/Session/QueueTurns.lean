import BackgroundAgents.Session.MessageQueue
import BackgroundAgents.Session.MessageLife

/-!
# What a turn does to the messages

The queue's code, one function at a time, against the abstract life of a
message. Almost everything is `Undispatched`: whatever a turn does, it moves the
messages by life steps only, and neither claims nor sends. The two exceptions
are what a pump does when its provider or its MCP gateway answers; they are
taken apart in `afterProviderAuth_cases` and `afterManagedMcp_cases`.

A turn leaves frames behind. The only one that carries an obligation is a new
`providerAuth`: the message it picked is the head of the queue at that moment.
-/

namespace BackgroundAgents.Session

open BackgroundAgents.Coroutine

/-! ## Transactions as life steps -/

/-- From `db` to `db'` the messages have lived on, and nothing was announced as sent. -/
structure Lived (now : Millis) (new : Option MessageId) (db db' : SessionDb) : Prop where
  steps : LifeSteps now new db.message? db'.message?
  userEvents : ∀ m, db'.event? (.userMessage m) = db.event? (.userMessage m)

section Transactions

variable {now : Millis} {new : Option MessageId} {db db' db'' : SessionDb}

theorem Lived.refl (db : SessionDb) : Lived now new db db := ⟨.refl, fun _ => rfl⟩

theorem Lived.trans (h : Lived now new db db') (h' : Lived now new db' db'') :
    Lived now new db db'' :=
  ⟨h.steps.trans h'.steps, fun m => (h'.userEvents m).trans (h.userEvents m)⟩

theorem message?_eq_update {m : MessageId} {y : Option MessageRow}
    (h : ∀ k, db'.message? k = if k = m then y else db.message? k) :
    db'.message? = Function.update db.message? m y := by
  funext k
  rw [h k, Function.update_apply]

theorem message?_congr (h : db'.messages = db.messages) : db'.message? = db.message? := by
  funext k
  rw [SessionDb.message?, SessionDb.message?, h]

/-- A transaction over the session row alone. -/
theorem Lived.sessionOnly (h : SessionOnly db db') : Lived now new db db' := by
  have hevents : db'.events = db.events := by rw [h]
  refine ⟨?_, fun m => by rw [SessionDb.event?, SessionDb.event?, hevents]⟩
  rw [message?_congr h.messages]

theorem updateMessage_eq_update {m : MessageId} {row : MessageRow} (hrow : db.message? m = some row)
    (f : MessageRow → MessageRow) (hf : ∀ r, (f r).id = r.id) :
    (db.updateMessage m f hf).message? = Function.update db.message? m (some (f row)) := by
  funext k
  rw [message?_updateMessage, Function.update_apply]
  by_cases hk : k = m
  · rw [if_pos hk, if_pos hk, hk, hrow]
    rfl
  · rw [if_neg hk, if_neg hk]

/-- An update of a message there is not does nothing. -/
theorem updateMessage_eq_self {m : MessageId} (hrow : db.message? m = none)
    (f : MessageRow → MessageRow) (hf : ∀ r, (f r).id = r.id) :
    (db.updateMessage m f hf).message? = db.message? := by
  funext k
  rw [message?_updateMessage]
  split
  next hk => rw [hk, hrow]; rfl
  next => rfl

theorem recordMessageCompletion_lived (m : MessageId) (o : ExecutionOutcome) (t : Millis)
    {expected : MessageStatus} (hexpected : expected.unfinished = true) :
    Lived now new db (recordMessageCompletion db m o t expected).2 := by
  rcases recordMessageCompletion_cases db m o t expected with ⟨he, -⟩ | ⟨row, db', he, hrow, hstatus,
    -, hmsg, _, -, hevents⟩
  · rw [he]
    exact .refl db
  · rw [he]
    refine ⟨.single ?_, ?_⟩
    · show LifeStep now new db.message? db'.message?
      rw [message?_eq_update hmsg]
      exact .finish o t hrow (hstatus ▸ hexpected)
    · intro k
      exact (hevents (.userMessage k)).trans (if_neg nofun)

theorem recordFailure_lived (m : MessageId) (error : String) (t : Millis)
    {expected : MessageStatus} (hexpected : expected.unfinished = true) :
    Lived now new db (recordFailure db m error t expected).2 :=
  recordMessageCompletion_lived m _ t hexpected

theorem clearMessageAwaitingStopConfirmation_lived (m : MessageId) :
    Lived now new db (clearMessageAwaitingStopConfirmation db m) := by
  refine ⟨?_, fun _ => rfl⟩
  cases hrow : db.message? m with
  | none =>
    have he : (clearMessageAwaitingStopConfirmation db m).message? = db.message? :=
      updateMessage_eq_self hrow (·.unfence) fun _ => rfl
    rw [he]
  | some row =>
    have he : (clearMessageAwaitingStopConfirmation db m).message? = _ :=
      updateMessage_eq_update hrow (·.unfence) fun _ => rfl
    rw [he]
    exact .single (.unfence hrow)

theorem raiseReportedCost_lived (m : MessageId) (cost : ℚ) :
    Lived now new db (raiseReportedCost db m cost).2 := by
  rcases raiseReportedCost_cases db m cost with ⟨he, -⟩ | ⟨row, hrow, -, -, he⟩
  · rw [he]
    exact .refl db
  · rw [he]
    refine ⟨.single ?_, fun _ => rfl⟩
    show LifeStep now new db.message? (db.updateMessage m fun r => r.report cost).message?
    rw [updateMessage_eq_update hrow (·.report cost) fun _ => rfl]
    exact .report cost hrow

/-- A stop is one life step, or none. -/
theorem Stopped.lived {reason : String} (h : Stopped db db' reason now) :
    Lived now new db db' := by
  refine ⟨?_, h.userEvents⟩
  cases hp : getProcessingMessage db with
  | none =>
    have he : db'.message? = db.message? := funext (h.idle hp)
    rw [he]
  | some p =>
    obtain ⟨hrow, hprocessing⟩ := getProcessingMessage_some hp
    rw [message?_eq_update (h.stopped p hp)]
    exact .single (.stop reason hrow hprocessing)

theorem prepare_lived (reason : String) : Lived now new db (prepare db reason now).2 :=
  (prepare_spec db reason now).2.2.lived

variable {transition : BudgetTransition}

theorem prepareExhaustion_lived {totalCost limit : ℚ} {m : Option MessageId}
    (h : prepareExhaustion db totalCost limit m now = some (transition, db')) :
    Lived now new db db' := by
  obtain ⟨reason, tr, db₁, he, -, -, -, hstop⟩ := prepareExhaustion_some db totalCost limit m now
  rw [h] at he
  cases he
  exact hstop.lived

theorem applyObservedCost_lived {totalCost : ℚ} {m : Option MessageId}
    (h : applyObservedCost db totalCost m now = some (transition, db')) :
    Lived now new db db' := by
  obtain ⟨tr, db₁, he, hcase⟩ := applyObservedCost_some db totalCost m now
  rw [h] at he
  cases he
  rcases hcase with ⟨rfl, -⟩ | ⟨limit, reason, -, -, -, -, -, hstop⟩
  · exact .refl _
  · exact hstop.lived

theorem addSessionCost_lived (cost : ℚ) (t : Millis) :
    Lived now new db (addSessionCost db cost t).2 :=
  .sessionOnly rfl

theorem ingestStepFinish_lived {e : StepFinishEvent} {m : Option MessageId}
    (h : ingestStepFinish db e m now = some (transition, db')) :
    Lived now new db db' := by
  have hobs : Lived now new db (observeReportedCost db e m).2 := by
    unfold observeReportedCost
    split
    next => exact raiseReportedCost_lived _ _
    next =>
      split
      next => split <;> exact .refl db
      next => exact .refl db
  unfold ingestStepFinish at h
  dsimp only at h
  split at h
  next =>
    simp only [Option.bind_eq_bind, Option.bind_eq_some_iff] at h
    obtain ⟨⟨tr, settled⟩, hcharge, h⟩ := h
    cases h
    exact (hobs.trans (addSessionCost_lived _ _)).trans (applyObservedCost_lived hcharge)
  next =>
    cases h
    exact hobs

theorem observeExecutionCost_lived {e : ExecutionCompleteEvent}
    (h : observeExecutionCost db e now = some (transition, db')) :
    Lived now new db db' := by
  unfold observeExecutionCost at h
  split at h
  next =>
    cases h
    exact .refl _
  next cost hcost =>
    have hraise : Lived now new db (raiseReportedCost db e.messageId cost).2 :=
      raiseReportedCost_lived _ _
    dsimp only at h
    split at h
    next =>
      cases h
      exact hraise
    next =>
      simp only [Option.bind_eq_bind, Option.bind_eq_some_iff] at h
      obtain ⟨⟨tr, settled⟩, hcharge, h⟩ := h
      cases h
      exact (hraise.trans (addSessionCost_lived _ _)).trans (applyObservedCost_lived hcharge)

theorem completeExecution_lived {e : ExecutionCompleteEvent} {processing : Option MessageId}
    {completion : Option RecordedMessageCompletion}
    (h : completeExecution db e processing now = some (completion, transition, db')) :
    Lived now new db db' := by
  unfold completeExecution at h
  simp only [Option.bind_eq_bind, Option.bind_eq_some_iff] at h
  obtain ⟨⟨tr, settled⟩, hcost, h⟩ := h
  cases h
  refine .trans ?_ (observeExecutionCost_lived hcost)
  split
  next =>
    have hrec : Lived now new db
        (recordMessageCompletion db e.messageId e.outcome now .processing).2 :=
      recordMessageCompletion_lived _ _ _ rfl
    split
    next => exact hrec.trans (clearMessageAwaitingStopConfirmation_lived _)
    next => exact hrec
  next => exact clearMessageAwaitingStopConfirmation_lived _

theorem setSessionBudget_lived (maxCostUsd : Option ℚ) (exhausted : Bool) (t : Millis) :
    Lived now new db (setSessionBudget db maxCostUsd exhausted t) :=
  .sessionOnly rfl

theorem commitLimit_lived {maxCostUsd : Option ℚ}
    (h : commitLimit db maxCostUsd now = some (transition, db')) :
    Lived now new db db' := by
  unfold commitLimit at h
  dsimp only at h
  split at h
  next =>
    exact Lived.trans (setSessionBudget_lived _ _ _) (prepareExhaustion_lived h)
  next =>
    cases h
    exact setSessionBudget_lived _ _ _

theorem rowid_lt_nextRowid (messages : MessageTable) {k : MessageId} {x : MessageRow}
    (hx : messages.get? k = some x) : x.rowid < nextRowid messages := by
  have hle := List.le_max_of_le' 0 (List.mem_map_of_mem (f := MessageRow.rowid)
    (Table.mem_of_get? hx)) le_rfl
  rw [nextRowid]
  omega

theorem insert_lived {d : CreateMessageData} (hnew : new = some d.id) (hcreated : d.createdAt = now)
    (hpending : d.status = .pending) (hnone : db.message? d.id = none)
    (hrow : ∀ k, db'.message? k =
      if d.id = k then some (d.row (nextRowid db.messages)) else db.message? k)
    (hevents : db'.events = db.events) : Lived now new db db' := by
  refine ⟨?_, fun m => by rw [SessionDb.event?, SessionDb.event?, hevents]⟩
  have he : db'.message? =
      Function.update db.message? (d.row (nextRowid db.messages)).id
        (some (d.row (nextRowid db.messages))) := by
    refine message?_eq_update ?_
    intro k
    rw [hrow k]
    show _ = if k = d.id then _ else _
    by_cases hk : d.id = k
    · rw [if_pos hk, if_pos hk.symm]
    · rw [if_neg hk, if_neg (Ne.symm hk)]
  rw [he]
  exact .single (.insert hnew hnone hpending rfl rfl hcreated fun k x hx =>
    rowid_lt_nextRowid db.messages hx)

theorem cancelPendingMessage_lived (m : MessageId) :
    Lived now new db (cancelPendingMessage db m).2 := by
  rcases cancelPendingMessage_cases db m with he | ⟨row, db', he, hrow, hpending, -, -, hdb, hmsg, -⟩
  · rw [he]
    exact .refl db
  · rw [he]
    refine ⟨?_, fun k => ?_⟩
    · show LifeSteps now new db.message? db'.message?
      rw [message?_eq_update hmsg]
      exact .single (.remove hrow hpending)
    · have hevents : db'.events = db.events := by rw [hdb]
      exact congrArg (·.get? (EventId.userMessage k)) hevents

end Transactions

/-! ## Turns that neither claim nor send -/

/-- What a turn that leaves dispatching alone does, one commit or one stop command at a
time. `new` is the id generated for it. -/
inductive Undispatched (new : Option MessageId) (s : QueueState) : QueueState → Prop where
  | refl : Undispatched new s s
  | commit {s' : QueueState} {db : SessionDb} : Undispatched new s s' →
      Lived s'.now new s'.db db → Undispatched new s (s'.commit db)
  | sentStop {s' : QueueState} (socket : SocketId) : Undispatched new s s' →
      Undispatched new s (s'.record (.sentStop socket))

/-- What a frame relies on when it is left behind: what a pump has picked is the head. -/
def Frame.Fresh (s : QueueState) : Frame → Prop
  | .providerAuth message _ =>
    s.db.message? message.id = some message ∧ Head s.db.message? message
  | .managedMcp _ _ _ _ => False
  | _ => True

/-- The turn `t`, started in `s`, neither claims nor sends. -/
structure UndispatchedTurn (new : Option MessageId) (s : QueueState) (t : QueueTurn) : Prop where
  state : Undispatched new s t.state
  frames : ∀ f ∈ t.frames, f.Fresh t.state

section Undispatched

variable {new : Option MessageId} {cfg : QueueConfig} {s s' s'' : QueueState}

theorem Undispatched.trans (h : Undispatched new s s') (h' : Undispatched new s' s'') :
    Undispatched new s s'' := by
  induction h' with
  | refl => exact h
  | commit _ hlife ih => exact .commit ih hlife
  | sentStop socket _ ih => exact .sentStop socket ih

theorem Undispatched.commit_one {db : SessionDb}
    (h : Lived s.now new s.db db) : Undispatched new s (s.commit db) :=
  .commit .refl h

/-- A transaction over the session row alone. -/
theorem Undispatched.commit_sessionOnly {db : SessionDb} (h : SessionOnly s.db db) :
    Undispatched new s (s.commit db) :=
  .commit_one (.sessionOnly h)

theorem Undispatched.reconciled (success : Bool) : Undispatched new s (reconciled s success) :=
  .commit_sessionOnly (reconcileAfterExecution_sessionOnly _ _ _)

/-- `failMessage` reports whether it has written. -/
theorem failMessage_undispatched (m : MessageId) (error : String) (t : Millis)
    {expected : MessageStatus} (hexpected : expected.unfinished = true) :
    Undispatched new s (failMessage s m error t expected).2 := by
  have hlife : Lived s.now new s.db (recordFailure s.db m error t expected).2 :=
    recordFailure_lived _ _ _ hexpected
  unfold failMessage
  split
  next db h =>
    rw [h] at hlife
    exact .commit_one hlife
  next => exact .refl

theorem interrupt_undispatched (error : String) : Undispatched new s (interrupt s error) := by
  unfold interrupt
  dsimp only
  refine .trans ?_ (.commit_sessionOnly (reconcileFromMessageState_sessionOnly _ _))
  split
  next => exact .refl
  next => exact failMessage_undispatched _ _ _ rfl

theorem UndispatchedTurn.return (h : Undispatched new s s') :
    UndispatchedTurn new s (.return s' ()) := ⟨h, by simp⟩

theorem UndispatchedTurn.raise (h : Undispatched new s s') :
    UndispatchedTurn new s (.raise s') := ⟨h, by simp⟩

theorem UndispatchedTurn.await (h : Undispatched new s s') {f : Frame} (hf : f.Fresh s') :
    UndispatchedTurn new s (.await s' f) := ⟨h, by simpa using hf⟩

theorem UndispatchedTurn.awaitedBy {t : QueueTurn} (h : UndispatchedTurn new s t) {f : Frame}
    (hf : f.Fresh t.state) : UndispatchedTurn new s (t.awaitedBy f) where
  state := by
    rw [Turn.awaitedBy_state]
    exact h.state
  frames := by
    intro g hg
    rw [Turn.awaitedBy_state]
    rcases Turn.mem_awaitedBy.mp hg with rfl | hg
    · exact hf
    · exact h.frames g hg

theorem UndispatchedTurn.after {t : QueueTurn} (h : UndispatchedTurn new s' t)
    (hs : Undispatched new s s') : UndispatchedTurn new s t :=
  ⟨hs.trans h.state, h.frames⟩

/-! ### The execution stop coordinator -/

theorem recoverStopConfirmationTimeout_undispatched :
    UndispatchedTurn new s (recoverStopConfirmationTimeout s) := by
  unfold recoverStopConfirmationTimeout
  split
  next => exact .return .refl
  next =>
    split
    next => exact .await .refl trivial
    next => exact .await .refl trivial

theorem deliver_undispatched (preparation : ExecutionStopPreparation) :
    UndispatchedTurn new s (deliver s preparation) := by
  unfold deliver
  dsimp only
  refine .await (.trans ?_ (.reconciled false)) trivial
  split
  next =>
    split
    next => exact .sentStop _ .refl
    next => exact .refl
  next => exact .refl

theorem stop_undispatched (reason : String) : UndispatchedTurn new s (stop s reason) := by
  have hlife : Lived s.now new s.db (prepare s.db reason s.now).2 := prepare_lived reason
  unfold stop
  split
  next => exact .return .refl
  next preparation db h =>
    rw [h] at hlife
    exact (deliver_undispatched preparation).after (.commit_one hlife)

theorem deliverTransition_undispatched (transition : BudgetTransition) :
    UndispatchedTurn new s (deliverTransition s transition) := by
  unfold deliverTransition
  split
  next => exact .return .refl
  next preparation _ => exact deliver_undispatched preparation

/-! ### The pump, up to its first await -/

theorem authenticationFailed_undispatched (message : MessageRow) (error : String) (t : Millis) :
    UndispatchedTurn new s (authenticationFailed s message error t) := by
  have hfail : Undispatched new s (failMessage s message.id error t .pending).2 :=
    failMessage_undispatched _ _ _ rfl
  unfold authenticationFailed
  split
  next failed h =>
    rw [h] at hfail
    exact .await (hfail.trans (.reconciled false)) trivial
  next same h =>
    rw [h] at hfail
    exact .return hfail

/-- A pump that comes to its provider has picked the head of the queue. -/
theorem processMessageQueue_undispatched : UndispatchedTurn new s (processMessageQueue cfg s) := by
  unfold processMessageQueue
  split
  next => exact .return .refl
  next =>
  split
  next => exact .return .refl
  next =>
  split
  next =>
    split
    next => exact recoverStopConfirmationTimeout_undispatched
    next => exact .await .refl trivial
  next hfence =>
  split
  next => exact .return .refl
  next =>
  split
  next => exact .return .refl
  next hidle =>
  split
  next => exact .return .refl
  next message hnext =>
  split
  next => exact authenticationFailed_undispatched _ _ _
  next =>
    obtain ⟨hrow, -, hfirst⟩ := getNextPendingMessage_some hnext
    rw [Option.not_isSome_iff_eq_none] at hidle
    refine .await .refl ⟨hrow, ?_⟩
    exact
      { idle := getProcessingMessage_none.mp hidle
        unfenced := getMessageAwaitingStopConfirmation_none.mp hfence
        first := hfirst }

theorem resumeAfterSandboxTermination_undispatched :
    UndispatchedTurn new s (resumeAfterSandboxTermination cfg s) := by
  unfold resumeAfterSandboxTermination
  split
  next => exact processMessageQueue_undispatched
  next =>
    exact processMessageQueue_undispatched.after
      (.commit_one (clearMessageAwaitingStopConfirmation_lived _))

theorem afterDelivery_undispatched (preparation : ExecutionStopPreparation)
    (stopSent alarmed : Bool) :
    UndispatchedTurn new s (afterDelivery s preparation stopSent alarmed) := by
  unfold afterDelivery
  split
  next => exact .return .refl
  next =>
    split
    next => exact .return .refl
    next => exact .await .refl trivial

/-! ### Entry points -/

theorem enqueuePrompt_undispatched (r : PromptRequest) (hnew : new = some r.messageId) :
    UndispatchedTurn new s (enqueuePrompt cfg s r) := by
  unfold enqueuePrompt
  split
  next => exact .raise .refl
  next =>
  split
  next => exact .await .refl trivial
  next => exact .raise .refl
  next =>
  split
  next => exact .raise .refl
  next =>
  split
  next => exact .raise .refl
  next =>
  split
  next => exact .raise .refl
  next =>
  split
  next => exact .raise .refl
  next db hcreate =>
    obtain ⟨hdb, hnone, hrow, -⟩ := createMessageWithAttachments_some hcreate
    have hinsert : Undispatched new s (s.commit db) :=
      .commit_one (insert_lived hnew rfl rfl hnone hrow (by rw [hdb]))
    exact .await (hinsert.trans (.commit_sessionOnly (beginTransition_sessionOnly _ _ _))) trivial

theorem redrivePendingAutofix_undispatched (m : MessageId) :
    UndispatchedTurn new s (redrivePendingAutofix s m) := by
  unfold redrivePendingAutofix
  split
  next => exact .return .refl
  next => exact .await (.commit_sessionOnly (beginTransition_sessionOnly _ _ _)) trivial

theorem enqueueAutofix_undispatched (r : AutofixRequest) (hnew : new = some r.messageId) :
    UndispatchedTurn new s (enqueueAutofix s r) := by
  unfold enqueueAutofix
  split
  next => exact .raise .refl
  next => exact .return .refl
  next => exact redrivePendingAutofix_undispatched _
  next m db hadmit =>
    rcases admitAutofixMessage_some hadmit with ⟨rfl, hne⟩ | ⟨-, hcreate⟩
    · exact (redrivePendingAutofix_undispatched m).after (.commit_one (.refl _))
    · obtain ⟨hdb, hnone, hrow⟩ := createMessage_some hcreate
      exact (redrivePendingAutofix_undispatched m).after
        (.commit_one (insert_lived hnew rfl rfl hnone hrow (by rw [hdb])))

theorem lookupAutofix_undispatched (key : Nat) : UndispatchedTurn new s (lookupAutofix s key) := by
  unfold lookupAutofix
  split
  next => exact .return .refl
  next => exact redrivePendingAutofix_undispatched _

theorem cancelQueuedPrompt_undispatched (m : MessageId) :
    UndispatchedTurn new s (cancelQueuedPrompt s m) := by
  have hlife : Lived s.now new s.db (cancelPendingMessage s.db m).2 :=
    cancelPendingMessage_lived m
  unfold cancelQueuedPrompt
  split
  next => exact .return .refl
  next db h =>
    rw [h] at hlife
    have hremoved : Undispatched new s (s.commit db) := .commit_one hlife
    exact .await
      (hremoved.trans (.commit_sessionOnly (reconcileAfterQueueRemoval_sessionOnly _ _))) trivial

theorem failPendingMessage_undispatched (m : MessageId) (error : String) :
    UndispatchedTurn new s (failPendingMessage s m error) := by
  have hfail : Undispatched new s (failMessage s m error s.now .pending).2 :=
    failMessage_undispatched _ _ _ rfl
  unfold failPendingMessage
  split
  next failed h =>
    rw [h] at hfail
    exact .await (hfail.trans (.reconciled false)) trivial
  next same h =>
    rw [h] at hfail
    exact .return hfail

theorem failStuckProcessingMessage_undispatched (error : String) :
    UndispatchedTurn new s (failStuckProcessingMessage s error) := by
  unfold failStuckProcessingMessage
  split
  next => exact .return .refl
  next processing _ =>
    have hfail : Undispatched new s (failMessage s processing.id error s.now .processing).2 :=
      failMessage_undispatched _ _ _ rfl
    split
    next failed h =>
      rw [h] at hfail
      exact .await (hfail.trans (.reconciled false)) trivial
    next same h =>
      rw [h] at hfail
      exact .return hfail

theorem handleFatalSandboxFailure_undispatched (reason : String) (interrupts : Bool) :
    UndispatchedTurn new s (handleFatalSandboxFailure s reason interrupts) := by
  unfold handleFatalSandboxFailure
  dsimp only
  refine .awaitedBy (.after (failStuckProcessingMessage_undispatched _) ?_) trivial
  split
  next => exact interrupt_undispatched _
  next => exact .refl

theorem handleStepFinish_undispatched (event : StepFinishEvent) :
    UndispatchedTurn new s (handleStepFinish s event) := by
  unfold handleStepFinish
  split
  next => exact .raise .refl
  next transition db h =>
    exact (deliverTransition_undispatched _).after (.commit_one (ingestStepFinish_lived h))

theorem handleExecutionComplete_undispatched (event : ExecutionCompleteEvent) :
    UndispatchedTurn new s (handleExecutionComplete s event) := by
  unfold handleExecutionComplete
  split
  next => exact .raise .refl
  next completion transition db h =>
    exact .awaitedBy
      ((deliverTransition_undispatched _).after (.commit_one (completeExecution_lived h))) trivial

theorem updateLimit_undispatched (maxCostUsd : Option ℚ) :
    UndispatchedTurn new s (updateLimit s maxCostUsd) := by
  unfold updateLimit
  split
  next => exact .return .refl
  next =>
  split
  next => exact .raise .refl
  next transition db h =>
    exact .awaitedBy
      ((deliverTransition_undispatched _).after (.commit_one (commitLimit_lived h))) trivial

theorem failAll_undispatched (messages : List MessageRow) (error : String) :
    Undispatched new s (messages.foldl (fun s' message =>
      (failMessage s' message.id error s.now .pending).2) s) := by
  have hrun : ∀ s' : QueueState, Undispatched new s s' →
      Undispatched new s (messages.foldl (fun s' message =>
        (failMessage s' message.id error s.now .pending).2) s') := by
    induction messages with
    | nil => exact fun _ h => h
    | cons message messages ih =>
      intro s' h
      exact ih _ (h.trans (failMessage_undispatched _ _ _ rfl))
  exact hrun s .refl

theorem cancel_undispatched : UndispatchedTurn new s (cancel s) := by
  unfold cancel
  extract_lets db row closed drained ended
  have hclosed : Undispatched new s closed := .commit_sessionOnly rfl
  have hdrained : Undispatched new s drained := hclosed.trans (failAll_undispatched _ _)
  have hended : Undispatched new s ended := by
    refine hdrained.trans ?_
    unfold ended
    split
    next => exact .refl
    next => exact failMessage_undispatched _ _ _ rfl
  refine .await (hended.trans ?_) trivial
  split
  next =>
    split
    next => exact .sentStop _ .refl
    next => exact .refl
  next => exact .refl

theorem archive_undispatched : UndispatchedTurn new s (archive s) := by
  unfold archive
  split
  next => exact .return .refl
  next => exact .await (.commit_sessionOnly (beginTransition_sessionOnly _ _ _)) trivial

theorem unarchive_undispatched : UndispatchedTurn new s (unarchive s) := by
  unfold unarchive
  split
  next => exact .return .refl
  next => exact .await (.commit_sessionOnly (settleFromMessageState_sessionOnly _ _)) trivial

theorem applySandboxRecovery_undispatched (bootPrompt : Option MessageId)
    (result : TerminationResult) :
    UndispatchedTurn new s (applySandboxRecovery cfg s bootPrompt result) := by
  unfold applySandboxRecovery
  split
  next => exact resumeAfterSandboxTermination_undispatched
  next =>
    split
    next => exact .return .refl
    next => exact failPendingMessage_undispatched _ _
  next => exact .return .refl
  next => exact .return .refl

end Undispatched

end BackgroundAgents.Session

import BackgroundAgents.Session.QueueDispatch

/-!
# Wake-ups of the prompt queue

While the session is open, within its budget, and its sandbox can be dispatched
to (`Calm`), prompts are queued and removed and turns complete. Is a pending
prompt always left to some pump that will dispatch it?

Not always. A pump that has picked a prompt and finds it removed when its
provider answers just returns. If every pump in flight had picked that prompt,
those that stay pending wait for nobody (`cancelled_head_strands`). The path
without a sandbox handles the same situation by pumping again.

`CancelStrands` is that situation, at the moment of the cancellation. Without it
`Woken` is an invariant: if a prompt could be started, a frame in flight *wakes*
the queue, that is, it will call the pump, or is one whose prompt is still
pending. So when no pump is left in flight nothing is pending (`no_lost_wakeup`).
-/

namespace BackgroundAgents.Session

open BackgroundAgents.Coroutine

/-- A prompt is pending and nothing holds it up. -/
structure Startable (db : SessionDb) : Prop where
  pending : getNextPendingMessage db ≠ none
  idle : getProcessingMessage db = none
  unfenced : getMessageAwaitingStopConfirmation db = none

/-- The session dispatches: it is promptable, within its budget, and its sandbox is open. -/
structure Calm (s : QueueState) : Prop where
  promptable : isSessionPromptable s.db.session.status = true
  budget : s.db.session.budgetExhausted = false
  mayDispatch : s.mayDispatch = true
  target : ∃ socket ∈ s.openSockets, s.target = .dispatch socket

/-- A pump that is suspended, or a call in flight that has still to pump. -/
def Frame.pumps : Frame → Bool
  | .trailing | .delivering _ _ => false
  | _ => true

/-- A frame that will get the queue going, if the prompts `waiting` are pending. -/
def Frame.wakes (waiting : MessageId → Bool) : Frame → Bool
  | .providerAuth message _ => waiting message.id
  | .thenPump | .redriven | .terminating | .completionDelivered _ _ | .completionProjected _
  | .completionReconciled => true
  | _ => false

def isPending (db : SessionDb) (m : MessageId) : Bool :=
  db.messageStatus? m = some .pending

/-- What a run is made of: prompts are queued and removed, turns complete, time passes,
and every await is answered; the MCP gateway may answer anything, and so may what a
function no longer waits for. -/
def Undisturbed (s : QueueState) : Event Call Frame Answer Unit → Prop
  | .enter call =>
    match call with
    | .enqueuePrompt _ | .enqueueAutofix _ | .lookupAutofix _ | .cancelQueuedPrompt _
    | .processMessageQueue | .executionComplete _ | .tick _ | .setMayDispatch _
    | .setPromptBlocked _ | .setSandbox _ _ _ => True
    | _ => False
  | .resume frame wake =>
    match frame, wake with
    | .providerAuth _ _, w => w = .answered (.authenticated none)
    | .managedMcp _ _ _ _, _ | .trailing, _ => True
    | .redriven, w => w = .answered .resolved ∧ s.promptBlocked = false
    | .fatalSettled _, _ | .fatalTerminated _, _ => False
    | _, .answered a => a = .resolved
    | _, .ended o => o = .returned ()

/-- The row can be removed by its author. -/
def cancellable (db : SessionDb) (m : MessageId) : Bool :=
  (db.message? m).any fun row =>
    row.status = .pending && row.source = .web && row.callbackContext = none

/-- Removing `m` strands the queue: `m` can be removed, another prompt is pending with
nothing to hold it up, and every frame in flight that would have woken the queue is a
pump that has picked `m`. -/
structure CancelStrands (s : QueueState) (fs : List Frame) (m : MessageId) : Prop where
  removable : cancellable s.db m = true
  other : s.db.messages.rows.any (fun r => r.id ≠ m && r.status = .pending) = true
  idle : getProcessingMessage s.db = none
  unfenced : getMessageAwaitingStopConfirmation s.db = none
  unwoken : fs.all (fun f => !f.wakes fun k => k ≠ m && isPending s.db k) = true

/-- The runs of an undisturbed session. -/
def Wakeful : StepCondition QueueState Call Frame Answer Unit :=
  fun s _ e => Calm s ∧ Undisturbed s e

/-- The message a step removes. -/
def cancels : Event Call Frame Answer Unit → Option MessageId
  | .enter (.cancelQueuedPrompt m) => some m
  | _ => none

/-- The runs in which moreover no cancellation strands the queue. -/
def Unstranded : StepCondition QueueState Call Frame Answer Unit :=
  fun s fs e => Wakeful s fs e ∧ ∀ m ∈ cancels e, ¬ CancelStrands s fs m

/-! ## The invariant -/

/-- If a prompt could be started, some frame wakes the queue. -/
def Woken (s : QueueState) (fs : List Frame) : Prop :=
  Calm s → Startable s.db → ∃ f ∈ fs, f.wakes (isPending s.db) = true

section Wakeup

variable {cfg : QueueConfig} {s s' : QueueState} {fs others : List Frame}

variable {m : MessageId}

theorem isPending_iff {db : SessionDb} :
    isPending db m = true ↔ ∃ row, db.message? m = some row ∧ row.status = .pending := by
  rw [isPending, decide_eq_true_eq, messageStatus?_eq_some]

theorem not_startable_of_processing {db : SessionDb} (h : db.messageStatus? m = some .processing) :
    ¬ Startable db := by
  obtain ⟨row, hrow, hstatus⟩ := messageStatus?_eq_some.mp h
  intro hs
  exact getProcessingMessage_none.mp hs.idle m row hrow hstatus

theorem Calm.open (h : Calm s) : isSessionClosed s.db = false := by
  rw [isSessionClosed, h.promptable]
  rfl

theorem Calm.of_session (h : Calm s) (hsession : s'.db.session = s.db.session)
    (hmay : s'.mayDispatch = s.mayDispatch) (htarget : s'.target = s.target)
    (hopen : s'.openSockets = s.openSockets) : Calm s' where
  promptable := hsession ▸ h.promptable
  budget := hsession ▸ h.budget
  mayDispatch := hmay.trans h.mayDispatch
  target := by
    rw [hopen, htarget]
    exact h.target

/-- A turn wakes the queue. -/
def Wakes (t : QueueTurn) : Prop :=
  Startable t.state.db → ∃ f ∈ t.frames, f.wakes (isPending t.state.db) = true

theorem wakes_await {f : Frame} (hf : ∀ waiting, f.wakes waiting = true) :
    Wakes (.await s f) := by
  intro _
  exact ⟨f, by simp, hf _⟩

variable {t : QueueTurn}

theorem wakes_of_not_startable (h : ¬ Startable t.state.db) : Wakes t :=
  fun hs => absurd hs h

theorem Wakes.woken (h : Wakes t) : Woken t.state (t.frames ++ others) := by
  intro _ hs
  obtain ⟨f, hf, hw⟩ := h hs
  exact ⟨f, List.mem_append_left _ hf, hw⟩

/-- A pump in a calm session wakes the queue, unless there is nothing to start. -/
theorem processMessageQueue_wakes (h : Calm s) : Wakes (processMessageQueue cfg s) := by
  unfold processMessageQueue
  split
  next hmay =>
    rw [h.mayDispatch] at hmay
    cases hmay
  next =>
  split
  next hclosed =>
    rw [h.open] at hclosed
    cases hclosed
  next =>
  split
  next m deadline hfence =>
    -- a fence holds the queue up, whatever becomes of the pump
    have hfenced : ¬ Startable s.db := by
      intro hs
      rw [hs.unfenced] at hfence
      cases hfence
    apply wakes_of_not_startable
    split
    next =>
      unfold recoverStopConfirmationTimeout
      split
      next => exact hfenced
      next => split <;> exact hfenced
    next => exact hfenced
  next =>
  split
  next hbudget =>
    rw [h.budget] at hbudget
    cases hbudget
  next =>
  split
  next hbusy =>
    apply wakes_of_not_startable
    intro hs
    have hidle : getProcessingMessage s.db = none := hs.idle
    rw [hidle] at hbusy
    cases hbusy
  next =>
  split
  next hnone => exact wakes_of_not_startable fun hs => hs.pending hnone
  next message hnext =>
  obtain ⟨hrow, hpending, -⟩ := getNextPendingMessage_some hnext
  split
  next error _ =>
    unfold authenticationFailed
    split
    next => exact wakes_await fun _ => rfl
    next same hfail =>
      have hstatus := (failMessage_none hfail).2
      exact absurd (messageStatus?_eq_some.mpr ⟨message, hrow, hpending⟩) hstatus
  next =>
    intro _
    exact ⟨.providerAuth message s.now, by simp, isPending_iff.mpr ⟨message, hrow, hpending⟩⟩

theorem resumeAfterSandboxTermination_wakes (h : Calm s) :
    Wakes (resumeAfterSandboxTermination cfg s) := by
  unfold resumeAfterSandboxTermination
  split
  next => exact processMessageQueue_wakes h
  next m _ _ =>
    refine processMessageQueue_wakes ?_
    exact h.of_session rfl rfl rfl rfl

theorem updateMessageToPending_session (db : SessionDb) (m : MessageId) :
    (updateMessageToPending db m).session = db.session := by
  rcases updateMessageToPending_cases db m with ⟨he, -⟩ | ⟨_, db', he, -, -, hdb, -⟩
  · rw [he]
  · rw [he, hdb]

theorem giveBack_calm (h : Calm s) (m : MessageId) (revision : Nat) :
    Calm (giveBack s m revision) :=
  h.of_session (updateMessageToPending_session s.db m) rfl rfl rfl

/-- A turn that leaves the storage alone, of a frame that woke nobody. -/
theorem Woken.keep {e : Event Call Frame Answer Unit} (h : Woken s fs) (hcalm : Calm s)
    (hfs : fs.Perm (e.frames ++ others)) (he : ∀ f ∈ e.frames, f.wakes (isPending s.db) = false)
    (hdb : t.state.db = s.db) :
    Woken t.state (t.frames ++ others) := by
  intro _ hs
  rw [hdb] at hs ⊢
  obtain ⟨f, hf, hw⟩ := h hcalm hs
  rcases List.mem_append.mp (hfs.mem_iff.mp hf) with hf | hf
  · rw [he f hf] at hw
    cases hw
  · exact ⟨f, List.mem_append_right _ hf, hw⟩

/-! ### What a caller does -/

theorem enqueuePrompt_wakes (r : PromptRequest) :
    Wakes (enqueuePrompt cfg s r) ∨ (enqueuePrompt cfg s r).state.db = s.db := by
  unfold enqueuePrompt
  split
  next => exact .inr rfl
  next =>
  split
  next => exact .inl (wakes_await fun _ => rfl)
  next => exact .inr rfl
  next =>
  split
  next => exact .inr rfl
  next =>
  split
  next => exact .inr rfl
  next =>
  split
  next => exact .inr rfl
  next =>
  split
  next => exact .inr rfl
  next => exact .inl (wakes_await fun _ => rfl)

theorem redrivePendingAutofix_wakes (m : MessageId) :
    Wakes (redrivePendingAutofix s m) ∨ (redrivePendingAutofix s m).state.db = s.db := by
  unfold redrivePendingAutofix
  split
  next => exact .inr rfl
  next => exact .inl (wakes_await fun _ => rfl)

theorem lookupAutofix_wakes (key : Nat) :
    Wakes (lookupAutofix s key) ∨ (lookupAutofix s key).state.db = s.db := by
  unfold lookupAutofix
  split
  next => exact .inr rfl
  next m _ => exact redrivePendingAutofix_wakes m

/-- Admitted feedback is pending, and the session is open: it is driven. -/
theorem enqueueAutofix_wakes (h : Calm s) (r : AutofixRequest) :
    Wakes (enqueueAutofix s r) ∨ (enqueueAutofix s r).state.db = s.db := by
  unfold enqueueAutofix
  split
  next => exact .inr rfl
  next => exact .inr rfl
  next => exact redrivePendingAutofix_wakes _
  next m db hadmit =>
    rcases admitAutofixMessage_some hadmit with ⟨rfl, hne⟩ | ⟨he, hcreate⟩
    · exact redrivePendingAutofix_wakes (s := s.commit _) m
    · obtain ⟨hdb, -, hrow⟩ := createMessage_some hcreate
      cases he
      have hpending : (s.commit db).db.messageStatus? r.messageId = some .pending :=
        messageStatus?_eq_some.mpr ⟨_, (hrow r.messageId).trans (if_pos rfl), rfl⟩
      have hopen : isSessionClosed (s.commit db).db = false := by
        have hsession : db.session = s.db.session := by rw [hdb]
        show isSessionClosed db = false
        rw [isSessionClosed, hsession]
        exact h.open
      unfold redrivePendingAutofix
      split
      next hno =>
        rw [Bool.or_eq_true, decide_eq_true_eq, hopen] at hno
        rcases hno with hno | hclosed
        · exact absurd hpending hno
        · cases hclosed
      next => exact .inl (wakes_await fun _ => rfl)

theorem handleExecutionComplete_wakes (event : ExecutionCompleteEvent) :
    Wakes (handleExecutionComplete s event) ∨ (handleExecutionComplete s event).state.db = s.db := by
  unfold handleExecutionComplete
  split
  next => exact .inr rfl
  next completion _ _ _ =>
    refine .inl ?_
    intro _
    exact ⟨.completionDelivered event completion, Turn.mem_awaitedBy.mpr (.inl rfl), rfl⟩

theorem cancelPendingMessage_removes {db : SessionDb} (h : cancelPendingMessage s.db m = (true, db))
    :
    cancellable s.db m = true ∧
      ∀ k, db.message? k = if k = m then none else s.db.message? k := by
  rcases cancelPendingMessage_cases s.db m with he | ⟨row, db', he, hrow, hp, hweb, hcb, -, hmsg, -⟩
  · rw [h] at he
    cases he
  · rw [h] at he
    cases he
    refine ⟨?_, hmsg⟩
    rw [cancellable, hrow]
    simp [hp, hweb, hcb]

theorem Frame.wakes_mono {waiting waiting' : MessageId → Bool} {f : Frame}
    (hle : ∀ k, waiting k = true → waiting' k = true) (h : f.wakes waiting = true) :
    f.wakes waiting' = true := by
  cases f with
  | providerAuth message t => exact hle _ h
  | _ => exact h

theorem Frame.pumps_of_wakes {waiting : MessageId → Bool} (f : Frame)
    (h : f.wakes waiting = true) : f.pumps = true := by
  cases f with
  | trailing | delivering => exact h
  | _ => rfl

/-- A removal that strands nobody leaves a frame that wakes the queue. -/
theorem cancelQueuedPrompt_woken (h : Woken s fs) (hcalm : Calm s)
    (hinv : QueueInv s.now s.issued s.db.message?) (hstrand : ¬ CancelStrands s fs m) :
    Woken (cancelQueuedPrompt s m).state ((cancelQueuedPrompt s m).frames ++ fs) := by
  unfold cancelQueuedPrompt
  split
  next =>
    refine h.keep (e := .enter (.cancelQueuedPrompt m)) hcalm (List.Perm.refl _) ?_ rfl
    intro f hf
    cases hf
  next db hremoved =>
    obtain ⟨hcan, hmsg⟩ := cancelPendingMessage_removes hremoved
    intro _ hs
    have hs' : Startable (reconcileAfterQueueRemoval db s.now) := hs
    have hq : (reconcileAfterQueueRemoval db s.now).message? = db.message? :=
      message?_congr (reconcileAfterQueueRemoval_sessionOnly _ _).messages
    have hothers : ∀ k x, k ≠ m → s.db.message? k = some x →
        (reconcileAfterQueueRemoval db s.now).message? k = some x := by
      intro k x hk hx
      rw [hq, hmsg, if_neg hk]
      exact hx
    -- what was removed was pending, so it was neither processing nor fenced
    have hmine : ∀ x, s.db.message? m = some x → x.status = .pending := by
      intro x hx
      rw [cancellable, hx] at hcan
      simpa using (Bool.and_eq_true_iff.mp (Bool.and_eq_true_iff.mp hcan).1).1
    have hidle : getProcessingMessage s.db = none := by
      refine getProcessingMessage_none.mpr fun k x hx hp => ?_
      by_cases hk : k = m
      · rw [hmine x (hk ▸ hx)] at hp
        cases hp
      · exact getProcessingMessage_none.mp hs'.idle k x (hothers k x hk hx) hp
    have hunfenced : getMessageAwaitingStopConfirmation s.db = none := by
      refine getMessageAwaitingStopConfirmation_none.mpr fun k x hx => ?_
      by_cases hk : k = m
      · by_contra hfence
        have hfailed := hinv.fenced k x hx hfence
        rw [hmine x (hk ▸ hx)] at hfailed
        cases hfailed
      · exact getMessageAwaitingStopConfirmation_none.mp hs'.unfenced k x (hothers k x hk hx)
    have hother : s.db.messages.rows.any (fun r => r.id ≠ m && r.status = .pending) = true := by
      obtain ⟨head, hnext⟩ := Option.ne_none_iff_exists'.mp hs'.pending
      obtain ⟨hhead, hpending, -⟩ := getNextPendingMessage_some hnext
      rw [hq, hmsg] at hhead
      split at hhead
      next => cases hhead
      next hne =>
        refine List.any_eq_true.mpr ⟨head, Table.mem_of_get? hhead, ?_⟩
        simp [hne, hpending]
    obtain ⟨f, hf, hw⟩ : ∃ f ∈ fs, f.wakes (fun k => k ≠ m && isPending s.db k) = true := by
      by_contra hnone
      refine hstrand ⟨hcan, hother, hidle, hunfenced, List.all_eq_true.mpr fun f hf => ?_⟩
      rw [Bool.not_eq_true', Bool.eq_false_iff]
      exact fun hw => hnone ⟨f, hf, hw⟩
    refine ⟨f, List.mem_append_right _ hf, Frame.wakes_mono ?_ hw⟩
    intro k hk
    obtain ⟨hne, hpending⟩ : k ≠ m ∧ isPending s.db k = true := by simpa using hk
    obtain ⟨x, hx, hp⟩ := isPending_iff.mp hpending
    exact isPending_iff.mpr ⟨x, hothers k x hne hx, hp⟩

/-! ### What a pump does when it is answered -/

variable {message : MessageRow}

theorem sendPrompt_processing {socket : SocketId} {revision : Nat} {managed : Bool} (hcalm : Calm s)
    (htarget : s.target = .dispatch socket)
    (hprocessing : s.db.messageStatus? message.id = some .processing) :
    Wakes (sendPrompt s message socket revision managed) := by
  obtain ⟨open', hopen, ht⟩ := hcalm.target
  rw [htarget] at ht
  cases ht
  unfold sendPrompt
  rw [if_pos (List.contains_iff_mem.mpr hopen)]
  exact wakes_of_not_startable (not_startable_of_processing hprocessing)

/-- The claim of a pump in a calm session takes its prompt, or its prompt is not pending. -/
theorem afterProviderAuth_woken {t : Millis} (h : Woken s (.providerAuth message t :: fs))
    (hcalm : Calm s) (hinv : DispatchInv s.issued s (.providerAuth message t :: fs)) :
    Woken (afterProviderAuth cfg s message t none).state
      ((afterProviderAuth cfg s message t none).frames ++ fs) := by
  obtain ⟨socket, hopen, htarget⟩ := hcalm.target
  unfold afterProviderAuth
  rw [if_neg (by simp [hcalm.mayDispatch]), if_neg (by simp [hcalm.budget])]
  dsimp only
  rw [htarget]
  dsimp only
  split
  next hraise =>
    -- a pending message has no `user_message` event, so the claim does not throw
    obtain ⟨row, hrow, hpending, hevent⟩ := startMessageProcessing_none hraise
    exact absurd hpending ((hinv.announced _ hevent).2 row hrow)
  next db hlost =>
    intro _ hs
    obtain ⟨f, hf, hw⟩ := h hcalm hs
    rcases List.mem_cons.mp hf with rfl | hf
    · obtain ⟨row, hrow, hpending⟩ := isPending_iff.mp hw
      rcases startMessageProcessing_some hlost with ⟨-, -, hbusy⟩ | ⟨_, hfalse, -⟩
      · exact absurd hs.idle (hbusy row hrow hpending)
      · cases hfalse
    · exact ⟨f, List.mem_append_right _ hf, hw⟩
  next db hclaim =>
    have hprocessing : db.messageStatus? message.id = some .processing := by
      rcases startMessageProcessing_some hclaim with ⟨hfalse, -⟩ | ⟨row, -, -, -, -, -, hmsg, -⟩
      · cases hfalse
      · refine messageStatus?_eq_some.mpr ⟨row.claim t, ?_, rfl⟩
        rw [hmsg, if_pos rfl]
    split
    next => exact (wakes_of_not_startable (not_startable_of_processing hprocessing)).woken
    next =>
      have hsession : db.session = s.db.session := by
        rcases startMessageProcessing_some hclaim with ⟨hfalse, -⟩ | ⟨_, -, -, -, -, hdb, -⟩
        · cases hfalse
        · rw [hdb]
      have hcalm' : Calm (s.commit db) := hcalm.of_session hsession rfl rfl rfl
      exact (sendPrompt_processing hcalm' htarget hprocessing).woken

theorem afterManagedMcp_woken {t : Millis} {socket : SocketId} {revision : Nat} {answer : Answer}
    {turn : QueueTurn} (h : Woken s (.managedMcp message t socket revision :: fs)) (hcalm : Calm s)
    (hturn : afterManagedMcp cfg s message socket revision answer = some turn) :
    Woken turn.state (turn.frames ++ fs) := by
  have hkeep : ∀ t : QueueTurn, t.state.db = s.db → Woken t.state (t.frames ++ fs) := by
    intro t' hdb
    refine h.keep (e := .resume (.managedMcp message t socket revision) (.answered answer)) hcalm
      (List.Perm.refl _) ?_ hdb
    intro f hf
    rw [List.mem_singleton.mp hf]
    rfl
  unfold afterManagedMcp at hturn
  split at hturn
  next managed =>
    cases hturn
    split
    next => exact hkeep _ rfl
    next hprocessing =>
    rw [ne_eq, not_not] at hprocessing
    split
    next => exact (processMessageQueue_wakes (giveBack_calm hcalm _ _)).woken
    next hready =>
      simp only [Bool.or_eq_true, Bool.not_eq_true', decide_eq_true_eq, not_or, ne_eq,
        not_not] at hready
      exact (sendPrompt_processing hcalm hready.2 hprocessing).woken
  next =>
    cases hturn
    split
    next => exact (processMessageQueue_wakes (giveBack_calm hcalm _ _)).woken
    next => exact hkeep _ rfl
  next =>
    cases hturn
    split
    next => exact (wakes_await fun _ => rfl).woken
    next same hfail =>
      obtain ⟨rfl, -⟩ := failMessage_none hfail
      exact hkeep _ rfl
  next => cases hturn

/-! ### Every turn -/

/-- **The step lemma.** -/
theorem queueTurn_woken {e : Event Call Frame Answer Unit} (hinv : DispatchInv s.issued s fs)
    (h : Woken s fs) (hok : Unstranded s fs e) (hfs : fs.Perm (e.frames ++ others))
    (ht : queueTurn cfg s e = some t) :
    Woken t.state (t.frames ++ others) := by
  obtain ⟨⟨hcalm, hcalls⟩, hstrand⟩ := hok
  cases e with
  | enter call =>
    have hperm : fs.Perm others := hfs
    have hkeep : ∀ t : QueueTurn, t.state.db = s.db → Woken t.state (t.frames ++ others) :=
      fun t' hdb => h.keep hcalm hfs (by simp [Event.frames]) hdb
    have hcalm' : Calm (s.issue call.generates) :=
      hcalm.of_session (by cases call.generates <;> rfl) (by cases call.generates <;> rfl)
        (by cases call.generates <;> rfl) (by cases call.generates <;> rfl)
    have hboth : ∀ t : QueueTurn, Wakes t ∨ t.state.db = s.db →
        Woken t.state (t.frames ++ others) := by
      rintro t' (hw | hdb)
      · exact hw.woken
      · exact hkeep t' hdb
    simp only [queueTurn] at ht
    split at ht
    next => cases ht
    next =>
      cases ht
      cases call with
      | enqueuePrompt r => exact hboth _ (enqueuePrompt_wakes r)
      | enqueueAutofix r => exact hboth _ (enqueueAutofix_wakes hcalm' r)
      | lookupAutofix key => exact hboth _ (lookupAutofix_wakes key)
      | processMessageQueue => exact (processMessageQueue_wakes hcalm).woken
      | executionComplete event => exact hboth _ (handleExecutionComplete_wakes event)
      | cancelQueuedPrompt m =>
        have hw := cancelQueuedPrompt_woken h hcalm hinv.queue (hstrand m rfl)
        intro hc hs
        obtain ⟨f, hf, hwake⟩ := hw hc hs
        refine ⟨f, ?_, hwake⟩
        rcases List.mem_append.mp hf with hf | hf
        · exact List.mem_append_left _ hf
        · exact List.mem_append_right _ (hperm.mem_iff.mp hf)
      | setMayDispatch | setPromptBlocked | setSandbox | tick => exact hkeep _ rfl
      | _ => exact hcalls.elim
  | resume f w =>
    have h' : Woken s (f :: others) := by
      intro hc hs
      obtain ⟨g, hg, hw⟩ := h hc hs
      exact ⟨g, hfs.mem_iff.mp hg, hw⟩
    have hinv' : DispatchInv s.issued s (f :: others) := hinv.perm hfs
    have hkeep : (∀ waiting, f.wakes waiting = false) → ∀ t : QueueTurn, t.state.db = s.db →
        Woken t.state (t.frames ++ others) := by
      intro hf t' hdb
      refine h.keep hcalm hfs ?_ hdb
      intro g hg
      rw [List.mem_singleton.mp hg]
      exact hf _
    cases f with
    | providerAuth message t' =>
      cases hcalls
      cases ht
      exact afterProviderAuth_woken h' hcalm hinv'
    | managedMcp message t' socket revision =>
      cases w with
      | answered answer => exact afterManagedMcp_woken h' hcalm ht
      | ended o => cases ht
    | thenPump =>
      cases w with
      | answered answer =>
        cases hcalls
        cases ht
        exact (processMessageQueue_wakes hcalm).woken
      | ended o => cases ht
    | redriven =>
      obtain ⟨rfl, hblocked⟩ := hcalls
      cases ht
      rw [if_neg (by simp [hblocked])]
      exact (processMessageQueue_wakes hcalm).woken
    | trailing =>
      cases w with
      | answered answer => cases answer <;> cases ht <;> exact hkeep (fun _ => rfl) _ rfl
      | ended o => cases ht
    | terminating =>
      cases w with
      | answered answer =>
        cases hcalls
        cases ht
        exact (resumeAfterSandboxTermination_wakes hcalm).woken
      | ended o => cases ht
    | delivering preparation stopSent =>
      cases w with
      | answered answer =>
        cases hcalls
        cases ht
        refine hkeep (fun _ => rfl) _ ?_
        unfold afterDelivery
        split
        next => rfl
        next => split <;> rfl
      | ended o => cases ht
    | completionDelivered event completion =>
      cases w with
      | answered answer => cases answer <;> cases ht
      | ended o =>
        cases hcalls
        cases completion <;> cases ht <;> exact (wakes_await fun _ => rfl).woken
    | completionProjected event =>
      cases w with
      | answered answer =>
        cases hcalls
        cases ht
        exact (wakes_await fun _ => rfl).woken
      | ended o => cases ht
    | completionReconciled =>
      cases w with
      | answered answer =>
        cases hcalls
        cases ht
        exact (wakes_await fun _ => rfl).woken
      | ended o => cases ht
    | limitDelivered exhausted =>
      cases w with
      | answered answer => cases answer <;> cases ht
      | ended o =>
        cases hcalls
        cases exhausted
        · cases ht
          exact (processMessageQueue_wakes hcalm).woken
        · cases ht
          exact hkeep (fun _ => rfl) _ rfl
    | fatalSettled => exact hcalls.elim
    | fatalTerminated => exact hcalls.elim

/-- **No lost wake-up**, in runs in which no cancellation strands the queue: when no pump
is in flight, nothing is processing and nothing is fenced, nothing is pending. -/
theorem no_lost_wakeup {s₀ : QueueState} {p : QueuePool} (hfresh : Fresh s₀)
    (h : (queueMachine cfg).Reachable Unstranded (QueuePool.idle s₀) p) (hcalm : Calm p.shared)
    (hpumps : ∀ f ∈ p.frames, f.pumps = false)
    (hidle : ∀ m row, p.shared.db.message? m = some row → row.status ≠ .processing)
    (hunfenced : ∀ m row, p.shared.db.message? m = some row →
      row.stopConfirmationDeadline = none) :
    ∀ m row, p.shared.db.message? m = some row → row.status ≠ .pending := by
  have hinv : DispatchInv p.shared.issued p.shared p.frames ∧ Woken p.shared p.frames := by
    refine Machine.reachable_inv (fun s fs => DispatchInv s.issued s fs ∧ Woken s fs) ?_ ?_ ?_ h
    · rintro s fs gs hp ⟨hd, hw⟩
      refine ⟨hd.perm hp, ?_⟩
      intro hc hs
      obtain ⟨f, hf, hwake⟩ := hw hc hs
      exact ⟨f, hp.mem_iff.mp hf, hwake⟩
    · rintro s fs others e t ⟨hd, hw⟩ hok hfs ht
      exact ⟨hd.queueTurn hfs ht, queueTurn_woken hd hw hok hfs ht⟩
    · have hstart : (queueMachine cfg).Reachable Unstranded (QueuePool.idle s₀)
          (QueuePool.idle s₀) := .refl
      refine ⟨queue_dispatchInv hfresh hstart, ?_⟩
      intro _ hs
      obtain ⟨head, hnext⟩ := Option.ne_none_iff_exists'.mp hs.pending
      have hmem := Table.mem_of_get? (getNextPendingMessage_some hnext).1
      have hrows : (QueuePool.idle s₀).shared.db.messages.rows = [] := hfresh.messages
      rw [hrows] at hmem
      cases hmem
  refine getNextPendingMessage_none.mp ?_
  by_contra hpending
  obtain ⟨f, hf, hw⟩ := hinv.2 hcalm
    ⟨hpending, getProcessingMessage_none.mpr hidle, getMessageAwaitingStopConfirmation_none.mpr hunfenced⟩
  have hno := hpumps f hf
  rw [f.pumps_of_wakes hw] at hno
  cases hno

end Wakeup

/-! ## Runs -/

instance (s : QueueState) : Decidable (Calm s) :=
  decidable_of_iff
    (isSessionPromptable s.db.session.status = true ∧ s.db.session.budgetExhausted = false ∧
      s.mayDispatch = true ∧ ∃ socket ∈ s.openSockets, s.target = .dispatch socket)
    ⟨fun ⟨a, b, c, d⟩ => ⟨a, b, c, d⟩, fun ⟨a, b, c, d⟩ => ⟨a, b, c, d⟩⟩

instance (s : QueueState) (fs : List Frame) (m : MessageId) : Decidable (CancelStrands s fs m) :=
  decidable_of_iff
    (cancellable s.db m = true ∧
      s.db.messages.rows.any (fun r => r.id ≠ m && r.status = .pending) = true ∧
      getProcessingMessage s.db = none ∧ getMessageAwaitingStopConfirmation s.db = none ∧
      fs.all (fun f => !f.wakes fun k => k ≠ m && isPending s.db k) = true)
    ⟨fun ⟨a, b, c, d, e⟩ => ⟨a, b, c, d, e⟩, fun ⟨a, b, c, d, e⟩ => ⟨a, b, c, d, e⟩⟩

instance (s : QueueState) (e : Event Call Frame Answer Unit) : Decidable (Undisturbed s e) := by
  unfold Undisturbed
  repeat' split
  all_goals infer_instance

instance : ∀ s fs e, Decidable (Wakeful s fs e) :=
  fun s _ e => inferInstanceAs (Decidable (Calm s ∧ Undisturbed s e))

instance : ∀ s fs e, Decidable (Unstranded s fs e) :=
  fun s fs e => inferInstanceAs
    (Decidable (Wakeful s fs e ∧ ∀ m ∈ cancels e, ¬ CancelStrands s fs m))

/-- Two prompts are queued and one turn completes; the other is removed while it runs. -/
def cancelBehindRun : List (Act Call Answer) :=
  [.enter (.enqueuePrompt { messageId := 1, content := "a" }),
    .enter (.enqueuePrompt { messageId := 2, content := "b" }), .answer 0 .resolved,
    .answer 0 .resolved, .answer 0 (.authenticated none), .enter (.cancelQueuedPrompt 2),
    .answer 0 (.authenticated none),
    .enter (.executionComplete { messageId := 1, outcome := { success := true } }),
    .proceed 2, .answer 2 .resolved, .answer 2 .resolved, .answer 2 .resolved]

def cancelBehindPool : QueuePool :=
  ((queueMachine {}).run Unstranded (QueuePool.idle readySession) cancelBehindRun).getD
    (QueuePool.idle readySession)

theorem no_lost_wakeup_cancelBehind :
    getNextPendingMessage cancelBehindPool.shared.db = none := by
  have hrun : (queueMachine {}).run Unstranded (QueuePool.idle readySession) cancelBehindRun =
      some cancelBehindPool := by decide +kernel
  refine getNextPendingMessage_none.mpr ?_
  refine no_lost_wakeup readySession_fresh (Machine.run_reachable .refl hrun) ?_ ?_ ?_ ?_
  · decide +kernel
  · decide +kernel
  · exact getProcessingMessage_none.mp (by decide +kernel)
  · exact getMessageAwaitingStopConfirmation_none.mp (by decide +kernel)

/-- Both pumps pick the first prompt; it is removed; both give up. -/
def cancelledHeadRun : List (Act Call Answer) :=
  [.enter (.enqueuePrompt { messageId := 1, content := "a" }),
    .enter (.enqueuePrompt { messageId := 2, content := "b" }), .answer 0 .resolved,
    .answer 0 .resolved, .enter (.cancelQueuedPrompt 1), .answer 0 (.authenticated none),
    .answer 0 (.authenticated none), .answer 0 .resolved]

/-- The second prompt stays pending, with no pump in flight. -/
theorem cancelled_head_strands :
    ∃ p, (queueMachine {}).Reachable Wakeful (QueuePool.idle readySession) p ∧
      Calm p.shared ∧ p.tasks = [] ∧ getProcessingMessage p.shared.db = none ∧
      getMessageAwaitingStopConfirmation p.shared.db = none ∧
      p.shared.db.messageStatus? 2 = some .pending := by
  have hrun : ∃ p, (queueMachine {}).run Wakeful (QueuePool.idle readySession) cancelledHeadRun =
      some p ∧ Calm p.shared ∧ p.tasks = [] ∧ getProcessingMessage p.shared.db = none ∧
      getMessageAwaitingStopConfirmation p.shared.db = none ∧
      p.shared.db.messageStatus? 2 = some .pending := by
    refine ⟨((queueMachine {}).run Wakeful (QueuePool.idle readySession) cancelledHeadRun).getD
      (QueuePool.idle readySession), ?_⟩
    decide +kernel
  obtain ⟨p, hp, hrest⟩ := hrun
  exact ⟨p, Machine.run_reachable .refl hp, hrest⟩

end BackgroundAgents.Session

import BackgroundAgents.Session.MessageRepository

/-!
# Messages and timeline in step

The prompt's life is recorded twice: in its `messages` row, and in the two
timeline events that bear its id, `user_message:<id>` (it was dispatched) and
`execution_complete:<id>` (it ended). Six repository operations move both, each
guarded by the status it expects.

`CoherentAt db m` is what the two tables say of one message id, `Coherent` that
they say it of every id, also of those the table does not hold (never queued,
or cancelled). `applyOp_coherent` is the step lemma and
`runOps_coherent` the run; `applyOp_absorbing` says that an ended message is not
touched again, and `applyOp_unchanged` that an operation that answers
`false`/`null`, or throws, leaves the storage alone.
-/

namespace BackgroundAgents.Session

/-! ## The operations -/

/-- A call of the repository. -/
inductive MessageOp where
  | createMessageWithAttachments (data : CreateMessageData) (attachmentIds : List Nat)
  | admitAutofixMessage (data : AdmitAutofixMessageData)
  | cancelPendingMessage (m : MessageId)
  | startMessageProcessing (m : MessageId) (startedAt : Millis) (content : String)
  | updateMessageToPending (m : MessageId)
  | recordMessageCompletion (m : MessageId) (outcome : ExecutionOutcome)
      (completedAt : Millis) (expectedStatus : MessageStatus)

/-- How a call ended: it threw, it answered that nothing was done (`false`,
`null`, a duplicate or a rejection), or it did its work. -/
inductive OpAnswer where
  | threw
  | nothing
  | done
  deriving DecidableEq, Repr

/-- The calls the runtime makes: messages are created pending, and a completion
expects a pending or a processing message. -/
def MessageOp.Runtime : MessageOp → Prop
  | .createMessageWithAttachments d _ => d.status = .pending
  | .admitAutofixMessage d => d.message.status = .pending
  | .recordMessageCompletion _ _ _ expected => expected = .pending ∨ expected = .processing
  | _ => True

instance : DecidablePred MessageOp.Runtime
  | .createMessageWithAttachments d _ => inferInstanceAs (Decidable (d.status = .pending))
  | .admitAutofixMessage d => inferInstanceAs (Decidable (d.message.status = .pending))
  | .recordMessageCompletion _ _ _ expected =>
    inferInstanceAs (Decidable (expected = .pending ∨ expected = .processing))
  | .cancelPendingMessage _ | .startMessageProcessing _ _ _ | .updateMessageToPending _ =>
    .isTrue trivial

/-- A call, with its answer and the storage it leaves. A transaction that throws
rolls back. -/
def applyOp (db : SessionDb) : MessageOp → OpAnswer × SessionDb
  | .createMessageWithAttachments d ids =>
    match createMessageWithAttachments db d ids with
    | none => (.threw, db)
    | some db' => (.done, db')
  | .admitAutofixMessage d =>
    match admitAutofixMessage db d with
    | none => (.threw, db)
    | some (.enqueued _, db') => (.done, db')
    | some (_, db') => (.nothing, db')
  | .cancelPendingMessage m =>
    match cancelPendingMessage db m with
    | (true, db') => (.done, db')
    | (false, db') => (.nothing, db')
  | .startMessageProcessing m t content =>
    match startMessageProcessing db m t (.userMessage m content) with
    | none => (.threw, db)
    | some (true, db') => (.done, db')
    | some (false, db') => (.nothing, db')
  | .updateMessageToPending m => (.done, updateMessageToPending db m)
  | .recordMessageCompletion m o t expected =>
    match recordMessageCompletion db m o t expected with
    | (some _, db') => (.done, db')
    | (none, db') => (.nothing, db')

/-- A sequence of calls. -/
def runOps (db : SessionDb) (ops : List MessageOp) : SessionDb :=
  ops.foldl (fun db op => (applyOp db op).2) db

/-! ## Coherence -/

/-- How many events are stored under an id. -/
def SessionDb.eventCount (db : SessionDb) (id : EventId) : Nat :=
  db.events.count fun e => e.id = id

/-- No attachment is claimed by `m`. -/
def Unreferenced (db : SessionDb) (m : MessageId) : Prop :=
  ∀ a row, db.attachments.get? a = some row → row.messageId ≠ some m

/-- What the row of `m`, its two events and its attachments say together. -/
def CoherentAt (db : SessionDb) (m : MessageId) : Prop :=
  match db.message? m with
  | none =>
    db.eventCount (.userMessage m) = 0 ∧ db.eventCount (.executionComplete m) = 0 ∧
      Unreferenced db m
  | some row =>
    match row.status with
    | .pending =>
      row.startedAt = none ∧ db.eventCount (.userMessage m) = 0 ∧
        db.eventCount (.executionComplete m) = 0
    | .processing =>
      row.startedAt.isSome ∧ db.eventCount (.userMessage m) = 1 ∧
        db.eventCount (.executionComplete m) = 0
    | .completed | .failed =>
      row.completedAt.isSome ∧ db.eventCount (.executionComplete m) = 1 ∧
        (∃ e error, db.event? (.executionComplete m) = some e ∧
          e.data = .executionComplete m (row.status = .completed) error) ∧
        (db.eventCount (.userMessage m) = 1 ↔ row.startedAt.isSome)

def Coherent (db : SessionDb) : Prop :=
  ∀ m, CoherentAt db m

/-- A session whose queue was never used: no message, none of the two kinds of
events, and attachments only uploaded. -/
structure NeverQueued (db : SessionDb) : Prop where
  messages : ∀ m, db.message? m = none
  userMessage : ∀ m, db.event? (.userMessage m) = none
  executionComplete : ∀ m, db.event? (.executionComplete m) = none
  attachments : ∀ m, Unreferenced db m

/-- An ended message keeps its status, its end and its error. -/
def Absorbing (db db' : SessionDb) : Prop :=
  ∀ m row, db.message? m = some row → row.status.terminal = true →
    ∃ row', db'.message? m = some row' ∧ row'.status = row.status ∧
      row'.completedAt = row.completedAt ∧ row'.errorMessage = row.errorMessage

theorem eventCount_eq (db : SessionDb) (id : EventId) :
    db.eventCount id = if (db.event? id).isSome then 1 else 0 := by
  unfold SessionDb.eventCount SessionDb.event?
  cases h : db.events.get? id with
  | none =>
    rw [Option.isSome_none, if_neg nofun, Table.count_eq_zero]
    intro k e he
    rw [Table.get?_eq_none] at h
    simpa using h e (Table.mem_of_get? he)
  | some e => simpa using Table.count_key h fun _ => true

variable {db : SessionDb}

@[simp] theorem eventCount_eq_zero {id : EventId} :
    db.eventCount id = 0 ↔ db.event? id = none := by
  rw [eventCount_eq]
  cases db.event? id <;> simp

@[simp] theorem eventCount_eq_one {id : EventId} :
    db.eventCount id = 1 ↔ (db.event? id).isSome := by
  rw [eventCount_eq]
  cases db.event? id <;> simp

theorem neverQueued_coherent (h : NeverQueued db) : Coherent db := by
  intro m
  simp only [CoherentAt, h.messages m, eventCount_eq_zero]
  exact ⟨h.userMessage m, h.executionComplete m, h.attachments m⟩

variable {m : MessageId}

variable {db db' : SessionDb}

/-- Coherence at `m` looks only at its row, its two events and its attachments. -/
theorem CoherentAt.congr (hrow : db'.message? m = db.message? m)
    (huser : db'.event? (.userMessage m) = db.event? (.userMessage m))
    (hdone : db'.event? (.executionComplete m) = db.event? (.executionComplete m))
    (hatt : Unreferenced db m → Unreferenced db' m) (h : CoherentAt db m) :
    CoherentAt db' m := by
  unfold CoherentAt at h ⊢
  rw [hrow]
  cases hr : db.message? m with
  | none =>
    simp only [hr, eventCount_eq_zero] at h ⊢
    exact ⟨huser ▸ h.1, hdone ▸ h.2.1, hatt h.2.2⟩
  | some row =>
    simp only [hr] at h ⊢
    cases hs : row.status <;>
      simp only [hs, eventCount_eq_zero, eventCount_eq_one, huser, hdone] at h ⊢ <;> exact h

/-! ## The step lemmas -/

/-- A new message: a pending row, no event, and whatever it attached. -/
theorem insert_coherent {d : CreateMessageData}
    (hpending : d.status = .pending) (hnone : db.message? d.id = none)
    (hrow : ∀ k, db'.message? k =
      if d.id = k then some (d.row (nextRowid db.messages)) else db.message? k)
    (hev : db'.events = db.events)
    (hatt : ∀ a row, db'.attachments.get? a = some row →
      row.messageId = some d.id ∨ db.attachments.get? a = some row)
    (h : Coherent db) : Coherent db' := by
  have hevent : db'.event? = db.event? := by
    funext id
    rw [SessionDb.event?, SessionDb.event?, hev]
  intro m
  by_cases hm : d.id = m
  · subst hm
    have hd := h d.id
    simp only [CoherentAt, hnone, eventCount_eq_zero] at hd
    simp only [CoherentAt, hrow, if_true, CreateMessageData.row, hpending, eventCount_eq_zero,
      hevent]
    exact ⟨trivial, hd.1, hd.2.1⟩
  · refine (h m).congr (by rw [hrow, if_neg hm]) (by rw [hevent]) (by rw [hevent]) ?_
    intro hun a row hget hmine
    rcases hatt a row hget with hnew | hold
    · rw [hnew] at hmine
      cases hmine
      exact hm rfl
    · exact hun a row hold hmine

/-- Coherence away from the message a transaction moves, when it leaves the
attachments alone and touches only that message's events. -/
theorem coherentAt_other {m k : MessageId} {row' : MessageRow} (hk : k ≠ m)
    (hatt : db'.attachments = db.attachments)
    (hrow : ∀ k, db'.message? k = if k = m then some row' else db.message? k)
    (hev : ∀ id, id ≠ .userMessage m → id ≠ .executionComplete m → db'.event? id = db.event? id)
    (h : Coherent db) : CoherentAt db' k := by
  refine (h k).congr (by rw [hrow, if_neg hk]) (hev _ ?_ nofun) (hev _ nofun ?_) ?_
  · simpa using hk
  · simpa using hk
  · intro hun a row hget
    rw [hatt] at hget
    exact hun a row hget

theorem cancelPendingMessage_coherent (h : Coherent db) :
    Coherent (cancelPendingMessage db m).2 := by
  rcases cancelPendingMessage_cases db m with he | ⟨row, db', he, hrow, hpending, -, -, hdb, hmsg,
    hatt⟩
  · rw [he]
    exact h
  · rw [he]
    have hevent : db'.event? = db.event? := by
      funext id
      rw [hdb]
      rfl
    intro k
    by_cases hk : k = m
    · subst hk
      have hd := h k
      simp only [CoherentAt, hrow, hpending, eventCount_eq_zero] at hd
      simp only [CoherentAt, hmsg, if_true, eventCount_eq_zero, hevent]
      refine ⟨hd.2.1, hd.2.2, ?_⟩
      intro a x hget
      rw [hatt] at hget
      exact (releaseForMessage_attachments db k hget).1
    · refine (h k).congr (by rw [hmsg, if_neg hk]) (by rw [hevent]) (by rw [hevent]) ?_
      intro hun a x hget hmine
      rw [hatt] at hget
      rcases (releaseForMessage_attachments db m hget).2 with hfree | hold
      · rw [hfree] at hmine
        cases hmine
      · exact hun a x hold hmine

theorem startMessageProcessing_coherent {t : Millis} {ev : EventData} {claimed : Bool}
    (hs : startMessageProcessing db m t ev = some (claimed, db')) (h : Coherent db) :
    Coherent db' := by
  rcases startMessageProcessing_some hs with ⟨-, rfl, -⟩ | ⟨row, -, hrow, hpending, -, hdb, hmsg,
    -, e, -, hev⟩
  · exact h
  · have hatt : db'.attachments = db.attachments := by rw [hdb]
    intro k
    by_cases hk : k = m
    · subst hk
      have hd := h k
      simp only [CoherentAt, hrow, hpending, eventCount_eq_zero] at hd
      simp only [CoherentAt, hmsg, if_true, MessageRow.claim, eventCount_eq_zero,
        eventCount_eq_one, hev]
      exact ⟨rfl, rfl, by simpa using hd.2.2⟩
    · refine coherentAt_other hk hatt hmsg ?_ h
      intro id hid _
      rw [hev, if_neg (Ne.symm hid)]

theorem updateMessageToPending_coherent (h : Coherent db) :
    Coherent (updateMessageToPending db m) := by
  rcases updateMessageToPending_cases db m with ⟨he, -⟩ | ⟨row, db', he, hrow, hprocessing, hdb,
    hmsg, hev⟩
  · rw [he]
    exact h
  · rw [he]
    have hatt : db'.attachments = db.attachments := by rw [hdb]
    intro k
    by_cases hk : k = m
    · subst hk
      have hd := h k
      simp only [CoherentAt, hrow, hprocessing, eventCount_eq_zero] at hd
      simp only [CoherentAt, hmsg, if_true, MessageRow.revert, eventCount_eq_zero, hev]
      exact ⟨trivial, trivial, by simpa using hd.2.2⟩
    · refine coherentAt_other hk hatt hmsg ?_ h
      intro id hid _
      rw [hev, if_neg hid]

theorem recordMessageCompletion_coherent {o : ExecutionOutcome} {t : Millis}
    {expected : MessageStatus} (hexpected : expected = .pending ∨ expected = .processing)
    (h : Coherent db) :
    Coherent (recordMessageCompletion db m o t expected).2 := by
  rcases recordMessageCompletion_cases db m o t expected with ⟨he, -⟩ | ⟨row, db', he, hrow,
    hstatus, hdb, hmsg, e, hdata, hev⟩
  · rw [he]
    exact h
  · rw [he]
    have hatt : db'.attachments = db.attachments := by rw [hdb]
    intro k
    by_cases hk : k = m
    · subst hk
      -- the two statuses a completion may end differ only in whether the turn started
      have hstarted : (db.event? (.userMessage k)).isSome = row.startedAt.isSome := by
        have hd := h k
        unfold CoherentAt at hd
        rw [hrow] at hd
        rcases hexpected with he' | he'
        · simp only [hstatus.trans he', eventCount_eq_zero] at hd
          rw [hd.1, hd.2.1]
          rfl
        · simp only [hstatus.trans he', eventCount_eq_one] at hd
          rw [hd.1, hd.2.1]
      have huser : db'.event? (.userMessage k) = db.event? (.userMessage k) := by
        rw [hev, if_neg nofun]
      have hdone : db'.event? (.executionComplete k) = some e := by
        rw [hev, if_pos rfl]
      unfold CoherentAt
      rw [hmsg, if_pos rfl]
      cases hsucc : o.success with
      | true =>
        simp only [MessageRow.finish, ExecutionOutcome.status, hsucc, if_true, eventCount_eq_one,
          huser, hdone, hstarted]
        exact ⟨rfl, rfl, ⟨e, o.error, rfl, by rw [hdata, hsucc]; rfl⟩, trivial⟩
      | false =>
        simp only [MessageRow.finish, ExecutionOutcome.status, hsucc, Bool.false_eq_true, if_false,
          eventCount_eq_one, huser, hdone, hstarted]
        exact ⟨rfl, rfl, ⟨e, o.error, rfl, by rw [hdata, hsucc]; rfl⟩, trivial⟩
    · refine coherentAt_other hk hatt hmsg ?_ h
      intro id _ hid
      rw [hev, if_neg (Ne.symm hid)]

/-- Each call the runtime makes keeps the two tables coherent. -/
theorem applyOp_coherent {op : MessageOp} (hop : op.Runtime) (h : Coherent db) :
    Coherent (applyOp db op).2 := by
  cases op with
  | createMessageWithAttachments d ids =>
    simp only [applyOp]
    split
    next => exact h
    next db' hc =>
      obtain ⟨hdb, hnone, hrow, hatt⟩ := createMessageWithAttachments_some hc
      exact insert_coherent hop hnone hrow (by rw [hdb]) hatt h
  | admitAutofixMessage d =>
    have hkeep : ∀ a db', admitAutofixMessage db d = some (a, db') → Coherent db' := by
      intro a db' hc
      rcases admitAutofixMessage_some hc with ⟨rfl, -⟩ | ⟨-, hcreate⟩
      · exact h
      · obtain ⟨hdb, hnone, hrow⟩ := createMessage_some hcreate
        refine insert_coherent (d := d.create) hop hnone hrow (by rw [hdb]) ?_ h
        intro a row hget
        rw [hdb] at hget
        exact .inr hget
    simp only [applyOp]
    split
    next => exact h
    next hc => exact hkeep _ _ hc
    next hc => exact hkeep _ _ hc
  | cancelPendingMessage m =>
    have hkeep := cancelPendingMessage_coherent (m := m) h
    simp only [applyOp]
    split <;> next hc => rw [hc] at hkeep; exact hkeep
  | startMessageProcessing m t content =>
    simp only [applyOp]
    split
    next => exact h
    next hc => exact startMessageProcessing_coherent hc h
    next hc => exact startMessageProcessing_coherent hc h
  | updateMessageToPending m => exact updateMessageToPending_coherent h
  | recordMessageCompletion m o t expected =>
    have hkeep := recordMessageCompletion_coherent (m := m) (o := o) (t := t) hop h
    simp only [applyOp]
    split <;> next hc => rw [hc] at hkeep; exact hkeep

/-- A call that throws, or answers that nothing was done, did nothing. -/
theorem applyOp_unchanged {op : MessageOp} (h : (applyOp db op).1 ≠ .done) :
    (applyOp db op).2 = db := by
  cases op with
  | createMessageWithAttachments d ids =>
    simp only [applyOp] at h ⊢
    split
    next => rfl
    next hc => simp [hc] at h
  | admitAutofixMessage d =>
    simp only [applyOp] at h ⊢
    split
    next => rfl
    next hc => simp [hc] at h
    next a db' hne hc =>
      rcases admitAutofixMessage_some hc with ⟨rfl, -⟩ | ⟨rfl, -⟩
      · rfl
      · exact absurd rfl (hne _)
  | cancelPendingMessage m =>
    rcases cancelPendingMessage_cases db m with he | ⟨row, db', he, -⟩
    · simp only [applyOp, he]
    · simp [applyOp, he] at h
  | startMessageProcessing m t content =>
    simp only [applyOp] at h ⊢
    split
    next => rfl
    next hc => simp [hc] at h
    next hc =>
      rcases startMessageProcessing_some hc with ⟨-, hdb, -⟩ | ⟨_, hfalse, -⟩
      · exact hdb
      · cases hfalse
  | updateMessageToPending m => exact absurd rfl h
  | recordMessageCompletion m o t expected =>
    rcases recordMessageCompletion_cases db m o t expected with ⟨he, -⟩ | ⟨row, db', he, -⟩
    · simp only [applyOp, he]
    · simp [applyOp, he] at h

/-- Rows other than that of `m` are kept, and that of `m` only if it had not ended. -/
theorem absorbing_of_touches (hother : ∀ k, k ≠ m → db'.message? k = db.message? k)
    (hopen : ∀ row, db.message? m = some row → row.status.terminal = false) :
    Absorbing db db' := by
  intro k row hrow hended
  by_cases hk : k = m
  · subst hk
    rw [hopen row hrow] at hended
    cases hended
  · exact ⟨row, by rw [hother k hk]; exact hrow, rfl, rfl, rfl⟩

theorem absorbing_refl (db : SessionDb) : Absorbing db db :=
  fun _ row hrow _ => ⟨row, hrow, rfl, rfl, rfl⟩

/-- No call moves a message that has ended. -/
theorem applyOp_absorbing {op : MessageOp} (hop : op.Runtime) :
    Absorbing db (applyOp db op).2 := by
  have hinsert : ∀ (db' : SessionDb) (d : CreateMessageData), db.message? d.id = none →
      (∀ k, db'.message? k =
        if d.id = k then some (d.row (nextRowid db.messages)) else db.message? k) →
      Absorbing db db' := by
    intro db' d hnone hrow
    refine absorbing_of_touches (m := d.id) ?_ ?_
    · intro k hk
      rw [hrow, if_neg (Ne.symm hk)]
    · intro row hget
      rw [hnone] at hget
      cases hget
  have hmoved : ∀ (db' : SessionDb) (m : MessageId) (row : MessageRow) (new : Option MessageRow),
      db.message? m = some row → row.status.terminal = false →
      (∀ k, db'.message? k = if k = m then new else db.message? k) → Absorbing db db' := by
    intro db' m row new hget hopen hrow
    refine absorbing_of_touches (m := m) ?_ ?_
    · intro k hk
      rw [hrow, if_neg hk]
    · intro x hx
      rw [hget] at hx
      cases hx
      exact hopen
  by_cases hdone : (applyOp db op).1 = .done
  swap
  · rw [applyOp_unchanged hdone]
    exact absorbing_refl db
  cases op with
  | createMessageWithAttachments d ids =>
    simp only [applyOp]
    split
    next => exact absorbing_refl db
    next db' hc =>
      obtain ⟨-, hnone, hrow, -⟩ := createMessageWithAttachments_some hc
      exact hinsert db' d hnone hrow
  | admitAutofixMessage d =>
    have hkeep : ∀ a db', admitAutofixMessage db d = some (a, db') → Absorbing db db' := by
      intro a db' hc
      rcases admitAutofixMessage_some hc with ⟨rfl, -⟩ | ⟨-, hcreate⟩
      · exact absorbing_refl _
      · obtain ⟨-, hnone, hrow⟩ := createMessage_some hcreate
        exact hinsert db' d.create hnone hrow
    simp only [applyOp]
    split
    next => exact absorbing_refl db
    next hc => exact hkeep _ _ hc
    next hc => exact hkeep _ _ hc
  | cancelPendingMessage m =>
    rcases cancelPendingMessage_cases db m with he | ⟨row, db', he, hrow, hpending, -, -, -, hmsg, -⟩
    · simp only [applyOp, he]
      exact absorbing_refl db
    · simp only [applyOp, he]
      exact hmoved db' m row none hrow (by rw [hpending]; rfl) hmsg
  | startMessageProcessing m t content =>
    have hkeep : ∀ c db', startMessageProcessing db m t (.userMessage m content) = some (c, db') →
        Absorbing db db' := by
      intro c db' hc
      rcases startMessageProcessing_some hc with ⟨-, rfl, -⟩ | ⟨row, -, hrow, hpending, -, -, hmsg, -⟩
      · exact absorbing_refl _
      · exact hmoved db' m row _ hrow (by rw [hpending]; rfl) hmsg
    simp only [applyOp]
    split
    next => exact absorbing_refl db
    next hc => exact hkeep _ _ hc
    next hc => exact hkeep _ _ hc
  | updateMessageToPending m =>
    simp only [applyOp]
    rcases updateMessageToPending_cases db m with ⟨he, -⟩ | ⟨row, db', he, hrow, hprocessing, -, hmsg, -⟩
    · rw [he]
      exact absorbing_refl db
    · rw [he]
      exact hmoved db' m row _ hrow (by rw [hprocessing]; rfl) hmsg
  | recordMessageCompletion m o t expected =>
    rcases recordMessageCompletion_cases db m o t expected with ⟨he, -⟩ | ⟨row, db', he, hrow, hstatus,
      -, hmsg, -⟩
    · simp only [applyOp, he]
      exact absorbing_refl db
    · simp only [applyOp, he]
      refine hmoved db' m row _ hrow ?_ hmsg
      rcases hop with he' | he' <;> rw [hstatus, he'] <;> rfl

/-! ## Runs -/

theorem runOps_coherent (h : Coherent db) {ops : List MessageOp} (hops : ∀ op ∈ ops, op.Runtime) :
    Coherent (runOps db ops) := by
  induction ops generalizing db with
  | nil => exact h
  | cons op ops ih =>
    have hop := hops op List.mem_cons_self
    exact ih (applyOp_coherent hop h) fun o ho => hops o (List.mem_cons_of_mem _ ho)

/-- **Messages and timeline in step.** After any sequence of repository calls, from a
session whose queue was never used: the two tables are coherent, and whatever is
called next leaves ended messages as they are, and everything as it is when it throws
or answers that nothing was done. -/
theorem messages_and_timeline_coherent {db : SessionDb} (h : NeverQueued db)
    {ops : List MessageOp} (hops : ∀ op ∈ ops, op.Runtime) :
    Coherent (runOps db ops) ∧
      ∀ op : MessageOp, op.Runtime →
        Absorbing (runOps db ops) (applyOp (runOps db ops) op).2 ∧
          ((applyOp (runOps db ops) op).1 ≠ .done →
            (applyOp (runOps db ops) op).2 = runOps db ops) :=
  ⟨runOps_coherent (neverQueued_coherent h) hops,
    fun _ hop => ⟨applyOp_absorbing hop, applyOp_unchanged⟩⟩

/-- A session with one uploaded file. -/
def uploadedDb : SessionDb :=
  { SessionDb.fresh {} with attachments := { rows := [{ id := 7 }], nodup := by decide } }

theorem uploadedDb_neverQueued : NeverQueued uploadedDb where
  messages _ := rfl
  userMessage _ := rfl
  executionComplete _ := rfl
  attachments m a row hrow hm := by
    have hmem : row ∈ [({ id := 7 } : AttachmentRow)] := Table.mem_of_get? hrow
    rw [List.mem_singleton] at hmem
    rw [hmem] at hm
    cases hm

/-- A prompt is cancelled; the next takes over its file, is claimed, given back, claimed
again and completed. -/
def cancelledThenCompleted : List MessageOp :=
  [.createMessageWithAttachments { id := 1, content := "a", source := .web, createdAt := 10 } [7],
    .cancelPendingMessage 1,
    .createMessageWithAttachments { id := 2, content := "b", source := .web, createdAt := 11 } [7],
    .startMessageProcessing 2 12 "b",
    .updateMessageToPending 2,
    .startMessageProcessing 2 13 "b",
    .recordMessageCompletion 2 { success := true } 14 .processing]

theorem cancelledThenCompleted_coherent :
    Coherent (runOps uploadedDb cancelledThenCompleted) ∧
      (runOps uploadedDb cancelledThenCompleted).messageStatus? 1 = none ∧
      (runOps uploadedDb cancelledThenCompleted).messageStatus? 2 = some .completed := by
  have hops : ∀ op ∈ cancelledThenCompleted, op.Runtime := by decide
  exact ⟨(messages_and_timeline_coherent uploadedDb_neverQueued hops).1, by decide, by decide⟩

end BackgroundAgents.Session

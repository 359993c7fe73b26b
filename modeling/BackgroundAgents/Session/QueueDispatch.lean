import BackgroundAgents.Session.QueueTurns

/-!
# Claims and sends of the prompt queue

Any number of pumps, suspended anywhere, next to enqueues, cancellations, stops,
budget exhaustion, completions and fatal failures. Two results about every run:

* `dispatch_safe`: at most one message is processing and at most one is fenced,
  and what is claimed is the head of an unfenced queue within its budget;
* `dispatch_exactly_once`: a claim is held by one suspended pump, or it was sent
  once, or it was given up once, and never two of these; what is sent is still
  processing under that claim, on the socket that is the dispatch target.

`DispatchInv` is the invariant behind both. It is kept by each *move*: a
transaction of the life of the messages, a claim, a send, a claim given back, a
claim found already over. A turn of the code is a few moves (`sendPrompt` is one
of them only), so the last section only has to say which.

What lets a pump tell its own claim by the status alone is the accounting: a
claim is made once (`once`), so two pumps cannot both hold it, and while a pump
holds it the row keeps its `mcp_revision` (`held`).
-/

namespace BackgroundAgents.Session

open BackgroundAgents.Coroutine

/-! ## The account of a claim -/

/-- The transaction is the claim `revision` of `m`. -/
def Effect.claims (m : MessageId) (revision : Nat) : Effect → Bool
  | .wrote before after =>
    before.messageStatus? m = some .pending && after.messageStatus? m = some .processing &&
      (after.message? m).map MessageRow.mcpRevision = some revision
  | _ => false

/-- The prompt command of the claim `revision` of `m`. -/
def Effect.sends (m : MessageId) (revision : Nat) : Effect → Bool
  | .sentPrompt command r _ _ _ => command.messageId = m && r = revision
  | _ => false

/-- A pump ends the claim `revision` of `m` without a send. -/
def Effect.givesUp (m : MessageId) (revision : Nat) : Effect → Bool
  | .unsent k r _ => k = m && r = revision
  | _ => false

/-- A pump that has claimed and not yet sent. -/
def Frame.holds (m : MessageId) (revision : Nat) : Frame → Bool
  | .managedMcp message _ _ r => message.id = m && r = revision
  | _ => false

section Account

variable (m k : MessageId) (r r' : Nat)

@[simp] theorem sends_wrote (before after : SessionDb) :
    Effect.sends m r (.wrote before after) = false := rfl

@[simp] theorem sends_sentPrompt (command : PromptCommand) (socket : SocketId)
    (target : CommandTarget) (db : SessionDb) :
    Effect.sends m r (.sentPrompt command r' socket target db) =
      (command.messageId = m && r' = r) := rfl

@[simp] theorem sends_unsent (db : SessionDb) : Effect.sends m r (.unsent k r' db) = false := rfl

@[simp] theorem sends_sentStop (socket : SocketId) :
    Effect.sends m r (.sentStop socket) = false := rfl

@[simp] theorem givesUp_wrote (before after : SessionDb) :
    Effect.givesUp m r (.wrote before after) = false := rfl

@[simp] theorem givesUp_sentPrompt (command : PromptCommand) (socket : SocketId)
    (target : CommandTarget) (db : SessionDb) :
    Effect.givesUp m r (.sentPrompt command r' socket target db) = false := rfl

@[simp] theorem givesUp_unsent (db : SessionDb) :
    Effect.givesUp m r (.unsent k r' db) = (k = m && r' = r) := rfl

@[simp] theorem givesUp_sentStop (socket : SocketId) :
    Effect.givesUp m r (.sentStop socket) = false := rfl

@[simp] theorem claims_unsent (db : SessionDb) :
    Effect.claims m r (.unsent k r' db) = false := rfl

@[simp] theorem claims_sentStop (socket : SocketId) :
    Effect.claims m r (.sentStop socket) = false := rfl

@[simp] theorem holds_managedMcp (message : MessageRow) (t : Millis) (socket : SocketId) :
    Frame.holds m r (.managedMcp message t socket r') = (message.id = m && r' = r) := rfl

@[simp] theorem holds_providerAuth (message : MessageRow) (t : Millis) :
    Frame.holds m r (.providerAuth message t) = false := rfl

end Account

/-- `m` is completed or failed. -/
def Ended (q : MessageMap) (m : MessageId) : Prop :=
  ∃ row, q m = some row ∧ row.status.terminal = true

/-- What holds of an effect that comes after the effects `earlier`. -/
def Effect.Sound (earlier : List Effect) : Effect → Prop
  | .wrote before after => ∀ m row row', before.message? m = some row →
      row.status = .pending → after.message? m = some row' → row'.status = .processing →
      Head before.message? row ∧ before.session.budgetExhausted = false
  | .sentPrompt command r socket target db =>
      target = .dispatch socket ∧
      (∃ row, db.message? command.messageId = some row ∧ row.status = .processing ∧
        row.mcpRevision = r) ∧
      ∀ before after, .wrote before after ∈ earlier → ¬ Ended after.message? command.messageId
  | .unsent m _ db =>
      (∃ row, db.message? m = some row ∧ row.status = .pending) ∧
          db.event? (.userMessage m) = none ∨
        Ended db.message? m
  | .sentStop _ => True

/-- Every effect is sound after those before it. -/
def SoundLog (log : List Effect) : Prop :=
  ∀ earlier e later, log = earlier ++ e :: later → e.Sound earlier

theorem SoundLog.nil : SoundLog [] := by
  intro earlier e later h
  simp at h

theorem SoundLog.append_one {log : List Effect} {e : Effect} (h : SoundLog log)
    (he : e.Sound log) : SoundLog (log ++ [e]) := by
  intro earlier x later hsplit
  rcases List.eq_nil_or_concat later with rfl | ⟨rest, y, rfl⟩
  · obtain ⟨rfl, hx⟩ := List.append_inj' hsplit rfl
    cases hx
    exact he
  · have hsplit' : log ++ [e] = (earlier ++ x :: rest) ++ [y] := by
      rw [hsplit]
      simp
    exact h earlier x rest (List.append_inj' hsplit' rfl).1

/-! ## The invariant -/

/-- What holds of the state and the suspended pumps. Every message that a frame or the
log speaks of is among `ids`. -/
structure DispatchInv (ids : List MessageId) (s : QueueState) (fs : List Frame) : Prop where
  queue : QueueInv s.now s.issued s.db.message?
  picked : ∀ message t, Frame.providerAuth message t ∈ fs →
    message.id ∈ ids ∧ Picked s.db.message? message.id
  held : ∀ message t socket r, Frame.managedMcp message t socket r ∈ fs →
    ∃ row, s.db.message? message.id = some row ∧ row.mcpRevision = r ∧ row.status ≠ .pending
  accounted : ∀ m r, fs.countP (·.holds m r) + s.log.countP (·.sends m r) +
    s.log.countP (·.givesUp m r) = s.log.countP (·.claims m r)
  once : ∀ m r, s.log.countP (·.claims m r) ≤ 1
  known : ∀ m r, 0 < s.log.countP (·.claims m r) →
    m ∈ ids ∧ ∀ row, s.db.message? m = some row → r ≤ row.mcpRevision
  announced : ∀ m, s.db.event? (.userMessage m) ≠ none →
    m ∈ ids ∧ ∀ row, s.db.message? m = some row → row.status ≠ .pending
  ended : ∀ before after m, .wrote before after ∈ s.log → Ended after.message? m →
    Ended s.db.message? m
  log : SoundLog s.log

section Moves

variable {ids : List MessageId} {new : Option MessageId} {s s' : QueueState} {fs gs : List Frame}

theorem DispatchInv.mono {ids' : List MessageId} (h : DispatchInv ids s fs) (hids : ids ⊆ ids') :
    DispatchInv ids' s fs :=
  { h with
    picked := fun message t hf => ⟨hids (h.picked message t hf).1, (h.picked message t hf).2⟩
    known := fun m r hr => ⟨hids (h.known m r hr).1, (h.known m r hr).2⟩
    announced := fun m hm => ⟨hids (h.announced m hm).1, (h.announced m hm).2⟩ }

theorem DispatchInv.perm (h : DispatchInv ids s fs) (hp : fs.Perm gs) : DispatchInv ids s gs :=
  { h with
    picked := fun message t hf => h.picked message t (hp.mem_iff.mpr hf)
    held := fun message t socket r hf => h.held message t socket r (hp.mem_iff.mpr hf)
    accounted := by
      intro m r
      rw [← hp.countP_eq]
      exact h.accounted m r }

/-- A frame that holds no claim may go. -/
theorem DispatchInv.drop {f : Frame} (h : DispatchInv ids s (f :: fs))
    (hf : ∀ m r, f.holds m r = false) : DispatchInv ids s fs :=
  { h with
    picked := fun message t hm => h.picked message t (List.mem_cons_of_mem _ hm)
    held := fun message t socket r hm => h.held message t socket r (List.mem_cons_of_mem _ hm)
    accounted := by
      intro m r
      have hacc := h.accounted m r
      rw [List.countP_cons_of_neg (by simp [hf m r])] at hacc
      exact hacc }

theorem Frame.Fresh.holds {f : Frame} (hf : f.Fresh s) (m : MessageId) (r : Nat) :
    f.holds m r = false := by
  cases f with
  | managedMcp => exact hf.elim
  | _ => rfl

/-- A frame that is left behind may come. -/
theorem DispatchInv.add {f : Frame} (h : DispatchInv ids s fs) (hids : s.issued ⊆ ids)
    (hf : f.Fresh s) : DispatchInv ids s (f :: fs) where
  queue := h.queue
  picked message t hm := by
    rcases List.mem_cons.mp hm with rfl | hm
    · obtain ⟨hrow, hhead⟩ := hf
      refine ⟨hids (h.queue.issued _ _ hrow), ?_⟩
      intro row hrow' _
      rw [hrow] at hrow'
      cases hrow'
      exact hhead
    · exact h.picked message t hm
  held message t socket r hm := by
    rcases List.mem_cons.mp hm with rfl | hm
    · exact hf.elim
    · exact h.held message t socket r hm
  accounted m r := by
    rw [List.countP_cons_of_neg (by simp [hf.holds m r])]
    exact h.accounted m r
  once := h.once
  known := h.known
  announced := h.announced
  ended := h.ended
  log := h.log

theorem DispatchInv.add_all (h : DispatchInv ids s fs) (hids : s.issued ⊆ ids)
    (hgs : ∀ f ∈ gs, f.Fresh s) : DispatchInv ids s (gs ++ fs) := by
  induction gs with
  | nil => exact h
  | cons f gs ih =>
    exact .add (ih fun g hg => hgs g (List.mem_cons_of_mem _ hg)) hids
      (hgs f List.mem_cons_self)

/-! ### Moves of the life of the messages -/

theorem LifeSteps.ended {now : Millis} {q q' : MessageMap} {m : MessageId}
    (h : LifeSteps now new q q') (he : Ended q m) : Ended q' m := by
  obtain ⟨row, hrow, hterminal⟩ := he
  obtain ⟨row', hrow', -, hstatus⟩ := h.begun hrow (fun hp => by rw [hp] at hterminal; cases hterminal)
  refine ⟨row', hrow', ?_⟩
  rcases hstatus with hsame | hterminal'
  · rw [hsame]
    exact hterminal
  · exact hterminal'

/-- A transaction of the life of the messages claims nothing. -/
theorem life_claims_nothing {now : Millis} {db db' : SessionDb}
    (h : LifeSteps now new db.message? db'.message?) {m : MessageId} {row row' : MessageRow}
    (hrow : db.message? m = some row) (hpending : row.status = .pending)
    (hrow' : db'.message? m = some row') : row'.status ≠ .processing := by
  intro hprocessing
  obtain ⟨x, hx, hp, -⟩ := h.processing hrow' hprocessing
  rw [hrow] at hx
  cases hx
  rw [hpending] at hp
  cases hp

theorem DispatchInv.commit (h : DispatchInv ids s fs)
    (hnew : ∀ m, new = some m → m ∈ s.issued ∧ m ∉ ids) {db : SessionDb}
    (hlived : Lived s.now new s.db db) : DispatchInv ids (s.commit db) fs := by
  have hlife := hlived.steps
  have hother : ∀ m, m ∈ ids → new ≠ some m := fun m hm he => (hnew m he).2 hm
  have hunclaimed : ∀ m r, Effect.claims m r (.wrote s.db db) = false := by
    intro m r
    rw [Bool.eq_false_iff]
    intro hc
    simp only [Effect.claims, Bool.and_eq_true, decide_eq_true_eq, messageStatus?_eq_some] at hc
    obtain ⟨⟨⟨row, hrow, hpending⟩, row', hrow', hprocessing⟩, -⟩ := hc
    exact life_claims_nothing hlife hrow hpending hrow' hprocessing
  have hcount : ∀ m r, (s.commit db).log.countP (·.claims m r) = s.log.countP (·.claims m r) := by
    intro m r
    simp [QueueState.commit, hunclaimed]
  refine ⟨hlife.inv (fun m hm => (hnew m hm).1) h.queue, ?_, ?_, ?_, ?_, ?_, ?_, ?_, ?_⟩
  · intro message t hf
    obtain ⟨hid, hpicked⟩ := h.picked message t hf
    exact ⟨hid, hlife.picked (fun m hm => (hnew m hm).1) h.queue (hother _ hid) hpicked⟩
  · intro message t socket r hf
    obtain ⟨row, hrow, hrev, hstatus⟩ := h.held message t socket r hf
    obtain ⟨row', hrow', hrev', hstatus'⟩ := hlife.begun hrow hstatus
    refine ⟨row', hrow', hrev'.trans hrev, ?_⟩
    rcases hstatus' with hsame | hterminal
    · rw [hsame]
      exact hstatus
    · intro hp
      rw [hp] at hterminal
      cases hterminal
  · intro m r
    rw [hcount]
    simpa [QueueState.commit] using h.accounted m r
  · intro m r
    rw [hcount]
    exact h.once m r
  · intro m r hpos
    rw [hcount] at hpos
    obtain ⟨hid, hle⟩ := h.known m r hpos
    refine ⟨hid, ?_⟩
    intro row' hrow'
    have hev := hlife.evolves (hother _ hid)
    have hrow'' : db.message? m = some row' := hrow'
    rw [hrow''] at hev
    cases hq : s.db.message? m with
    | none =>
      rw [hq] at hev
      cases hev
    | some row =>
      rw [hq] at hev
      cases hev with
      | kept hrev _ =>
        rw [hrev]
        exact hle row hq
  · intro m hm
    have hm' : s.db.event? (.userMessage m) ≠ none := by
      rw [← hlived.userEvents m]
      exact hm
    obtain ⟨hid, hbegun⟩ := h.announced m hm'
    refine ⟨hid, ?_⟩
    intro row' hrow' hpending
    have hev := hlife.evolves (hother _ hid)
    have hrow'' : db.message? m = some row' := hrow'
    rw [hrow''] at hev
    cases hq : s.db.message? m with
    | none =>
      rw [hq] at hev
      cases hev
    | some row =>
      rw [hq] at hev
      cases hev with
      | kept _ hstatus =>
        rcases hstatus with hsame | ⟨-, hterminal⟩
        · exact hbegun row hq (hsame ▸ hpending)
        · rw [hpending] at hterminal
          cases hterminal
  · intro before after m hw he
    rcases List.mem_append.mp hw with hw | hw
    · exact hlife.ended (h.ended before after m hw he)
    · obtain ⟨rfl, rfl⟩ : before = s.db ∧ after = db := by simpa using hw
      exact he
  · refine h.log.append_one ?_
    intro m row row' hrow hpending hrow' hprocessing
    exact absurd hprocessing (life_claims_nothing hlife hrow hpending hrow')

theorem DispatchInv.sentStop (h : DispatchInv ids s fs) (socket : SocketId) :
    DispatchInv ids (s.record (.sentStop socket)) fs where
  queue := h.queue
  picked := h.picked
  held := h.held
  accounted m r := by
    simpa [QueueState.record] using h.accounted m r
  once m r := by simpa [QueueState.record] using h.once m r
  known m r hr := h.known m r (by simpa [QueueState.record] using hr)
  announced := h.announced
  ended before after m hw := h.ended before after m (by simpa [QueueState.record] using hw)
  log := h.log.append_one trivial

theorem Undispatched.issued (h : Undispatched new s s') : s'.issued = s.issued := by
  induction h with
  | refl => rfl
  | commit _ _ ih => exact ih
  | sentStop _ _ ih => exact ih

theorem DispatchInv.undispatched (h : DispatchInv ids s fs)
    (hnew : ∀ m, new = some m → m ∈ s.issued ∧ m ∉ ids) (hs : Undispatched new s s') :
    DispatchInv ids s' fs := by
  induction hs with
  | refl => exact h
  | commit hs hlife ih => exact ih.commit (fun m hm => hs.issued ▸ hnew m hm) hlife
  | sentStop socket _ ih => exact ih.sentStop socket

/-- A turn that neither claims nor sends, over the frames it leaves alone. -/
theorem DispatchInv.turn {t : QueueTurn} (h : DispatchInv ids s fs) (hids : ids ⊆ s.issued)
    (hnew : ∀ m, new = some m → m ∈ s.issued ∧ m ∉ ids) (ht : UndispatchedTurn new s t) :
    DispatchInv t.state.issued t.state (t.frames ++ fs) := by
  have hstate := h.undispatched hnew ht.state
  refine (hstate.mono ?_).add_all (List.Subset.refl _) ht.frames
  rw [ht.state.issued]
  exact hids

/-! ### Moves of a pump -/

variable {message : MessageRow} {socket : SocketId}

variable {t : Millis}

/-- A pump claims what it has picked. -/
theorem DispatchInv.claim {ev : EventData} {db : SessionDb}
    (h : DispatchInv ids s (.providerAuth message t :: fs))
    (hbudget : s.db.session.budgetExhausted = false)
    (hclaim : startMessageProcessing s.db message.id t ev = some (true, db)) :
    DispatchInv ids (s.commit db)
      (.managedMcp message t socket
        (((db.message? message.id).map MessageRow.mcpRevision).getD 0) :: fs) := by
  obtain ⟨hid, hpicked⟩ := h.picked message t List.mem_cons_self
  rcases startMessageProcessing_some hclaim with ⟨hfalse, -⟩ | ⟨row, -, hrow, hpending, -, -, hmsg, -, _, -, hevents⟩
  · cases hfalse
  have hhead := hpicked row hrow hpending
  have hq : db.message? = Function.update s.db.message? message.id (some (row.claim t)) :=
    message?_eq_update hmsg
  have hrow' : db.message? message.id = some (row.claim t) := by rw [hq, Function.update_self]
  have hstep : DispatchStep s.db.message? db.message? := by
    rw [hq]
    exact .claim t hrow hpending hhead
  have hrev : ((db.message? message.id).map MessageRow.mcpRevision).getD 0 = row.mcpRevision + 1 := by
    rw [hrow']
    rfl
  have hclaims : ∀ m r, Effect.claims m r (.wrote s.db db) =
      decide (m = message.id ∧ r = row.mcpRevision + 1) := by
    intro m r
    rw [Bool.eq_iff_iff]
    simp only [Effect.claims, Bool.and_eq_true, decide_eq_true_eq, messageStatus?_eq_some]
    constructor
    · rintro ⟨⟨⟨x, hx, hxp⟩, x', hx', hxp'⟩, hr⟩
      by_cases hm : m = message.id
      · subst hm
        rw [hrow'] at hr
        exact ⟨rfl, (Option.some.inj hr).symm⟩
      · rw [hq, Function.update_of_ne hm, hx] at hx'
        cases hx'
        rw [hxp] at hxp'
        cases hxp'
    · rintro ⟨rfl, rfl⟩
      exact ⟨⟨⟨row, hrow, hpending⟩, _, hrow', rfl⟩, by rw [hrow']; rfl⟩
  have hcount : ∀ m r, (s.commit db).log.countP (·.claims m r) = s.log.countP (·.claims m r) +
      if m = message.id ∧ r = row.mcpRevision + 1 then 1 else 0 := by
    intro m r
    simp only [QueueState.commit, List.countP_append, List.countP_singleton, hclaims,
      decide_eq_true_eq]
  have hfresh : s.log.countP (·.claims message.id (row.mcpRevision + 1)) = 0 := by
    rw [← Nat.le_zero, ← Nat.not_lt]
    intro hpos
    have hle := (h.known _ _ hpos).2 row hrow
    omega
  rw [hrev]
  refine ⟨hstep.inv h.queue, ?_, ?_, ?_, ?_, ?_, ?_, ?_, ?_⟩
  · intro other t' hf
    rcases List.mem_cons.mp hf with he | hf
    · cases he
    · obtain ⟨hid', hpicked'⟩ := h.picked other t' (List.mem_cons_of_mem _ hf)
      exact ⟨hid', hstep.picked h.queue hpicked'⟩
  · intro other t' socket' r hf
    show ∃ x, db.message? other.id = some x ∧ _
    rcases List.mem_cons.mp hf with he | hf
    · cases he
      exact ⟨_, hrow', rfl, nofun⟩
    · obtain ⟨x, hx, hxrev, hxstatus⟩ := h.held other t' socket' r (List.mem_cons_of_mem _ hf)
      have hne : other.id ≠ message.id := by
        intro he
        rw [he, hrow] at hx
        cases hx
        exact hxstatus hpending
      exact ⟨x, by rw [hq, Function.update_of_ne hne]; exact hx, hxrev, hxstatus⟩
  · intro m r
    have hacc := h.accounted m r
    rw [List.countP_cons_of_neg (by simp)] at hacc
    rw [hcount, List.countP_cons]
    simp only [QueueState.commit, List.countP_append, List.countP_singleton, sends_wrote,
      givesUp_wrote, holds_managedMcp, Bool.and_eq_true, decide_eq_true_eq]
    by_cases hmr : m = message.id ∧ r = row.mcpRevision + 1
    · obtain ⟨rfl, rfl⟩ := hmr
      simp only [and_self, if_true, Bool.false_eq_true, if_false]
      omega
    · have hmr' : ¬ (message.id = m ∧ row.mcpRevision + 1 = r) := fun he => hmr ⟨he.1.symm, he.2.symm⟩
      simp only [if_neg hmr, if_neg hmr']
      simpa using hacc
  · intro m r
    rw [hcount]
    split
    next hmr =>
      obtain ⟨rfl, rfl⟩ := hmr
      rw [hfresh]
    next => exact h.once m r
  · intro m r hpos
    show m ∈ ids ∧ ∀ x, db.message? m = some x → r ≤ x.mcpRevision
    rw [hcount] at hpos
    by_cases hm : m = message.id
    · subst hm
      refine ⟨hid, ?_⟩
      intro x hx
      rw [hrow'] at hx
      cases hx
      show r ≤ row.mcpRevision + 1
      split at hpos
      next hmr => omega
      next => exact Nat.le_succ_of_le ((h.known _ _ hpos).2 row hrow)
    · rw [if_neg fun he => hm he.1] at hpos
      refine ⟨(h.known m r hpos).1, ?_⟩
      intro x hx
      rw [hq, Function.update_of_ne hm] at hx
      exact (h.known m r hpos).2 x hx
  · intro m hm
    show m ∈ ids ∧ ∀ x, db.message? m = some x → x.status ≠ .pending
    by_cases hne : m = message.id
    · subst hne
      refine ⟨hid, ?_⟩
      intro x hx
      rw [hrow'] at hx
      cases hx
      nofun
    · have hm' : s.db.event? (.userMessage m) ≠ none := by
        have hkept := (hevents (.userMessage m)).trans (if_neg fun he => hne (by cases he; rfl))
        rw [← hkept]
        exact hm
      refine ⟨(h.announced m hm').1, ?_⟩
      intro x hx
      rw [hq, Function.update_of_ne hne] at hx
      exact (h.announced m hm').2 x hx
  · intro before after m hw he
    rcases List.mem_append.mp hw with hw | hw
    · obtain ⟨x, hx, hterminal⟩ := h.ended before after m hw he
      have hne : m ≠ message.id := by
        rintro rfl
        rw [hrow] at hx
        cases hx
        rw [hpending] at hterminal
        cases hterminal
      exact ⟨x, by rw [show (s.commit db).db = db from rfl, hq, Function.update_of_ne hne]; exact hx,
        hterminal⟩
    · obtain ⟨rfl, rfl⟩ : before = s.db ∧ after = db := by simpa using hw
      exact he
  · refine h.log.append_one ?_
    intro m x x' hx hxp hx' hxp'
    have hm : m = message.id := by
      by_contra hne
      rw [hq, Function.update_of_ne hne, hx] at hx'
      cases hx'
      rw [hxp] at hxp'
      cases hxp'
    subst hm
    rw [hrow] at hx
    cases hx
    exact ⟨hhead, hbudget⟩

variable {r : Nat}

/-- What a pump finds when it comes back to the claim it holds. -/
theorem DispatchInv.held_row (h : DispatchInv ids s (.managedMcp message t socket r :: fs)) :
    ∃ row, s.db.message? message.id = some row ∧ row.mcpRevision = r ∧
      (row.status = .processing ∨ row.status.terminal = true) := by
  obtain ⟨row, hrow, hrev, hstatus⟩ := h.held message t socket r List.mem_cons_self
  refine ⟨row, hrow, hrev, ?_⟩
  cases hst : row.status with
  | pending => exact absurd hst hstatus
  | processing => exact .inl rfl
  | completed => exact .inr rfl
  | failed => exact .inr rfl

/-- A claim that is over leaves the books: `e` settles it. -/
theorem DispatchInv.settle
    (h : DispatchInv ids s (.managedMcp message t socket r :: fs)) {e : Effect}
    (hone : ∀ m r', (if e.sends m r' then 1 else 0) + (if e.givesUp m r' then 1 else 0) =
      if message.id = m ∧ r = r' then 1 else 0)
    (hwrites : ∀ before after, e ≠ .wrote before after) (hsound : e.Sound s.log) :
    DispatchInv ids (s.record e) fs := by
  have hclaims : ∀ m r', (s.record e).log.countP (·.claims m r') =
      s.log.countP (·.claims m r') := by
    intro m r'
    have he : e.claims m r' = false := by
      cases e with
      | wrote before after => exact absurd rfl (hwrites before after)
      | _ => rfl
    simp [QueueState.record, he]
  refine ⟨h.queue, ?_, ?_, ?_, ?_, ?_, h.announced, ?_, h.log.append_one hsound⟩
  · intro other t' hf
    exact h.picked other t' (List.mem_cons_of_mem _ hf)
  · intro other t' socket' r' hf
    exact h.held other t' socket' r' (List.mem_cons_of_mem _ hf)
  · intro m r'
    have hacc := h.accounted m r'
    have hbooks := hone m r'
    rw [List.countP_cons] at hacc
    simp only [holds_managedMcp, Bool.and_eq_true, decide_eq_true_eq] at hacc
    rw [hclaims]
    simp only [QueueState.record, List.countP_append, List.countP_singleton]
    omega
  · intro m r'
    rw [hclaims]
    exact h.once m r'
  · intro m r' hpos
    rw [hclaims] at hpos
    exact h.known m r' hpos
  · intro before after m hw he
    rcases List.mem_append.mp hw with hw | hw
    · exact h.ended before after m hw he
    · exact absurd (List.mem_singleton.mp hw).symm (hwrites before after)

/-- No two pumps hold a claim of one message. -/
theorem DispatchInv.held_once {message other : MessageRow} {t t' : Millis}
    {socket socket' : SocketId} {r r' : Nat}
    (h : DispatchInv ids s (.managedMcp message t socket r :: fs))
    (hf : Frame.managedMcp other t' socket' r' ∈ fs) : other.id ≠ message.id := by
  intro hid
  obtain ⟨row, hrow, hrev, -⟩ := h.held message t socket r List.mem_cons_self
  obtain ⟨row', hrow', hrev', -⟩ := h.held other t' socket' r' (List.mem_cons_of_mem _ hf)
  rw [hid, hrow] at hrow'
  cases hrow'
  -- both would be the claim `row.mcpRevision`, which was made once
  have hother : 0 < fs.countP (·.holds message.id r) :=
    List.countP_pos_iff.mpr ⟨_, hf, by simp [hid, ← hrev, ← hrev']⟩
  have hacc := h.accounted message.id r
  have honce := h.once message.id r
  rw [List.countP_cons_of_pos (by simp)] at hacc
  omega

/-- The holder sends its prompt. -/
theorem DispatchInv.send (h : DispatchInv ids s (.managedMcp message t socket r :: fs))
    (hprocessing : s.db.messageStatus? message.id = some .processing)
    (htarget : s.target = .dispatch socket) (managed : Bool) :
    DispatchInv ids
      (s.record (.sentPrompt ⟨message.id, message.content, managed⟩ r socket s.target s.db)) fs := by
  obtain ⟨row, hrow, hstatus⟩ := messageStatus?_eq_some.mp hprocessing
  obtain ⟨row', hrow', hrev, -⟩ := h.held_row
  rw [hrow] at hrow'
  cases hrow'
  refine h.settle ?_ ?_ ⟨htarget, ⟨row, hrow, hstatus, hrev⟩, ?_⟩
  · intro m r'
    simp
  · intro before after he
    cases he
  · intro before after hw hended
    obtain ⟨x, hx, hterminal⟩ := h.ended before after _ hw hended
    rw [hrow] at hx
    cases hx
    rw [hstatus] at hterminal
    cases hterminal

/-- The holder finds that its message has ended. -/
theorem DispatchInv.release (h : DispatchInv ids s (.managedMcp message t socket r :: fs))
    (hover : s.db.messageStatus? message.id ≠ some .processing) :
    DispatchInv ids (s.record (.unsent message.id r s.db)) fs := by
  refine h.settle ?_ ?_ (.inr ?_)
  · intro m r'
    simp
  · intro before after he
    cases he
  · obtain ⟨row, hrow, -, hstatus⟩ := h.held_row
    rcases hstatus with hprocessing | hterminal
    · exact absurd (messageStatus?_eq_some.mpr ⟨row, hrow, hprocessing⟩) hover
    · exact ⟨row, hrow, hterminal⟩

/-- The holder gives its claim back. -/
theorem DispatchInv.giveBack (h : DispatchInv ids s (.managedMcp message t socket r :: fs))
    (hprocessing : s.db.messageStatus? message.id = some .processing) :
    DispatchInv ids (giveBack s message.id r) fs := by
  obtain ⟨row, hrow, hstatus⟩ := messageStatus?_eq_some.mp hprocessing
  have hids : message.id ∈ ids := by
    have hacc := h.accounted message.id r
    rw [List.countP_cons_of_pos (by simp)] at hacc
    exact (h.known message.id r (by omega)).1
  rcases updateMessageToPending_cases s.db message.id with
    ⟨-, hother⟩ | ⟨row', db, hdb, hrow', -, -, hmsg, hevent⟩
  · exact absurd hstatus (hother row hrow)
  rw [hrow] at hrow'
  cases hrow'
  have hq : db.message? = Function.update s.db.message? message.id (some row.revert) :=
    message?_eq_update hmsg
  have hrow' : db.message? message.id = some row.revert := by rw [hq, Function.update_self]
  have hstep : DispatchStep s.db.message? db.message? := by
    rw [hq]
    exact .revert hrow hstatus
  have hkeep : ∀ m row', m ≠ message.id → s.db.message? m = some row' →
      db.message? m = some row' := by
    intro m row' hne hm
    rw [hq, Function.update_of_ne hne]
    exact hm
  have hunclaimed : ∀ m row', db.message? m = some row' → row'.status = .processing →
      s.db.message? m = some row' := by
    intro m row' hm hp
    by_cases hne : m = message.id
    · rw [hne, hrow'] at hm
      cases hm
      cases hp
    · rw [hq, Function.update_of_ne hne] at hm
      exact hm
  have hlog : (Session.giveBack s message.id r).log =
      s.log ++ [.wrote s.db db] ++ [.unsent message.id r db] := by
    rw [← hdb]
    rfl
  have hclaims : ∀ m r', Effect.claims m r' (.wrote s.db db) = false := by
    intro m r'
    rw [Bool.eq_false_iff]
    intro hc
    simp only [Effect.claims, Bool.and_eq_true, decide_eq_true_eq, messageStatus?_eq_some] at hc
    obtain ⟨⟨⟨x, hx, hpending⟩, x', hx', hp⟩, -⟩ := hc
    rw [hunclaimed m x' hx' hp] at hx
    cases hx
    rw [hpending] at hp
    cases hp
  have hcount : ∀ m r', (Session.giveBack s message.id r).log.countP (·.claims m r') =
      s.log.countP (·.claims m r') := by
    intro m r'
    rw [hlog]
    simp [hclaims]
  have hmsgs : (Session.giveBack s message.id r).db.message? = db.message? := by
    rw [← hdb]
    rfl
  have hkeptEvents : ∀ m, (Session.giveBack s message.id r).db.event? (.userMessage m) =
      if m = message.id then none else s.db.event? (.userMessage m) := by
    intro m
    have he := hevent (.userMessage m)
    simp only [EventId.userMessage.injEq] at he
    rw [← hdb] at he
    exact he
  refine ⟨?_, ?_, ?_, ?_, ?_, ?_, ?_, ?_, ?_⟩
  · rw [hmsgs]
    exact hstep.inv h.queue
  · intro other t' hf
    rw [hmsgs]
    obtain ⟨hid, hpicked⟩ := h.picked other t' (List.mem_cons_of_mem _ hf)
    exact ⟨hid, hstep.picked h.queue hpicked⟩
  · intro other t' socket' r' hf
    rw [hmsgs]
    obtain ⟨x, hx, hrev, hst⟩ := h.held other t' socket' r' (List.mem_cons_of_mem _ hf)
    exact ⟨x, hkeep _ _ (h.held_once hf) hx, hrev, hst⟩
  · intro m r'
    have hacc := h.accounted m r'
    rw [List.countP_cons] at hacc
    rw [hcount, hlog]
    simp only [List.countP_append, List.countP_singleton, sends_wrote, sends_unsent, givesUp_wrote,
      givesUp_unsent, holds_managedMcp, Bool.and_eq_true, decide_eq_true_eq, Bool.false_eq_true,
      if_false] at hacc ⊢
    omega
  · intro m r'
    rw [hcount]
    exact h.once m r'
  · intro m r' hpos
    rw [hcount] at hpos
    rw [hmsgs]
    refine ⟨(h.known m r' hpos).1, ?_⟩
    intro x hx
    by_cases hm : m = message.id
    · subst hm
      rw [hrow'] at hx
      cases hx
      exact (h.known _ r' hpos).2 row hrow
    · rw [hq, Function.update_of_ne hm] at hx
      exact (h.known m r' hpos).2 x hx
  · intro m hm
    rw [hmsgs]
    rw [hkeptEvents] at hm
    split at hm
    next => exact absurd rfl hm
    next hne =>
      refine ⟨(h.announced m hm).1, ?_⟩
      intro x hx
      rw [hq, Function.update_of_ne hne] at hx
      exact (h.announced m hm).2 x hx
  · intro before after m hw he
    rw [hmsgs]
    have hended : Ended s.db.message? m ∨ Ended db.message? m := by
      rw [hlog] at hw
      rcases List.mem_append.mp hw with hw | hw
      · rcases List.mem_append.mp hw with hw | hw
        · exact .inl (h.ended before after m hw he)
        · obtain ⟨rfl, rfl⟩ : before = s.db ∧ after = db := by simpa using hw
          exact .inr he
      · simp at hw
    rcases hended with ⟨x, hx, hterminal⟩ | hended
    · refine ⟨x, hkeep m x ?_ hx, hterminal⟩
      rintro rfl
      rw [hrow] at hx
      cases hx
      rw [hstatus] at hterminal
      cases hterminal
    · exact hended
  · rw [hlog]
    refine (h.log.append_one ?_).append_one (.inl ⟨⟨_, hrow', rfl⟩, ?_⟩)
    · intro m x x' hx hpending hx' hp
      rw [hunclaimed m x' hx' hp] at hx
      cases hx
      rw [hpending] at hp
      cases hp
    · rw [hevent, if_pos rfl]

end Moves

/-! ## The turns of a pump -/

section Turns

variable {cfg : QueueConfig} {s : QueueState} {fs : List Frame}

/-- A turn that generates no id, as `DispatchInv.turn`. -/
theorem DispatchInv.resume {t : QueueTurn} (h : DispatchInv s.issued s fs)
    (ht : UndispatchedTurn none s t) :
    DispatchInv t.state.issued t.state (t.frames ++ fs) := by
  refine h.turn (List.Subset.refl _) ?_ ht
  intro m hm
  cases hm

variable {message : MessageRow} {t : Millis}

/-- `sendPrompt` sends, or gives the claim back and has the sandbox terminated. -/
theorem DispatchInv.sendPrompt {socket : SocketId} {r : Nat}
    (h : DispatchInv s.issued s (.managedMcp message t socket r :: fs))
    (hprocessing : s.db.messageStatus? message.id = some .processing)
    (htarget : s.target = .dispatch socket) (managed : Bool) :
    DispatchInv (sendPrompt s message socket r managed).state.issued
      (sendPrompt s message socket r managed).state
      ((sendPrompt s message socket r managed).frames ++ fs) := by
  unfold Session.sendPrompt
  split
  next => exact (h.send hprocessing htarget managed).add (List.Subset.refl _) trivial
  next => exact (h.giveBack hprocessing).add (List.Subset.refl _) trivial

/-- The claim is the pump's one unguarded step: it is the head that was picked. -/
theorem DispatchInv.afterProviderAuth {error : Option String}
    (h : DispatchInv s.issued s (.providerAuth message t :: fs)) :
    DispatchInv (afterProviderAuth cfg s message t error).state.issued
      (afterProviderAuth cfg s message t error).state
      ((afterProviderAuth cfg s message t error).frames ++ fs) := by
  have hrest : DispatchInv s.issued s fs := h.drop fun _ _ => rfl
  unfold Session.afterProviderAuth
  split
  next => exact hrest.resume (.return .refl)
  next =>
  split
  next => exact hrest.resume (.return .refl)
  next hbudget =>
  split
  next => exact hrest.resume (authenticationFailed_undispatched _ _ _)
  next =>
  split
  next => exact hrest.resume (.return .refl)
  next =>
    split
    next => exact hrest.resume processMessageQueue_undispatched
    next => exact hrest.resume (.return .refl)
  next socket htarget =>
  split
  next => exact hrest.resume (.raise .refl)
  next => exact hrest.resume (.return .refl)
  next db hclaim =>
    have hclaimed : DispatchInv s.issued (s.commit db) (.managedMcp message t socket _ :: fs) :=
      h.claim (Bool.eq_false_iff.mpr hbudget) hclaim
    split
    next => exact hclaimed
    next =>
      have hprocessing : db.messageStatus? message.id = some .processing := by
        rcases startMessageProcessing_some hclaim with ⟨hfalse, -⟩ | ⟨row, -, -, -, -, -, hmsg, -⟩
        · cases hfalse
        · refine messageStatus?_eq_some.mpr ⟨row.claim t, ?_, rfl⟩
          rw [hmsg, if_pos rfl]
      exact DispatchInv.sendPrompt (s := s.commit db) hclaimed hprocessing htarget false

theorem failMessage_none {m : MessageId} {error : String} {expected : MessageStatus}
    {s' : QueueState} (h : failMessage s m error t expected = (false, s')) :
    s' = s ∧ s.db.messageStatus? m ≠ some expected := by
  unfold failMessage at h
  split at h
  next => cases h
  next hrecord =>
    cases h
    refine ⟨rfl, ?_⟩
    intro hstatus
    obtain ⟨row, hrow, hrow'⟩ := messageStatus?_eq_some.mp hstatus
    rcases recordMessageCompletion_cases s.db m ⟨false, some error⟩ t expected with
      ⟨-, hother⟩ | ⟨_, _, he, -⟩
    · exact hother row hrow hrow'
    · rw [recordFailure, he] at hrecord
      cases hrecord

theorem failMessage_some {m : MessageId} {error : String} {expected : MessageStatus}
    {s' : QueueState} (h : failMessage s m error t expected = (true, s')) :
    s'.db.messageStatus? m = some .failed := by
  unfold failMessage at h
  split at h
  next db hrecord =>
    cases h
    rcases recordMessageCompletion_cases s.db m ⟨false, some error⟩ t expected with
      ⟨he, -⟩ | ⟨row, db', he, -, -, -, hmsg, -⟩
    · rw [recordFailure, he] at hrecord
      cases hrecord
    · rw [recordFailure, he] at hrecord
      cases hrecord
      refine messageStatus?_eq_some.mpr ⟨row.finish ⟨false, some error⟩ t, ?_, rfl⟩
      exact (hmsg m).trans (if_pos rfl)
  next => cases h

/-- The five ways out of the MCP gateway's answer. -/
theorem DispatchInv.afterManagedMcp {socket : SocketId} {r : Nat} {answer : Answer}
    {turn : QueueTurn} (h : DispatchInv s.issued s (.managedMcp message t socket r :: fs))
    (hturn : afterManagedMcp cfg s message socket r answer = some turn) :
    DispatchInv turn.state.issued turn.state (turn.frames ++ fs) := by
  unfold Session.afterManagedMcp at hturn
  split at hturn
  next managed =>
    cases hturn
    split
    next hover => exact (h.release hover).resume (.return .refl)
    next hprocessing =>
    rw [ne_eq, not_not] at hprocessing
    split
    next => exact (h.giveBack hprocessing).resume processMessageQueue_undispatched
    next hready =>
      simp only [Bool.or_eq_true, Bool.not_eq_true', decide_eq_true_eq, not_or, ne_eq,
        not_not] at hready
      exact h.sendPrompt hprocessing hready.2 managed
  next =>
    cases hturn
    split
    next hprocessing =>
      exact (h.giveBack hprocessing).resume processMessageQueue_undispatched
    next hover => exact (h.release hover).resume (.return .refl)
  next =>
    cases hturn
    split
    next failed hfail =>
      have hrecorded : Undispatched none s (failMessage s message.id
          "Managed MCP preparation unavailable" s.now .processing).2 :=
        failMessage_undispatched _ _ _ rfl
      rw [hfail] at hrecorded
      have hfailed := h.undispatched (fun m hm => by cases hm) hrecorded
      rw [← hrecorded.issued] at hfailed
      have hover : failed.db.messageStatus? message.id ≠ some .processing := by
        rw [failMessage_some hfail]
        nofun
      exact (hfailed.release hover).resume (.await (.reconciled false) trivial)
    next same hfail =>
      obtain ⟨rfl, hover⟩ := failMessage_none hfail
      exact (h.release hover).resume (.return .refl)
  next => cases hturn

end Turns

/-! ## Every turn -/

section Machine

variable {cfg : QueueConfig} {s : QueueState} {fs : List Frame}

/-- A change of the surroundings, which no message notices. -/
theorem DispatchInv.surroundings {s' : QueueState} (h : DispatchInv s.issued s fs)
    (hnow : s.now ≤ s'.now) (hdb : s'.db = s.db) (hissued : s'.issued = s.issued)
    (hlog : s'.log = s.log) : DispatchInv s'.issued s' fs := by
  obtain ⟨now, db, mayDispatch, promptBlocked, target, sandboxSocket, openSockets, issued, log⟩ := s'
  obtain rfl : db = s.db := hdb
  obtain rfl : issued = s.issued := hissued
  obtain rfl : log = s.log := hlog
  exact ⟨⟨h.queue.id, h.queue.issued, fun m x hx => (h.queue.past m x hx).trans hnow, h.queue.rowid,
    h.queue.one, h.queue.oneFence, h.queue.fenced, h.queue.unfenced, h.queue.order⟩, h.picked,
    h.held, h.accounted, h.once, h.known, h.announced, h.ended, h.log⟩

/-- The id of a call is generated before anything else happens. -/
theorem DispatchInv.issue (h : DispatchInv s.issued s fs) (new : Option MessageId) :
    DispatchInv s.issued (s.issue new) fs := by
  cases new with
  | none => exact h
  | some m =>
    refine ⟨⟨h.queue.id, fun k x hx => ?_, h.queue.past, h.queue.rowid, h.queue.one,
      h.queue.oneFence, h.queue.fenced, h.queue.unfenced, h.queue.order⟩, h.picked, h.held,
      h.accounted, h.once, h.known, h.announced, h.ended, h.log⟩
    exact List.mem_cons_of_mem _ (h.queue.issued k x hx)

theorem QueueState.issued_issue (s : QueueState) (new : Option MessageId) :
    s.issued ⊆ (s.issue new).issued ∧ ∀ m, new = some m → m ∈ (s.issue new).issued := by
  cases new with
  | none => exact ⟨List.Subset.refl _, nofun⟩
  | some m =>
    refine ⟨List.subset_cons_self _ _, ?_⟩
    rintro m' ⟨⟩
    exact List.mem_cons_self

theorem DispatchInv.enter {call : Call} (h : DispatchInv s.issued s fs)
    (hfresh : call.generates.any s.issued.contains = false) :
    DispatchInv (enter cfg (s.issue call.generates) call).state.issued
      (enter cfg (s.issue call.generates) call).state
      ((enter cfg (s.issue call.generates) call).frames ++ fs) := by
  have hnew : ∀ m, call.generates = some m → m ∈ (s.issue call.generates).issued ∧ m ∉ s.issued := by
    intro m hm
    refine ⟨(s.issued_issue _).2 m hm, ?_⟩
    rw [hm] at hfresh
    simpa using hfresh
  have hturn : ∀ t : QueueTurn, UndispatchedTurn call.generates (s.issue call.generates) t →
      DispatchInv t.state.issued t.state (t.frames ++ fs) :=
    fun t ht => (h.issue call.generates).turn (s.issued_issue _).1 hnew ht
  cases call with
  | enqueuePrompt r => exact hturn _ (enqueuePrompt_undispatched r rfl)
  | enqueueAutofix r => exact hturn _ (enqueueAutofix_undispatched r rfl)
  | lookupAutofix key => exact hturn _ (lookupAutofix_undispatched key)
  | cancelQueuedPrompt m => exact hturn _ (cancelQueuedPrompt_undispatched m)
  | processMessageQueue => exact hturn _ processMessageQueue_undispatched
  | stop reason => exact hturn _ (stop_undispatched reason)
  | recoverStopConfirmationTimeout => exact hturn _ recoverStopConfirmationTimeout_undispatched
  | resumeAfterSandboxTermination => exact hturn _ resumeAfterSandboxTermination_undispatched
  | failPendingMessage m error => exact hturn _ (failPendingMessage_undispatched m error)
  | failStuckProcessingMessage error => exact hturn _ (failStuckProcessingMessage_undispatched error)
  | handleFatalSandboxFailure reason interrupts =>
    exact hturn _ (handleFatalSandboxFailure_undispatched reason interrupts)
  | interrupt error => exact hturn _ (.return (interrupt_undispatched error))
  | stepFinish event => exact hturn _ (handleStepFinish_undispatched event)
  | executionComplete event => exact hturn _ (handleExecutionComplete_undispatched event)
  | updateLimit maxCostUsd => exact hturn _ (updateLimit_undispatched maxCostUsd)
  | cancel => exact hturn _ cancel_undispatched
  | archive => exact hturn _ archive_undispatched
  | unarchive => exact hturn _ unarchive_undispatched
  | setMayDispatch allowed => exact h.surroundings le_rfl rfl rfl rfl
  | setPromptBlocked blocked => exact h.surroundings le_rfl rfl rfl rfl
  | setSandbox target socket openSockets => exact h.surroundings le_rfl rfl rfl rfl
  | tick elapsed => exact h.surroundings (Nat.le_add_right _ _) rfl rfl rfl

theorem DispatchInv.wake_answered {f : Frame} {answer : Answer} {t : QueueTurn}
    (h : DispatchInv s.issued s (f :: fs)) (ht : Session.answered cfg s f answer = some t) :
    DispatchInv t.state.issued t.state (t.frames ++ fs) := by
  unfold Session.answered at ht
  split at ht
  next =>
    cases ht
    exact h.afterProviderAuth
  next => exact h.afterManagedMcp ht
  all_goals
    first
    | cases ht
      have hrest : DispatchInv s.issued s fs := h.drop fun _ _ => rfl
      refine hrest.resume ?_
    | cases ht
  next => exact processMessageQueue_undispatched
  next =>
    split
    next => exact .return .refl
    next => exact processMessageQueue_undispatched
  next => exact .return .refl
  next => exact resumeAfterSandboxTermination_undispatched
  next => exact afterDelivery_undispatched _ _ _
  next => exact afterDelivery_undispatched _ _ _
  next => exact .await (.reconciled _) trivial
  next => exact .await .refl trivial
  next => exact applySandboxRecovery_undispatched _ _
  all_goals exact .raise .refl

theorem DispatchInv.wake_ended {f : Frame} {o : Outcome Unit} {t : QueueTurn}
    (h : DispatchInv s.issued s (f :: fs)) (ht : Session.ended cfg s f o = some t) :
    DispatchInv t.state.issued t.state (t.frames ++ fs) := by
  unfold Session.ended at ht
  split at ht
  all_goals
    first
    | cases ht
      have hrest : DispatchInv s.issued s fs := h.drop fun _ _ => rfl
      refine hrest.resume ?_
    | cases ht
  next => exact .await .refl trivial
  next => exact .await .refl trivial
  next =>
    split
    next => exact .return .refl
    next => exact processMessageQueue_undispatched
  next => exact .await .refl trivial
  all_goals exact .raise .refl

/-- **The step lemma.** -/
theorem DispatchInv.queueTurn {others : List Frame} {e : Event Call Frame Answer Unit}
    {t : QueueTurn} (h : DispatchInv s.issued s fs) (hfs : fs.Perm (e.frames ++ others))
    (ht : queueTurn cfg s e = some t) :
    DispatchInv t.state.issued t.state (t.frames ++ others) := by
  have hinv := h.perm hfs
  cases e with
  | enter call =>
    simp only [Session.queueTurn] at ht
    split at ht
    next => cases ht
    next hfresh =>
      cases ht
      exact hinv.enter (Bool.eq_false_iff.mpr hfresh)
  | resume f w =>
    cases w with
    | answered answer => exact hinv.wake_answered ht
    | ended o => exact hinv.wake_ended ht

/-- A session in which no prompt has been queued yet. -/
structure Fresh (s : QueueState) : Prop where
  messages : s.db.messages.rows = []
  events : ∀ m, s.db.event? (.userMessage m) = none
  log : s.log = []

/-- **The run lemma.** -/
theorem queue_dispatchInv {s₀ : QueueState} {ok : StepCondition QueueState Call Frame Answer Unit}
    {p : QueuePool} (hfresh : Fresh s₀) (h : (queueMachine cfg).Reachable ok (QueuePool.idle s₀) p) :
    DispatchInv p.shared.issued p.shared p.frames := by
  refine Machine.reachable_inv (fun s fs => DispatchInv s.issued s fs) ?_ ?_ ?_ h
  · intro s fs gs hp hinv
    exact hinv.perm hp
  · intro s fs others e t hinv _ hfs ht
    exact hinv.queueTurn hfs ht
  · have hnone : ∀ m x, s₀.db.message? m ≠ some x := by
      intro m x hx
      have hmem := Table.mem_of_get? hx
      rw [hfresh.messages] at hmem
      cases hmem
    show DispatchInv s₀.issued s₀ []
    refine ⟨?_, by simp, by simp, ?_, ?_, ?_, ?_, ?_, hfresh.log ▸ .nil⟩
    · constructor <;> intro m x <;> intros <;> exact absurd ‹_› (hnone m x)
    · intro m r
      simp [hfresh.log]
    · intro m r
      simp [hfresh.log]
    · intro m r hpos
      simp [hfresh.log] at hpos
    · intro m hm
      exact absurd (hfresh.events m) hm
    · intro before after m hw
      simp [hfresh.log] at hw

/-- **Dispatch safety.** In every state reached, at most one message is processing and at
most one carries a stop fence; and whenever a transaction has taken a message from
pending to processing, there was no fence, the budget was not exhausted, and no pending
message was older. -/
theorem dispatch_safe {s₀ : QueueState} {p : QueuePool} (hfresh : Fresh s₀)
    (h : (queueMachine cfg).Reachable (fun _ _ _ => True) (QueuePool.idle s₀) p) :
    (∀ m x m' x', p.shared.db.message? m = some x → p.shared.db.message? m' = some x' →
      x.status = .processing → x'.status = .processing → m = m') ∧
    (∀ m x m' x', p.shared.db.message? m = some x → p.shared.db.message? m' = some x' →
      x.stopConfirmationDeadline ≠ none → x'.stopConfirmationDeadline ≠ none → m = m') ∧
    ∀ before after m row row', .wrote before after ∈ p.shared.log →
      before.message? m = some row → row.status = .pending →
      after.message? m = some row' → row'.status = .processing →
      (∀ k x, before.message? k = some x → x.stopConfirmationDeadline = none) ∧
      before.session.budgetExhausted = false ∧
      ∀ k x, before.message? k = some x → x.status = .pending → row.queueKey ≤ x.queueKey := by
  have hinv := queue_dispatchInv hfresh h
  refine ⟨hinv.queue.one, hinv.queue.oneFence, ?_⟩
  intro before after m row row' hw hrow hpending hrow' hprocessing
  obtain ⟨earlier, later, hsplit⟩ := List.append_of_mem hw
  obtain ⟨hhead, hbudget⟩ := hinv.log _ _ _ hsplit m row row' hrow hpending hrow' hprocessing
  exact ⟨hhead.unfenced, hbudget, hhead.first⟩

/-- A session whose sandbox is ready to be dispatched to. -/
def readySession : QueueState where
  now := 5
  db := SessionDb.fresh {}
  target := .dispatch 7
  sandboxSocket := some 7
  openSockets := [7]

theorem readySession_fresh : Fresh readySession := ⟨rfl, fun _ => rfl, rfl⟩

/-- Two pumps pick the same message; the one that claims it is told that its MCP context
has changed, gives it back, and claims it again. -/
def reclaimedRun : List (Act Call Answer) :=
  [.enter (.enqueuePrompt { messageId := 1, content := "a" }), .answer 0 .resolved,
    .enter .processMessageQueue, .answer 0 (.authenticated none),
    .answer 0 (.authenticated none), .answer 0 .contextChanged,
    .answer 0 (.authenticated none), .answer 0 (.prepared true)]

/-- What `reclaimedRun` reaches. -/
def reclaimedPool : QueuePool :=
  ((queueMachine { managedMcp := true }).run (fun _ _ _ => True) (QueuePool.idle readySession)
    reclaimedRun).getD (QueuePool.idle readySession)

theorem reclaimedPool_reachable :
    (queueMachine { managedMcp := true }).Reachable (fun _ _ _ => True)
      (QueuePool.idle readySession) reclaimedPool := by
  have hrun : (queueMachine { managedMcp := true }).run (fun _ _ _ => True)
      (QueuePool.idle readySession) reclaimedRun = some reclaimedPool := by decide +kernel
  exact Machine.run_reachable .refl hrun

theorem dispatch_safe_reclaimed : AtMostOneProcessing reclaimedPool.shared.db := by
  intro m m' h h'
  obtain ⟨x, hx, hp⟩ := messageStatus?_eq_some.mp h
  obtain ⟨x', hx', hp'⟩ := messageStatus?_eq_some.mp h'
  exact (dispatch_safe readySession_fresh reclaimedPool_reachable).1 m x m' x' hx hx' hp hp'

/-- **Exactly-once dispatch.** A claim of `m`, numbered by the `mcp_revision` it gave to
it, is made once, and is at every moment held by a suspended pump, sent or given up,
exactly one of these. Whenever a prompt is sent, its message is still processing under
that claim, the socket is the dispatch target, and the message had never ended; whenever
a pump gives its claim up, the message is pending without its `user_message` event, or
has ended. -/
theorem dispatch_exactly_once {s₀ : QueueState} {p : QueuePool} (hfresh : Fresh s₀)
    (h : (queueMachine cfg).Reachable (fun _ _ _ => True) (QueuePool.idle s₀) p) :
    (∀ m r, p.shared.log.countP (·.claims m r) ≤ 1 ∧
      p.frames.countP (·.holds m r) + p.shared.log.countP (·.sends m r) +
        p.shared.log.countP (·.givesUp m r) = p.shared.log.countP (·.claims m r)) ∧
    (∀ earlier command r socket target db later,
      p.shared.log = earlier ++ .sentPrompt command r socket target db :: later →
      target = .dispatch socket ∧
      (∃ row, db.message? command.messageId = some row ∧ row.status = .processing ∧
        row.mcpRevision = r) ∧
      ∀ before after, .wrote before after ∈ earlier → ¬ Ended after.message? command.messageId) ∧
    ∀ m r db, .unsent m r db ∈ p.shared.log →
      (∃ row, db.message? m = some row ∧ row.status = .pending) ∧
          db.event? (.userMessage m) = none ∨
        Ended db.message? m := by
  have hinv := queue_dispatchInv hfresh h
  refine ⟨fun m r => ⟨hinv.once m r, hinv.accounted m r⟩, ?_, ?_⟩
  · intro earlier command r socket target db later hsplit
    exact hinv.log _ _ _ hsplit
  · intro m r db hgiven
    obtain ⟨earlier, later, hsplit⟩ := List.append_of_mem hgiven
    exact hinv.log _ _ _ hsplit

/-- The first claim of message `1` was given up, the second was sent. -/
theorem dispatch_exactly_once_reclaimed :
    reclaimedPool.shared.log.countP (·.sends 1 1) + 1 = 1 ∧
      reclaimedPool.shared.log.countP (·.sends 1 2) = 1 := by
  have hbooks := (dispatch_exactly_once readySession_fresh reclaimedPool_reachable).1
  have hfirst := (hbooks 1 1).2
  have hsecond := (hbooks 1 2).2
  have hclaims : reclaimedPool.shared.log.countP (·.claims 1 1) = 1 ∧
      reclaimedPool.shared.log.countP (·.claims 1 2) = 1 := by decide +kernel
  have hgiven : reclaimedPool.shared.log.countP (·.givesUp 1 1) = 1 ∧
      reclaimedPool.shared.log.countP (·.givesUp 1 2) = 0 := by decide +kernel
  have hheld : reclaimedPool.frames.countP (·.holds 1 2) = 0 := by decide +kernel
  omega

end Machine

end BackgroundAgents.Session

import BackgroundAgents.Mcp.Tracked

/-!
# A consent connects what was consented to

What holds a consent to its row is the grant revision: nothing that replaces the
client or disconnects leaves it as it was. So a transaction at the row's revision
was published on the row as it is (`Bound`), provided that the revision `begin`
computed in advance was not reached by somebody else before it published
(`ConsentCurrent`).
-/

namespace BackgroundAgents.Mcp

open Transition

section

variable {db db' : Db} {h h' : History}

/-- A transaction at the row's revision was published on the row as it is, with no disconnect
since. -/
structure Bound (db : Db) (h : History) : Prop where
  revisions : ∀ t ∈ db.transactions.rows, ∀ c, db.connection = some c →
    t.connection_id = c.id → t.grant_revision ≤ c.grant_revision
  rows : ∀ t ∈ db.transactions.rows, ∀ c, db.connection = some c → t.connection_id = c.id →
    t.grant_revision = c.grant_revision → ∀ o ∈ h.origins, o.stateDigest = t.state_digest →
      sameClient c o.client = true ∧ o.disconnects = h.disconnects
  settlements : ∀ e ∈ h.settlements, ∀ o ∈ h.origins,
    o.stateDigest = e.stateDigest → o.disconnects = e.disconnects

/-- The transactions that were there before, over the row as it was. -/
theorem Onward.before (ho : Onward db h db' h') (hl : Ledger db h) {t : McpOAuthTransaction}
    (ht : t ∈ db.transactions.rows) {c' : McpConnectionRow} (hc' : db'.connection = some c') :
    ∃ c, db.connection = some c ∧ Later c c' := by
  cases hc : db.connection with
  | none =>
    rw [hl.absent hc] at ht
    cases ht
  | some c =>
    obtain ⟨c'', hc'', hmove⟩ := ho.moves c hc
    rw [hc', Option.some.injEq] at hc''
    subst hc''
    exact ⟨c, rfl, hmove.later⟩

/-- What was bound before stays so, or its revision has passed. -/
theorem Bound.row_onward (hb : Bound db h) (hl : Ledger db h) (ho : Onward db h db' h')
    {t t' : McpOAuthTransaction} (ht : t ∈ db.transactions.rows)
    (hd : t.state_digest = t'.state_digest) (hid : t.connection_id = t'.connection_id)
    (hg : t.grant_revision = t'.grant_revision) {c' : McpConnectionRow}
    (hc' : db'.connection = some c') (hid' : t'.connection_id = c'.id) :
    t'.grant_revision ≤ c'.grant_revision ∧
      (t'.grant_revision = c'.grant_revision → ∀ o ∈ h.origins,
        o.stateDigest = t'.state_digest →
          sameClient c' o.client = true ∧ o.disconnects = h'.disconnects) := by
  obtain ⟨c, hc, hlater⟩ := ho.before hl ht hc'
  have hid₀ := hid.trans (hid'.trans hlater.id)
  have hle := hb.revisions t ht c hc hid₀
  have hge := hlater.grant_revision
  refine ⟨by omega, ?_⟩
  intro hg' o hmem ho'
  have hgc : c'.grant_revision = c.grant_revision := by omega
  obtain ⟨hsame, hdis⟩ := hb.rows t ht c hc hid₀ (by omega) o hmem (ho'.trans hd.symm)
  refine ⟨?_, hdis.trans (ho.disconnects c c' hc hc' hgc).symm⟩
  rw [(hlater.core hgc).sameClient]
  exact hsame

/-- Nothing was published or settled. -/
theorem Bound.onward (hb : Bound db h) (hl : Ledger db h) (ho : Onward db h db' h')
    (horigins : h'.origins = h.origins) (hsettlements : h'.settlements = h.settlements)
    (hrows : ∀ t' ∈ db'.transactions.rows, ∃ t ∈ db.transactions.rows,
      t.state_digest = t'.state_digest ∧ t.connection_id = t'.connection_id ∧
        t.grant_revision = t'.grant_revision) : Bound db' h' where
  revisions t' ht' c' hc' hid' := by
    obtain ⟨t, ht, hd, hid, hg⟩ := hrows t' ht'
    exact (hb.row_onward hl ho ht hd hid hg hc' hid').1
  rows t' ht' c' hc' hid' hg' o hmem ho' := by
    obtain ⟨t, ht, hd, hid, hg⟩ := hrows t' ht'
    rw [horigins] at hmem
    exact (hb.row_onward hl ho ht hd hid hg hc' hid').2 hg' o hmem ho'
  settlements e he o hmem hd := by
    rw [hsettlements] at he
    rw [horigins] at hmem
    exact hb.settlements e he o hmem hd

theorem Bound.fewer (hb : Bound db h) (hl : Ledger db h) (ho : Onward db h db' h')
    (hh : SameLedger h h') (hf : Fewer db db') : Bound db' h' :=
  hb.onward hl ho hh.origins hh.settlements fun t' ht' => ⟨t', hf t' ht', rfl, rfl, rfl⟩

end

/-! ## The condition -/

/-- Where a start publishes a consent that resets and the row is already at the revision it is
published at, the row is its client's, and was not disconnected since the start read it. -/
def StartCall.current (s : State) (c : StartCall) : Bool :=
  match c.stage with
  | .publishing row disconnects =>
    s.db.connection.all fun conn =>
      !needsReset row c.client || !s.db.noOtherAttempt row.id ||
        decide (conn.grant_revision ≠ row.grant_revision + 1) ||
        (sameClient conn c.client && decide (disconnects = s.history.disconnects))
  | _ => true

def Call.current (s : State) : Call → Bool
  | .start c => c.current s
  | .callback _ => true
  | .credential _ => true

/-- Every such publication that the step makes is on a current row. -/
def ConsentCurrent (s : State) : Act → Prop
  | .next i answer => answer.statement = .failed ∨ (s.calls[i]?).all (·.current s) = true
  | _ => True

instance : ∀ (s : State) (a : Act), Decidable (ConsentCurrent s a)
  | s, .next i answer =>
    inferInstanceAs
      (Decidable (answer.statement = .failed ∨ (s.calls[i]?).all (·.current s) = true))
  | _, .start .. => .isTrue trivial
  | _, .callback .. => .isTrue trivial
  | _, .credential _ => .isTrue trivial
  | _, .crash _ => .isTrue trivial
  | _, .disconnect => .isTrue trivial
  | _, .disconnectServer => .isTrue trivial
  | _, .editServer .. => .isTrue trivial
  | _, .signIn _ => .isTrue trivial
  | _, .signOut _ => .isTrue trivial
  | _, .suspend _ => .isTrue trivial
  | _, .unsuspend _ => .isTrue trivial
  | _, .tick _ => .isTrue trivial

section

variable {assertProfile : String → String → String → Bool} {ownerId : String} {s : State}

/-! ## One step -/

/-- A consent that keeps the row is for the row's client. -/
theorem sameClient_of_kept {row : McpConnectionRow} {client : McpOAuthClient}
    (h : needsReset row client = false) : sameClient row client = true := by
  cases hs : sameClient row client with
  | true => rfl
  | false =>
    unfold needsReset at h
    simp [hs] at h

theorem sameClient_resetRow (conn : McpConnectionRow) (client : McpOAuthClient) (revision : Nat)
    (now : Millis) : sameClient (resetRow conn client revision now) client = true :=
  decide_eq_true ⟨rfl, rfl, rfl, rfl, rfl⟩

/-- A consent is published on its own client's row, at a revision not reached by a disconnect. -/
theorem Bound.publish (ht : Tracked s) (hb : Bound s.db s.history) {c : StartCall}
    {row : McpConnectionRow} {disconnects : Nat} (hc : .start c ∈ s.calls)
    (hstage : c.stage = .publishing row disconnects) (hok : c.current s = true) {db : Db}
    {t : McpOAuthTransaction} (ht₁ : t.state_digest = c.stateDigest)
    (ht₂ : t.connection_id = row.id) (ht₃ : t.grant_revision = consentRevision row c.client)
    (hpub : s.db.publishConsent row c.client t s.now = some (true, db))
    (ho : Onward s.db s.history db
      { s.history with
        origins := { stateDigest := c.stateDigest, client := c.client, disconnects } ::
          s.history.origins }) :
    Bound db
      { s.history with
        origins := { stateDigest := c.stateDigest, client := c.client, disconnects } ::
          s.history.origins } := by
  have hs : StartCall.Sound s.db s.history c := ht.calls _ hc
  have hp := publishConsent_published hpub
  obtain ⟨conn, hconn, hcid, hcg⟩ := hp.connection
  obtain ⟨conn₀, hconn₀, hid₀, hle, hsame⟩ :=
    hs.reserved row disconnects (by rw [hstage]; rfl)
  -- the row it stands on after the batch
  have hnew : sameClient conn c.client = true ∧ disconnects = s.history.disconnects := by
    cases hreset : needsReset row c.client with
    | true =>
      by_cases hread : conn₀.grant_revision = row.grant_revision
      · -- nobody moved the row, so the reset made it the client's
        have hconn₁ := hp.reset hreset conn₀ hconn₀ hid₀ hread
        rw [hconn, Option.some.injEq] at hconn₁
        subst hconn₁
        exact ⟨sameClient_resetRow _ _ _ _, (hsame hread).2⟩
      · have hkept : db.connection = s.db.connection := by
          refine hp.kept (.inr ?_)
          intro x hx
          rw [hconn₀, Option.some.injEq] at hx
          rwa [← hx]
        have hconn₁ : conn = conn₀ := by
          rw [hconn, hconn₀, Option.some.injEq] at hkept
          exact hkept
        subst hconn₁
        rw [ht₃, consentRevision_of_needsReset hreset] at hcg
        -- somebody else reached the revision: the condition is about this row
        rw [StartCall.current, hstage] at hok
        simp only [hconn₀, Option.all_some, hreset, hp.alone, hcg] at hok
        simpa using hok
    | false =>
      have hkept := hp.kept (.inl hreset)
      have hconn₁ : conn = conn₀ := by
        rw [hconn, hconn₀, Option.some.injEq] at hkept
        exact hkept
      subst hconn₁
      rw [ht₃, consentRevision, if_neg (by rw [hreset]; intro he; cases he)] at hcg
      obtain ⟨hcore, hd⟩ := hsame hcg
      refine ⟨?_, hd⟩
      rw [hcore.sameClient]
      exact sameClient_of_kept hreset
  exact
    { revisions := by
        intro t' ht' c' hc' hid'
        rcases hp.rows t' ht' with hold | rfl
        · exact (hb.row_onward ht.ledger ho hold rfl rfl rfl hc' hid').1
        · rw [hconn, Option.some.injEq] at hc'
          rw [← hc', hcg]
      rows := by
        intro t' ht' c' hc' hid' hg' o hmem hod
        rcases hp.rows t' ht' with hold | rfl
        · rcases List.mem_cons.mp hmem with rfl | hmem
          · obtain ⟨x, hx, hxd⟩ := ht.ledger.published t' hold
            exact absurd (hxd.trans hod.symm) (hs.fresh x hx)
          · exact (hb.row_onward ht.ledger ho hold rfl rfl rfl hc' hid').2 hg' o hmem hod
        · rw [hconn, Option.some.injEq] at hc'
          subst hc'
          rcases List.mem_cons.mp hmem with rfl | hmem
          · exact hnew
          · exact absurd (hod.trans ht₁) (hs.fresh o hmem)
      settlements := by
        intro e he o hmem hod
        rcases List.mem_cons.mp hmem with rfl | hmem
        · obtain ⟨x, hx, hxd⟩ := ht.ledger.claimsPublished _ (ht.ledger.settledClaimed e he)
          exact absurd (hxd.trans hod.symm) (hs.fresh x hx)
        · exact hb.settlements e he o hmem hod }

/-- A start's other steps publish nothing. -/
theorem bound_start (ht : Tracked s) (hb : Bound s.db s.history) {c : StartCall}
    (hc : .start c ∈ s.calls) (answer : Answer)
    (hok : answer.statement ≠ .failed → c.current s = true) :
    Bound (c.next ownerId s answer).1.db (c.next ownerId s answer).1.history := by
  have hstep : CallStep s (.start c)
      ((c.next ownerId s answer).1, (c.next ownerId s answer).2.map .start) :=
    callStep_start ht hc answer
  have ho := hstep.onward
  revert ho
  unfold StartCall.next
  split
  next =>
    intro ho
    exact hb.fewer ht.ledger ho (same_execute _ _) (fewer_execute (fewer_delete rfl))
  next =>
    intro ho
    refine hb.fewer ht.ledger ho (same_execute _ _) (fewer_execute ?_)
    unfold Db.reserve
    split
    · exact fewer_of_eq rfl
    · exact fewer_of_eq rfl
  next =>
    intro ho
    exact hb.fewer ht.ledger ho (same_execute _ _) (fewer_execute (fewer_delete rfl))
  next row disconnects hstage =>
    dsimp only
    split
    next db hpub =>
      unfold State.execute
      split
      next =>
        intro _
        exact hb
      next hfailed =>
        intro ho
        exact hb.publish ht hc hstage (hok hfailed) rfl rfl rfl hpub ho
    next db hpub =>
      intro ho
      exact hb.fewer ht.ledger ho (same_execute _ _)
        (fewer_execute (fewer_publishConsent_false hpub))
    next =>
      intro _
      exact hb

/-- The transaction that a callback still settles is the one at the revision it read. -/
theorem settles_row (ht : Tracked s) {c : CallbackCall} (hc : .callback c ∈ s.calls)
    {t : McpOAuthTransaction} {k current : McpConnectionRow}
    (hstage : c.stage.transaction = some t) (hconnection : c.stage.connection = some k)
    (hset : s.db.settles t k current s.now = true) :
    ∃ t' ∈ s.db.transactions.rows, t'.state_digest = t.state_digest ∧
      t'.connection_id = current.id ∧ t'.grant_revision = current.grant_revision := by
  have hs : CallbackCall.Sound s.db s.history c := ht.calls _ hc
  unfold Db.settles at hset
  obtain ⟨hid, _, hg, _, hsettleable, _⟩ := of_decide_eq_true hset
  obtain ⟨t', ht', _⟩ := (Option.any_eq_true _ _).mp hsettleable
  have hmem := Table.mem_of_get? ht'
  have hd := Table.key_of_get? ht'
  obtain ⟨hkg, hkid⟩ := hs.connection t k hstage hconnection
  obtain ⟨htg, htid⟩ := hs.rows t hstage t' hmem hd
  exact ⟨t', hmem, hd, htid.trans (hkid.symm.trans hid.symm), htg.trans (hkg.symm.trans hg.symm)⟩

/-- A settlement is of a transaction at the row's revision. -/
theorem Bound.settle (ht : Tracked s) (hb : Bound s.db s.history) {c : CallbackCall}
    (hc : .callback c ∈ s.calls) {t : McpOAuthTransaction} {k : McpConnectionRow}
    {credential : McpCredential} (hstage : c.stage = .settling t k credential) {db : Db}
    (hsettle : s.db.settle t k credential s.now = (true, db)) {granted : List Granted}
    (ho : Onward s.db s.history db
      { s.history with
        settlements :=
          { stateDigest := t.state_digest, claim := c.claim
            disconnects := s.history.disconnects } :: s.history.settlements
        granted }) :
    Bound db
      { s.history with
        settlements :=
          { stateDigest := t.state_digest, claim := c.claim
            disconnects := s.history.disconnects } :: s.history.settlements
        granted } := by
  have hfewer : Fewer s.db db := by
    rw [← (Prod.mk.inj hsettle).2]
    exact fewer_delete rfl
  have hrow : ∃ current, s.db.connection = some current ∧
      s.db.settles t k current s.now = true := by
    have hchanged := (Prod.mk.inj hsettle).1
    exact (Option.any_eq_true _ _).mp hchanged
  obtain ⟨current, hcurrent, hset⟩ := hrow
  exact
    { revisions := by
        intro t' ht' c' hc' hid'
        exact (hb.row_onward ht.ledger ho (hfewer t' ht') rfl rfl rfl hc' hid').1
      rows := by
        intro t' ht' c' hc' hid' hg' o hmem hod
        exact (hb.row_onward ht.ledger ho (hfewer t' ht') rfl rfl rfl hc' hid').2 hg' o hmem hod
      settlements := by
        intro e he o hmem hod
        rcases List.mem_cons.mp he with rfl | he
        · obtain ⟨t', hmem', hd', hid', hg'⟩ :=
            settles_row ht hc (by rw [hstage]; rfl) (by rw [hstage]; rfl) hset
          exact (hb.rows t' hmem' current hcurrent hid' hg' o hmem (hod.trans hd'.symm)).2
        · exact hb.settlements e he o hmem hod }

theorem bound_callback (ht : Tracked s) (hb : Bound s.db s.history) {c : CallbackCall}
    (hc : .callback c ∈ s.calls) (answer : Answer) :
    Bound (c.next assertProfile s answer).1.db (c.next assertProfile s answer).1.history := by
  have hstep : CallStep s (.callback c)
      ((c.next assertProfile s answer).1, (c.next assertProfile s answer).2.map .callback) :=
    callStep_callback ht hc answer
  have ho := hstep.onward
  revert ho
  unfold CallbackCall.next
  split
  next =>
    intro ho
    exact hb.fewer ht.ledger ho (same_execute _ _) (fewer_execute (fewer_delete rfl))
  next =>
    split
    next transaction db hclaim =>
      obtain ⟨_, _, _, _, _, _, _, hrows⟩ := claimTransaction_claimed hclaim
      unfold State.execute
      split
      next =>
        intro _
        exact hb
      next =>
        intro ho
        refine hb.onward ht.ledger ho rfl rfl ?_
        intro t' ht'
        obtain ⟨t, htm, rfl⟩ := hrows t' ht'
        refine ⟨t, htm, ?_⟩
        split
        · exact ⟨rfl, rfl, rfl⟩
        · exact ⟨rfl, rfl, rfl⟩
    next =>
      intro _
      exact hb
  next =>
    intro _
    exact hb
  next =>
    intro _
    exact hb
  next transaction connection credential hstage =>
    split
    next db hsettle =>
      unfold State.execute
      split
      next =>
        intro _
        exact hb
      next =>
        intro ho
        exact hb.settle ht hc hstage hsettle ho
    next db hsettle =>
      intro ho
      refine hb.fewer ht.ledger ho (same_execute _ _) (fewer_execute ?_)
      rw [← (Prod.mk.inj hsettle).2]
      exact fewer_delete rfl
  next =>
    intro ho
    exact hb.fewer ht.ledger ho (same_execute _ _) (fewer_execute (fewer_delete rfl))

theorem bound_call (ht : Tracked s) (hb : Bound s.db s.history) {c : Call} (hc : c ∈ s.calls)
    (answer : Answer)
    (hok : answer.statement ≠ .failed → c.current s = true) :
    Bound (c.next assertProfile ownerId s answer).1.db
      (c.next assertProfile ownerId s answer).1.history := by
  cases c with
  | start c => exact bound_start ht hb hc answer hok
  | callback c => exact bound_callback ht hb hc answer
  | credential c =>
    have hr : Refreshing s (c.next assertProfile s answer).1 := refreshing_credential c answer
    have hstep : CallStep s (.credential c)
        ((c.next assertProfile s answer).1, (c.next assertProfile s answer).2.map .credential) :=
      callStep_credential ht c answer
    exact hb.fewer ht.ledger hstep.onward hr.history (fewer_of_eq hr.transactions)

/-- Nothing that is bound changes. -/
theorem Bound.same (hb : Bound s.db s.history) {t : State}
    (hc : t.db.connection = s.db.connection) (htr : t.db.transactions = s.db.transactions)
    (hh : SameLedger s.history t.history)
    (hd : t.history.disconnects = s.history.disconnects) (hl : Ledger s.db s.history) :
    Bound t.db t.history :=
  hb.fewer hl (.of_fewer hh.digests hh.origins (.of_eq hc) hd (fewer_of_eq htr)) hh
    (fewer_of_eq htr)

theorem Bound.step (ht : Tracked s) (hb : Bound s.db s.history) {a : Act} {t : State}
    (hok : ConsentCurrent s a) (h : s.step assertProfile ownerId a = some t) :
    Bound t.db t.history := by
  have hsame : SameLedger s.history s.history := .refl _
  have hl := ht.ledger
  cases a with
  | start browserSessionId client stateDigest verifier =>
    simp only [State.step] at h
    split at h
    next => cases h
    next =>
      cases h
      exact hb.same rfl rfl ⟨rfl, fun _ hd => List.mem_cons_of_mem _ hd, rfl, rfl⟩ rfl hl
  | callback owner browserSessionId stateDigest iss =>
    cases h
    exact hb
  | credential binding =>
    cases h
    exact hb
  | next i answer =>
    obtain ⟨c, hi, rfl⟩ := Option.map_eq_some_iff.mp h
    refine bound_call ht hb (List.mem_of_getElem? hi) answer ?_
    intro hf
    rcases hok with hfailed | hcurrent
    · exact absurd hfailed hf
    · rwa [hi, Option.all_some] at hcurrent
  | crash i =>
    obtain ⟨c, hi, rfl⟩ := Option.map_eq_some_iff.mp h
    exact hb
  | disconnect =>
    cases h
    exact hb.fewer hl (disconnect_onward (some ownerId)) ⟨rfl, fun _ hd => hd, rfl, rfl⟩
      (fewer_delete rfl)
  | disconnectServer =>
    cases h
    exact hb.fewer hl (disconnect_onward none) ⟨rfl, fun _ hd => hd, rfl, rfl⟩ (fewer_delete rfl)
  | editServer bump enabled =>
    cases h
    exact hb.same rfl rfl hsame rfl hl
  | signIn session =>
    obtain ⟨sessions, _, rfl⟩ := Option.map_eq_some_iff.mp h
    exact hb.same rfl rfl hsame rfl hl
  | signOut sessionId =>
    cases h
    exact hb.same rfl rfl hsame rfl hl
  | suspend userId =>
    cases h
    exact hb.same rfl rfl hsame rfl hl
  | unsuspend userId =>
    cases h
    exact hb.same rfl rfl hsame rfl hl
  | tick now =>
    simp only [State.step] at h
    split at h
    next =>
      cases h
      exact hb
    next => cases h

/-- What a step leaves of what calls have in hand. -/
theorem onward_step (ht : Tracked s) {a : Act} {t : State}
    (h : s.step assertProfile ownerId a = some t) : Onward s.db s.history t.db t.history := by
  have hrefl := Onward.refl s.db s.history
  cases a with
  | start browserSessionId client stateDigest verifier =>
    simp only [State.step] at h
    split at h
    next => cases h
    next =>
      cases h
      exact .of_fewer (fun _ hd => List.mem_cons_of_mem _ hd) rfl (.of_eq rfl) rfl fun _ hx => hx
  | callback owner browserSessionId stateDigest iss =>
    cases h
    exact hrefl
  | credential binding =>
    cases h
    exact hrefl
  | next i answer =>
    obtain ⟨c, hi, rfl⟩ := Option.map_eq_some_iff.mp h
    have hstep : CallStep s c (c.next assertProfile ownerId s answer) :=
      callStep ht (List.mem_of_getElem? hi) answer
    exact hstep.onward
  | crash i =>
    obtain ⟨c, hi, rfl⟩ := Option.map_eq_some_iff.mp h
    exact hrefl
  | disconnect =>
    cases h
    exact disconnect_onward (some ownerId)
  | disconnectServer =>
    cases h
    exact disconnect_onward none
  | editServer bump enabled =>
    cases h
    exact .of_fewer (fun _ hd => hd) rfl (.of_eq rfl) rfl fun _ hx => hx
  | signIn session =>
    obtain ⟨sessions, _, rfl⟩ := Option.map_eq_some_iff.mp h
    exact .of_fewer (fun _ hd => hd) rfl (.of_eq rfl) rfl fun _ hx => hx
  | signOut sessionId =>
    cases h
    exact .of_fewer (fun _ hd => hd) rfl (.of_eq rfl) rfl fun _ hx => hx
  | suspend userId =>
    cases h
    exact .of_fewer (fun _ hd => hd) rfl (.of_eq rfl) rfl fun _ hx => hx
  | unsuspend userId =>
    cases h
    exact .of_fewer (fun _ hd => hd) rfl (.of_eq rfl) rfl fun _ hx => hx
  | tick now =>
    simp only [State.step] at h
    split at h
    next =>
      cases h
      exact hrefl
    next => cases h

/-- A settlement raises the revision of the row it connects. -/
def Settles (s t : State) : Prop :=
  t.history.settlements = s.history.settlements ∨
    ∃ c c', s.db.connection = some c ∧ t.db.connection = some c' ∧
      c'.grant_revision = c.grant_revision + 1 ∧ c'.status = .connected

theorem settles_callback (c : CallbackCall) (answer : Answer) :
    Settles s (c.next assertProfile s answer).1 := by
  have hexecute : ∀ db, Settles s (s.execute answer db s.history) := by
    intro db
    left
    rw [history_execute]
  have hsame : Settles s s := .inl rfl
  unfold CallbackCall.next
  split
  next => exact hexecute _
  next =>
    split
    next =>
      unfold State.execute
      split
      next => exact hsame
      next => exact .inl rfl
    next => exact hsame
  next => exact hsame
  next => exact hsame
  next transaction connection credential _ =>
    split
    next db hsettle =>
      obtain ⟨⟨row, hrow, _, hg, hdb⟩, _⟩ := settle_settled hsettle
      unfold State.execute
      split
      next => exact hsame
      next =>
        right
        refine ⟨row, _, hrow, hdb, ?_, rfl⟩
        rw [hg]
        rfl
    next => exact hexecute _
  next => exact hexecute _

theorem settlements_start (c : StartCall) (answer : Answer) :
    (c.next ownerId s answer).1.history.settlements = s.history.settlements := by
  unfold StartCall.next
  split
  next => rw [history_execute]
  next => dsimp only; rw [history_execute]
  next => rw [history_execute]
  next =>
    dsimp only
    split
    next =>
      unfold State.execute
      split
      next => rfl
      next => rfl
    next => rw [history_execute]
    next => rfl

theorem settles_call (c : Call) (answer : Answer) :
    Settles s (c.next assertProfile ownerId s answer).1 := by
  cases c with
  | start c => exact .inl (settlements_start c answer)
  | callback c => exact settles_callback c answer
  | credential c =>
    have hr : Refreshing s (c.next assertProfile s answer).1 := refreshing_credential c answer
    exact .inl hr.history.settlements

theorem settles_step {a : Act} {t : State}
    (h : s.step assertProfile ownerId a = some t) : Settles s t := by
  have hsame : Settles s s := .inl rfl
  cases a with
  | start browserSessionId client stateDigest verifier =>
    simp only [State.step] at h
    split at h
    next => cases h
    next =>
      cases h
      exact .inl rfl
  | next i answer =>
    obtain ⟨c, hi, rfl⟩ := Option.map_eq_some_iff.mp h
    exact settles_call c answer
  | crash i =>
    obtain ⟨c, hi, rfl⟩ := Option.map_eq_some_iff.mp h
    exact hsame
  | signIn session =>
    obtain ⟨sessions, _, rfl⟩ := Option.map_eq_some_iff.mp h
    exact .inl rfl
  | tick now =>
    simp only [State.step] at h
    split at h
    next =>
      cases h
      exact .inl rfl
    next => cases h
  | _ =>
    cases h
    exact .inl rfl

end

/-! ## Every run -/

/-- What a step does to the connection: nothing that settles or disconnects leaves its revision. -/
structure ConsentStep (s t : State) : Prop where
  later : ∀ c, s.db.connection = some c → ∃ c', t.db.connection = some c' ∧ Later c c' ∧
    (c'.grant_revision = c.grant_revision →
      t.history.settlements = s.history.settlements ∧
        t.history.disconnects = s.history.disconnects)

/-- A transaction is published, claimed and settled once, by the callback that claimed it; a reset
raises the revision. -/
structure ConsentOnce (s : State) : Prop where
  origins : (s.history.origins.map (·.stateDigest)).Nodup
  claims : (s.history.claims.map (·.1)).Nodup
  settlements : (s.history.settlements.map (·.stateDigest)).Nodup
  claimed : ∀ e ∈ s.history.settlements, (e.stateDigest, e.claim) ∈ s.history.claims
  resets : ∀ row client now c c', needsReset row client = true → s.db.connection = some c →
    (s.db.prepareConsent row client now).connection = some c' →
      c' = c ∨ c'.grant_revision = c.grant_revision + 1 ∧ sameClient c' client = true

/-- What may still be claimed or settled is what its start asked for, and nothing was settled over
a disconnect. -/
structure ConsentSafe (s : State) : Prop where
  claimable : ∀ t ∈ s.db.transactions.rows, ∀ owner session now,
    s.db.claimable t owner session now = true →
      ∃ o ∈ s.history.origins, o.stateDigest = t.state_digest ∧
        ∃ c, s.db.connection = some c ∧ c.id = t.connection_id ∧ sameClient c o.client = true
  settling : ∀ c, .callback c ∈ s.calls → ∀ t k current, c.stage.transaction = some t →
    c.stage.connection = some k → s.db.connection = some current →
      s.db.settles t k current s.now = true →
        ∃ o ∈ s.history.origins, o.stateDigest = t.state_digest ∧
          sameClient current o.client = true
  settled : ∀ e ∈ s.history.settlements, ∃ o ∈ s.history.origins,
    o.stateDigest = e.stateDigest ∧ o.disconnects = e.disconnects

section

variable {assertProfile : String → String → String → Bool} {ownerId : String} {s : State}

theorem Tracked.once (ht : Tracked s) : ConsentOnce s :=
  { ht.ledger with
    claimed := ht.ledger.settledClaimed
    resets := by
      intro row client now c c' hreset hc hc'
      rw [Db.prepareConsent, if_pos hreset] at hc'
      simp only [Db.resetConnection, hc, Option.map_some, Option.some.injEq] at hc'
      split at hc'
      next hg =>
        right
        subst hc'
        refine ⟨?_, sameClient_resetRow _ _ _ _⟩
        rw [hg.2.1]
        exact consentRevision_of_needsReset hreset
      next => exact .inl hc'.symm }

theorem Tracked.consentStep (ht : Tracked s) {a : Act} {t : State}
    (h : s.step assertProfile ownerId a = some t) : ConsentStep s t where
  later c hc := by
    obtain ⟨c', hc', hmove⟩ := moves_step h c hc
    refine ⟨c', hc', hmove.later, ?_⟩
    intro hg
    refine ⟨?_, (onward_step ht h).disconnects c c' hc hc' hg⟩
    rcases settles_step h with hsame | ⟨x, x', hx, hx', hraised, _⟩
    · exact hsame
    · rw [hc, Option.some.injEq] at hx
      rw [hc', Option.some.injEq] at hx'
      subst hx hx'
      omega

theorem Bound.safe (ht : Tracked s) (hb : Bound s.db s.history) : ConsentSafe s where
  claimable t hmem owner session now hcl := by
    unfold Db.claimable at hcl
    obtain ⟨_, _, _, _, _, _, hc⟩ := of_decide_eq_true hcl
    obtain ⟨c, hconn, hp⟩ := (Option.any_eq_true _ _).mp hc
    obtain ⟨hid, hg, _⟩ := of_decide_eq_true hp
    obtain ⟨o, ho, hod⟩ := ht.ledger.published t hmem
    exact ⟨o, ho, hod, c, hconn, hid, (hb.rows t hmem c hconn hid.symm hg.symm o ho hod).1⟩
  settling c hc t k current hstage hconnection hcurrent hset := by
    have hs : CallbackCall.Sound s.db s.history c := ht.calls _ hc
    obtain ⟨o, ho, hod⟩ := hs.published t hstage
    obtain ⟨t', hmem, hd, hid, hg⟩ := settles_row ht hc hstage hconnection hset
    exact ⟨o, ho, hod, (hb.rows t' hmem current hcurrent hid hg o ho (hod.trans hd.symm)).1⟩
  settled e he := by
    obtain ⟨o, ho, hod⟩ := ht.ledger.claimsPublished _ (ht.ledger.settledClaimed e he)
    exact ⟨o, ho, hod, hb.settlements e he o ho hod⟩

theorem tracked_initial (server : McpServer) (sessions : Table AuthSession.id)
    (suspended : List String) (now : Millis) :
    Tracked (State.initial server sessions suspended now) where
  ledger :=
    { absent := fun _ => rfl
      origins := List.nodup_nil
      drawn := fun _ ho => by cases ho
      published := fun _ ht => by cases ht
      claims := List.nodup_nil
      claimsPublished := fun _ hp => by cases hp
      pending := fun _ ht => by cases ht
      claimed := fun _ ht => by cases ht
      settlements := List.nodup_nil
      settledClaimed := fun _ he => by cases he
      settledGone := fun _ he => by cases he }
  calls _ hc := by cases hc
  distinct := .nil

theorem bound_initial (server : McpServer) (sessions : Table AuthSession.id)
    (suspended : List String) (now : Millis) :
    Bound (State.initial server sessions suspended now).db History.empty where
  revisions _ ht := by cases ht
  rows _ ht := by cases ht
  settlements _ he := by cases he

end

/-- **A consent connects what was consented to, once.** In every run transactions are settled once,
by the callback that claimed them, and revisions only rise. Where no consent that resets publishes
at a revision somebody else has reached, every transaction still accepted is for the row's client,
and no disconnect came before its settlement. -/
theorem consent_connects (assertProfile : String → String → String → Bool) (ownerId : String)
    (server : McpServer) (sessions : Table AuthSession.id) (suspended : List String)
    (now : Millis) (s : State) :
    ((oauthSystem assertProfile ownerId).Reachable anyStep
        (State.initial server sessions suspended now) s →
      ConsentOnce s ∧
        ∀ a t, (oauthSystem assertProfile ownerId).step s a = some t → ConsentStep s t) ∧
      ((oauthSystem assertProfile ownerId).Reachable ConsentCurrent
          (State.initial server sessions suspended now) s → ConsentSafe s) := by
  constructor
  · intro h
    have ht : Tracked s := h.inv Tracked (tracked_initial server sessions suspended now)
      fun _ _ _ hi _ hstep => hi.step hstep
    exact ⟨ht.once, fun _ _ hstep => ht.consentStep hstep⟩
  · intro h
    have hi : Tracked s ∧ Bound s.db s.history :=
      h.inv (fun s => Tracked s ∧ Bound s.db s.history)
        ⟨tracked_initial server sessions suspended now,
          bound_initial server sessions suspended now⟩
        fun _ _ _ hi hok hstep => ⟨hi.1.step hstep, hi.2.step hi.1 hok hstep⟩
    exact hi.2.safe hi.1

/-- An enabled server, and a browser session of its user. -/
def sampleServer : McpServer where
  id := "files"
  auth_revision := 1
  enabled := true

def sampleSessions : Table AuthSession.id where
  rows := [{ id := "browser", userId := "user", expiresAt := 1000000000 }]
  nodup := List.nodup_singleton _

def sampleClient (clientId : String) : McpOAuthClient where
  server_id := "files"
  auth_revision := 1
  issuer := "https://issuer.example"
  resource := "https://files.example/mcp"
  client_id := clientId
  redirect_uri := "https://agents.example/callback"
  token_endpoint := "https://issuer.example/token"

/-- An answer of D1, and a token grant. -/
def answered : Answer where
  statement := .ok
  credential := some { accessToken := "access", refreshToken := none, expiresAt := none }

def sampleSystem : System State Act := oauthSystem (fun _ _ _ => true) "user"

def sampleInitial : State := .initial sampleServer sampleSessions [] 0

/-- A start that runs through, as the first call. -/
def startRuns (clientId stateDigest : String) : List Act :=
  [.start "browser" (sampleClient clientId) stateDigest "verifier", .next 0 answered,
    .next 0 answered, .next 0 answered, .next 0 answered]

def callbackRuns (stateDigest : String) : List Act :=
  [.callback "user" "browser" stateDigest none, .next 0 answered, .next 0 answered,
    .next 0 answered, .next 0 answered, .next 0 answered]

/-- A consent of one client is replaced by another's, which is settled. -/
theorem consent_connects_settled : ∃ s, sampleSystem.Reachable ConsentCurrent sampleInitial s ∧
    s.history.settlements ≠ [] ∧ ConsentOnce s ∧ ConsentSafe s := by
  have hrun : (sampleSystem.run ConsentCurrent sampleInitial
      (startRuns "first" "a" ++ startRuns "second" "b" ++ callbackRuns "b")).any (fun s =>
        decide (s.history.settlements ≠ [])) = true := by
    decide +kernel
  obtain ⟨s, hs, hp⟩ := (Option.any_eq_true _ _).mp hrun
  have hreach := System.run_reachable hs
  have hsafe := consent_connects (fun _ _ _ => true) "user" sampleServer sampleSessions [] 0 s
  exact ⟨s, hreach, of_decide_eq_true hp, (hsafe.1 (hreach.mono fun _ _ _ => trivial)).1,
    hsafe.2 hreach⟩

/-- A start that has read the row waits to publish while the owner disconnects. -/
def overtaken : List Act :=
  startRuns "first" "a" ++
    [.start "browser" (sampleClient "second") "b" "verifier", .next 0 answered, .next 0 answered,
      .next 0 answered, .disconnect, .next 0 answered]

/-- **A disconnect can take the revision that a reset was to reach.** The reset then misses and the
transaction is published: a consent for one client stands on the row of another, and settles after
the disconnect. -/
theorem consent_overtaken :
    (∃ s, sampleSystem.Reachable anyStep sampleInitial s ∧
      ∃ t ∈ s.db.transactions.rows, s.db.claimable t "user" "browser" s.now = true ∧
        ∃ o ∈ s.history.origins, o.stateDigest = t.state_digest ∧
          ∃ c, s.db.connection = some c ∧ sameClient c o.client = false) ∧
      ∃ s, sampleSystem.Reachable anyStep sampleInitial s ∧
        ∃ e ∈ s.history.settlements, ∃ o ∈ s.history.origins,
          o.stateDigest = e.stateDigest ∧ o.disconnects < e.disconnects := by
  constructor
  · have hrun : (sampleSystem.run anyStep sampleInitial overtaken).any (fun s =>
        s.db.transactions.rows.any fun t => s.db.claimable t "user" "browser" s.now &&
          s.history.origins.any fun o => decide (o.stateDigest = t.state_digest) &&
            s.db.connection.any fun c => !sameClient c o.client) = true := by
      decide +kernel
    obtain ⟨s, hs, hp⟩ := (Option.any_eq_true _ _).mp hrun
    obtain ⟨t, ht, hp⟩ := List.any_eq_true.mp hp
    rw [Bool.and_eq_true] at hp
    obtain ⟨o, ho, hq⟩ := List.any_eq_true.mp hp.2
    rw [Bool.and_eq_true, decide_eq_true_eq] at hq
    obtain ⟨c, hc, hd⟩ := (Option.any_eq_true _ _).mp hq.2
    rw [Bool.not_eq_true'] at hd
    exact ⟨s, System.run_reachable hs, t, ht, hp.1, o, ho, hq.1, c, hc, hd⟩
  · have hrun : (sampleSystem.run anyStep sampleInitial (overtaken ++ callbackRuns "b")).any
        (fun s => s.history.settlements.any fun e => s.history.origins.any fun o =>
          o.stateDigest = e.stateDigest ∧ o.disconnects < e.disconnects) = true := by
      decide +kernel
    obtain ⟨s, hs, hp⟩ := (Option.any_eq_true _ _).mp hrun
    obtain ⟨e, he, hp⟩ := List.any_eq_true.mp hp
    obtain ⟨o, ho, hq⟩ := List.any_eq_true.mp hp
    obtain ⟨hd, hlt⟩ := of_decide_eq_true hq
    exact ⟨s, System.run_reachable hs, e, he, o, ho, hd, hlt⟩

end BackgroundAgents.Mcp

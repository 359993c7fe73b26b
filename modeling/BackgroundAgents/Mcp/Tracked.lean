import BackgroundAgents.Mcp.Ledger

/-!
# What calls have in hand

A start holds the row it reserved and a callback the transaction it claimed;
`Onward` is what any step leaves of them. `Tracked` is preserved by every step.
-/

namespace BackgroundAgents.Mcp

open Transition

/-! ## What a call has in hand -/

/-- The row that a start has read, with the disconnects before. -/
def StartStage.reserved : StartStage → Option (McpConnectionRow × Nat)
  | .clearing row disconnects => some (row, disconnects)
  | .publishing row disconnects => some (row, disconnects)
  | .pruning => none
  | .reserving => none

/-- The transaction that a callback has claimed. -/
def CallbackStage.transaction : CallbackStage → Option McpOAuthTransaction
  | .reading transaction => some transaction
  | .exchanging transaction _ => some transaction
  | .settling transaction _ _ => some transaction
  | .failing transaction => some transaction
  | .pruning => none
  | .claiming => none

/-- The connection that it has read for it. -/
def CallbackStage.connection : CallbackStage → Option McpConnectionRow
  | .exchanging _ connection => some connection
  | .settling _ connection _ => some connection
  | .reading _ => none
  | .failing _ => none
  | .pruning => none
  | .claiming => none

structure StartCall.Sound (db : Db) (h : History) (c : StartCall) : Prop where
  drawn : c.stateDigest ∈ h.digests
  fresh : ∀ o ∈ h.origins, o.stateDigest ≠ c.stateDigest
  reserved : ∀ row disconnects, c.stage.reserved = some (row, disconnects) →
    ∃ conn, db.connection = some conn ∧ conn.id = row.id ∧
      row.grant_revision ≤ conn.grant_revision ∧
      (conn.grant_revision = row.grant_revision →
        SameCore row conn ∧ disconnects = h.disconnects)

structure CallbackCall.Sound (db : Db) (h : History) (c : CallbackCall) : Prop where
  owner : ∀ t, c.stage.transaction = some t → t.claim_owner = some c.claim
  published : ∀ t, c.stage.transaction = some t → ∃ o ∈ h.origins, o.stateDigest = t.state_digest
  rows : ∀ t, c.stage.transaction = some t → ∀ t' ∈ db.transactions.rows,
    t'.state_digest = t.state_digest →
      t'.grant_revision = t.grant_revision ∧ t'.connection_id = t.connection_id
  connection : ∀ t k, c.stage.transaction = some t → c.stage.connection = some k →
    k.grant_revision = t.grant_revision ∧ k.id = t.connection_id

def Call.Sound (db : Db) (h : History) : Call → Prop
  | .start c => c.Sound db h
  | .callback c => c.Sound db h
  | .credential _ => True

/-- Two starts have their own states. -/
def Call.Distinct (c d : Call) : Prop :=
  ∀ x y, c = .start x → d = .start y → x.stateDigest ≠ y.stateDigest

theorem Call.Distinct.symm {c d : Call} (h : c.Distinct d) : d.Distinct c := by
  intro x y hx hy
  exact (h y x hy hx).symm

/-- What a step leaves of what others have in hand. -/
structure Onward (db : Db) (h : History) (db' : Db) (h' : History) : Prop where
  digests : ∀ d ∈ h.digests, d ∈ h'.digests
  origins : ∀ o ∈ h.origins, o ∈ h'.origins
  moves : Moves db db'
  disconnects : ∀ c c', db.connection = some c → db'.connection = some c' →
    c'.grant_revision = c.grant_revision → h'.disconnects = h.disconnects
  rows : ∀ t' ∈ db'.transactions.rows,
    (∃ t ∈ db.transactions.rows, t.state_digest = t'.state_digest ∧
      t.connection_id = t'.connection_id ∧ t.grant_revision = t'.grant_revision) ∨
    ∀ o ∈ h.origins, o.stateDigest ≠ t'.state_digest

section

variable {db db' : Db} {h h' : History}

theorem Onward.of_fewer (hd : ∀ d ∈ h.digests, d ∈ h'.digests) (ho : h'.origins = h.origins)
    (hm : Moves db db') (hdis : h'.disconnects = h.disconnects) (hf : Fewer db db') :
    Onward db h db' h' where
  digests := hd
  origins o hmem := by
    rw [ho]
    exact hmem
  moves := hm
  disconnects _ _ _ _ _ := hdis
  rows t' ht' := .inl ⟨t', hf t' ht', rfl, rfl, rfl⟩

theorem Onward.refl (db : Db) (h : History) : Onward db h db h :=
  .of_fewer (fun _ hd => hd) rfl (.of_eq rfl) rfl fun _ ht => ht

theorem StartCall.Sound.onward {c : StartCall} (hs : c.Sound db h) (ho : Onward db h db' h')
    (hfresh : ∀ o ∈ h'.origins, o ∈ h.origins ∨ o.stateDigest ≠ c.stateDigest) :
    c.Sound db' h' where
  drawn := ho.digests _ hs.drawn
  fresh o hmem := by
    rcases hfresh o hmem with hold | hne
    · exact hs.fresh o hold
    · exact hne
  reserved row disconnects hr := by
    obtain ⟨conn, hconn, hid, hle, hsame⟩ := hs.reserved row disconnects hr
    obtain ⟨conn', hconn', hmove⟩ := ho.moves conn hconn
    have hlater := hmove.later
    refine ⟨conn', hconn', hlater.id.trans hid, Nat.le_trans hle hlater.grant_revision, ?_⟩
    intro hg
    have hge := hlater.grant_revision
    have hg₀ : conn.grant_revision = row.grant_revision := by omega
    have hg₁ : conn'.grant_revision = conn.grant_revision := by omega
    obtain ⟨hcore, hd⟩ := hsame hg₀
    exact ⟨hcore.trans (hlater.core hg₁), hd.trans (ho.disconnects conn conn' hconn hconn' hg₁).symm⟩

theorem CallbackCall.Sound.onward {c : CallbackCall} (hs : c.Sound db h)
    (ho : Onward db h db' h') : c.Sound db' h' where
  owner := hs.owner
  published x hx := by
    obtain ⟨o, hmem, hd⟩ := hs.published x hx
    exact ⟨o, ho.origins o hmem, hd⟩
  rows x hx t' ht' hd := by
    rcases ho.rows t' ht' with ⟨t₀, ht₀, hd₀, hid₀, hg₀⟩ | hnew
    · obtain ⟨hg, hid⟩ := hs.rows x hx t₀ ht₀ (hd₀.trans hd)
      exact ⟨hg₀.symm.trans hg, hid₀.symm.trans hid⟩
    · obtain ⟨o, hmem, ho'⟩ := hs.published x hx
      exact absurd (ho'.trans hd.symm) (hnew o hmem)
  connection := hs.connection

theorem Call.Sound.onward {c : Call} (hs : c.Sound db h) (ho : Onward db h db' h')
    (hfresh : ∀ x, c = .start x →
      ∀ o ∈ h'.origins, o ∈ h.origins ∨ o.stateDigest ≠ x.stateDigest) : c.Sound db' h' := by
  cases c with
  | start x => exact StartCall.Sound.onward hs ho (hfresh x rfl)
  | callback x => exact CallbackCall.Sound.onward hs ho
  | credential x => trivial

end

/-! ## Tracked states -/

structure Tracked (s : State) : Prop where
  ledger : Ledger s.db s.history
  calls : ∀ c ∈ s.calls, c.Sound s.db s.history
  distinct : s.calls.Pairwise Call.Distinct

/-- What one step of a call does, to the store and to the call itself. -/
structure CallStep (s : State) (c : Call) (moved : State × Option Call) : Prop where
  onward : Onward s.db s.history moved.1.db moved.1.history
  ledger : Ledger moved.1.db moved.1.history
  sound : ∀ d, moved.2 = some d → d.Sound moved.1.db moved.1.history
  own : ∀ x, moved.2 = some (.start x) → ∃ y, c = .start y ∧ x.stateDigest = y.stateDigest
  origins : ∀ o ∈ moved.1.history.origins, o ∈ s.history.origins ∨
    ∃ y, c = .start y ∧ o.stateDigest = y.stateDigest

section

variable {assertProfile : String → String → String → Bool} {ownerId : String} {s : State}

/-- A step that publishes, claims and settles nothing. -/
theorem CallStep.fewer (ht : Tracked s) {c : Call} {moved : State × Option Call}
    (hm : Moves s.db moved.1.db) (hf : Fewer s.db moved.1.db)
    (hh : SameLedger s.history moved.1.history)
    (hdis : moved.1.history.disconnects = s.history.disconnects)
    (hsound : ∀ d, moved.2 = some d →
      Onward s.db s.history moved.1.db moved.1.history → d.Sound moved.1.db moved.1.history)
    (hown : ∀ x, moved.2 = some (.start x) → ∃ y, c = .start y ∧ x.stateDigest = y.stateDigest) :
    CallStep s c moved := by
  have ho : Onward s.db s.history moved.1.db moved.1.history :=
    .of_fewer hh.digests hh.origins hm hdis hf
  exact
    { onward := ho
      ledger := ht.ledger.fewer hm hf hh
      sound := fun d hd => hsound d hd ho
      own := hown
      origins := by
        intro o hmem
        rw [hh.origins] at hmem
        exact .inl hmem }

variable {db : Db}

theorem fewer_execute {answer : Answer} {history : History} (h : Fewer s.db db) :
    Fewer s.db (s.execute answer db history).db := by
  unfold State.execute
  split
  · exact fun _ ht => ht
  · exact h

theorem history_execute (answer : Answer) (db : Db) :
    (s.execute answer db s.history).history = s.history := by
  unfold State.execute
  split
  · rfl
  · rfl

theorem same_execute (answer : Answer) (db : Db) :
    SameLedger s.history (s.execute answer db s.history).history := by
  rw [history_execute]
  exact .refl _

/-- The next stage of a start that has read no more than before. -/
theorem StartCall.Sound.stage {h : History} {c : StartCall} (hs : c.Sound db h) {stage : StartStage}
    (hr : stage.reserved = none ∨ stage.reserved = c.stage.reserved) :
    { c with stage }.Sound db h where
  drawn := hs.drawn
  fresh := hs.fresh
  reserved row disconnects he := by
    rcases hr with hr | hr
    · rw [hr] at he
      cases he
    · exact hs.reserved row disconnects (hr ▸ he)

variable {c : CallbackCall}

/-- The next stage of a callback that has claimed and read no more than before. -/
theorem CallbackCall.Sound.stage {h : History} (hs : c.Sound db h) {stage : CallbackStage}
    (ht : stage.transaction = none ∨ stage.transaction = c.stage.transaction)
    (hk : stage.connection = none ∨ stage.connection = c.stage.connection) :
    { c with stage }.Sound db h := by
  have htransaction : ∀ t, stage.transaction = some t → c.stage.transaction = some t := by
    intro t he
    rcases ht with ht | ht
    · rw [ht] at he
      cases he
    · exact ht ▸ he
  exact
    { owner := fun t he => hs.owner t (htransaction t he)
      published := fun t he => hs.published t (htransaction t he)
      rows := fun t he => hs.rows t (htransaction t he)
      connection := by
        intro t k he hke
        rcases hk with hk | hk
        · dsimp only at hke
          rw [hk] at hke
          cases hke
        · exact hs.connection t k (htransaction t he) (hk ▸ hke) }

/-- The row that is returned is the row as it was written. -/
theorem reserve_connection {connectionId : Nat} {client : McpOAuthClient} {now : Millis}
    {row : McpConnectionRow} (h : (db.reserve connectionId ownerId client now).1 = some row) :
    (db.reserve connectionId ownerId client now).2.connection = some row := by
  by_cases hs : db.serverAt client.server_id client.auth_revision = true
  · simp only [Db.reserve, if_pos hs] at h ⊢
    exact h
  · simp only [Db.reserve, if_neg hs] at h
    cases h

theorem callStep_start (ht : Tracked s) {c : StartCall} (hc : .start c ∈ s.calls)
    (answer : Answer) :
    CallStep s (.start c)
      ((c.next ownerId s answer).1, (c.next ownerId s answer).2.map .start) := by
  have hs : c.Sound s.db s.history := ht.calls _ hc
  unfold StartCall.next
  split
  next hstage =>
    refine .fewer ht (moves_execute (.of_eq rfl)) (fewer_execute (fewer_delete rfl))
      (same_execute _ _) (by rw [history_execute]) ?_ ?_
    · intro d hd ho
      split at hd
      next =>
        cases hd
        refine StartCall.Sound.stage (hs.onward ho ?_) (.inl rfl)
        intro o hmem
        rw [history_execute] at hmem
        exact .inl hmem
      next => cases hd
    · intro x hx
      split at hx
      next =>
        cases hx
        exact ⟨c, rfl, rfl⟩
      next => cases hx
  next hstage =>
    refine .fewer ht (moves_execute (moves_reserve _ _ _ _ _)) (fewer_execute ?_)
      (same_execute _ _) (by dsimp only; rw [history_execute]) ?_ ?_
    · unfold Db.reserve
      split
      · exact fewer_of_eq rfl
      · exact fewer_of_eq rfl
    · intro d hd ho
      dsimp only at hd ho ⊢
      split at hd
      next hok =>
        have hexec : s.execute answer (s.db.reserve s.drawn ownerId c.client s.now).2 s.history =
            { s with db := (s.db.reserve s.drawn ownerId c.client s.now).2 } := by
          rw [State.execute, if_neg (by rw [hok]; intro he; cases he)]
        rw [hexec]
        rw [Option.map_map, Option.map_eq_some_iff] at hd
        obtain ⟨row, hrow, rfl⟩ := hd
        -- the row that `begin` gets back is the one it has just written
        have hconn := reserve_connection hrow
        exact
          { hs with
            reserved := by
              intro row' disconnects he
              cases he
              exact ⟨row, hconn, rfl, Nat.le_refl _, fun _ => ⟨.refl row, rfl⟩⟩ }
      next => cases hd
    · intro x hx
      dsimp only at hx
      split at hx
      next =>
        rw [Option.map_map, Option.map_eq_some_iff] at hx
        obtain ⟨row, _, he⟩ := hx
        cases he
        exact ⟨c, rfl, rfl⟩
      next => cases hx
  next row disconnects hstage =>
    refine .fewer ht (moves_execute (.of_eq rfl)) (fewer_execute (fewer_delete rfl))
      (same_execute _ _) (by rw [history_execute]) ?_ ?_
    · intro d hd ho
      split at hd
      next =>
        cases hd
        refine StartCall.Sound.stage (hs.onward ho ?_) (.inr ?_)
        · intro o hmem
          rw [history_execute] at hmem
          exact .inl hmem
        · rw [hstage]
          rfl
      next => cases hd
    · intro x hx
      split at hx
      next =>
        cases hx
        exact ⟨c, rfl, rfl⟩
      next => cases hx
  next row disconnects hstage =>
    dsimp only
    split
    next db hpub =>
      have hp := publishConsent_published hpub
      unfold State.execute
      split
      next =>
        exact .fewer ht (.of_eq rfl) (fun _ h => h) (.refl _) rfl (fun _ h => by cases h)
          fun _ h => by cases h
      next =>
        obtain ⟨conn, hconn, _, _⟩ := hp.connection
        exact
          { onward :=
              { digests := fun _ hd => hd
                origins := fun _ ho => List.mem_cons_of_mem _ ho
                moves := moves_publishConsent hpub
                disconnects := fun _ _ _ _ _ => rfl
                rows := by
                  intro t' ht'
                  rcases hp.rows t' ht' with hold | rfl
                  · exact .inl ⟨t', hold, rfl, rfl, rfl⟩
                  · exact .inr hs.fresh }
            ledger := by
              refine ht.ledger.publish hp.rows ?_ rfl hs.drawn hs.fresh rfl
              rw [hconn]
              intro he
              cases he
            sound := fun _ h => by cases h
            own := fun _ h => by cases h
            origins := by
              intro o hmem
              rcases List.mem_cons.mp hmem with rfl | hmem
              · exact .inr ⟨c, rfl, rfl⟩
              · exact .inl hmem }
    next db hpub =>
      exact .fewer ht (moves_execute (moves_publishConsent hpub))
        (fewer_execute (fewer_publishConsent_false hpub)) (same_execute _ _)
        (by rw [history_execute]) (fun _ h => by cases h) fun _ h => by cases h
    next =>
      exact .fewer ht (.of_eq rfl) (fun _ h => h) (.refl _) rfl (fun _ h => by cases h)
        fun _ h => by cases h

/-- A callback is no start. -/
theorem callback_own {next : Option CallbackCall} {x : StartCall}
    (h : next.map Call.callback = some (.start x)) :
    ∃ y, Call.callback c = .start y ∧ x.stateDigest = y.stateDigest := by
  obtain ⟨_, _, he⟩ := Option.map_eq_some_iff.mp h
  cases he

/-- A callback step that removes transactions at most, and goes on with no more than it had. -/
theorem CallStep.callback (ht : Tracked s) (hs : c.Sound s.db s.history)
    {moved : State × Option CallbackCall} (hm : Moves s.db moved.1.db) (hf : Fewer s.db moved.1.db)
    (hh : moved.1.history = s.history)
    (hnext : ∀ d, moved.2 = some d → c.Sound moved.1.db s.history → d.Sound moved.1.db s.history) :
    CallStep s (.callback c) (moved.1, moved.2.map .callback) := by
  have hsame : SameLedger s.history moved.1.history := by
    rw [hh]
    exact .refl _
  refine .fewer ht hm hf hsame (by rw [hh]) ?_ fun _ hx => callback_own hx
  intro d hd ho
  obtain ⟨x, hx, rfl⟩ := Option.map_eq_some_iff.mp hd
  dsimp only at ho ⊢
  rw [hh] at ho ⊢
  exact hnext x hx (CallbackCall.Sound.onward hs ho)

theorem callStep_callback (ht : Tracked s) (hc : .callback c ∈ s.calls) (answer : Answer) :
    CallStep s (.callback c)
      ((c.next assertProfile s answer).1, (c.next assertProfile s answer).2.map .callback) := by
  have hs : c.Sound s.db s.history := ht.calls _ hc
  unfold CallbackCall.next
  split
  next hstage =>
    refine .callback ht hs (moves_execute (.of_eq rfl)) (fewer_execute (fewer_delete rfl))
      (history_execute _ _) ?_
    intro d hd hc'
    split at hd
    next =>
      cases hd
      exact hc'.stage (.inl rfl) (.inl rfl)
    next => cases hd
  next hstage =>
    split
    next transaction db hclaim =>
      obtain ⟨t, htm, hdigest, hpending, hclaimed, _, hconn, hrows⟩ := claimTransaction_claimed hclaim
      unfold State.execute
      split
      next hfailed =>
        refine .callback ht hs (.of_eq rfl) (fun _ h => h) rfl ?_
        intro d hd _
        rw [if_neg (by rw [hfailed]; intro he; cases he)] at hd
        cases hd
      next =>
        have hledger := ht.ledger.claim hconn htm hdigest hpending hrows
        have honward : Onward s.db s.history db
            { s.history with claims := (c.stateDigest, c.claim) :: s.history.claims } :=
          { digests := fun _ hd => hd
            origins := fun _ ho => ho
            moves := .of_eq hconn
            disconnects := fun _ _ _ _ _ => rfl
            rows := by
              intro t' ht'
              obtain ⟨x, hx, rfl⟩ := hrows t' ht'
              left
              split
              · exact ⟨x, hx, rfl, rfl, rfl⟩
              · exact ⟨x, hx, rfl, rfl, rfl⟩ }
        exact
          { onward := honward
            ledger := hledger
            sound := by
              intro d hd
              obtain ⟨x, hx, rfl⟩ := Option.map_eq_some_iff.mp hd
              split at hx
              next =>
                cases hx
                exact
                  { owner := by
                      intro y hy
                      cases hy
                      rw [hclaimed]
                    published := by
                      intro y hy
                      cases hy
                      obtain ⟨o, ho, hod⟩ := ht.ledger.published t htm
                      exact ⟨o, ho, by rw [hod, hclaimed]⟩
                    rows := by
                      intro y hy t' ht' hd'
                      cases hy
                      rw [hclaimed] at hd' ⊢
                      dsimp only at hd' ⊢
                      obtain ⟨z, hz, rfl⟩ := hrows t' ht'
                      have hzd : z.state_digest = t.state_digest := by
                        split at hd'
                        · exact hd'
                        · exact hd'
                      obtain rfl := Table.eq_of_key hz htm hzd
                      split
                      · exact ⟨rfl, rfl⟩
                      · exact ⟨rfl, rfl⟩
                    connection := by
                      intro y k _ hk
                      cases hk }
              next => cases hx
            own := fun _ hx => callback_own hx
            origins := fun _ ho => .inl ho }
    next =>
      exact .callback ht hs (.of_eq rfl) (fun _ h => h) rfl fun _ h => by cases h
  next transaction hstage =>
    refine .callback ht hs (.of_eq rfl) (fun _ h => h) rfl ?_
    intro d hd hc'
    split at hd
    next =>
      obtain ⟨k, hk, hd⟩ := Option.bind_eq_some_iff.mp hd
      obtain ⟨_, _, rfl⟩ := Option.map_eq_some_iff.mp hd
      obtain ⟨_, hp⟩ := Option.filter_eq_some_iff.mp hk
      obtain ⟨hid, _, hg⟩ := of_decide_eq_true hp
      by_cases hprofile : assertProfile k.issuer k.resource k.token_endpoint = true ∧
          c.iss.all (· = k.issuer) = true
      · rw [if_pos hprofile]
        have hsame : (CallbackStage.exchanging transaction k).transaction = c.stage.transaction := by
          rw [hstage]
          rfl
        exact
          { owner := fun t he => hc'.owner t (hsame ▸ he)
            published := fun t he => hc'.published t (hsame ▸ he)
            rows := fun t he => hc'.rows t (hsame ▸ he)
            connection := by
              intro t k' he hk'
              cases he
              cases hk'
              exact ⟨hg, hid⟩ }
      · rw [if_neg hprofile]
        refine hc'.stage (.inr ?_) (.inl rfl)
        rw [hstage]
        rfl
    next => cases hd
  next transaction connection hstage =>
    refine .callback ht hs (.of_eq rfl) (fun _ h => h) rfl ?_
    intro d hd hc'
    split at hd
    next =>
      cases hd
      refine hc'.stage (.inr ?_) (.inr ?_)
      · rw [hstage]
        rfl
      · rw [hstage]
        rfl
    next =>
      cases hd
      refine hc'.stage (.inr ?_) (.inl rfl)
      rw [hstage]
      rfl
  next transaction connection credential hstage =>
    have hfail : ∀ (db : Db) (h : History), c.Sound db h →
        CallbackCall.Sound db h { c with stage := .failing transaction } := by
      intro db h hc'
      refine hc'.stage (.inr ?_) (.inl rfl)
      rw [hstage]
      rfl
    split
    next db hsettle =>
      obtain ⟨_, t, htm, hdigest, hstatus, hclaim, hsome, hgone⟩ := settle_settled hsettle
      have hm := moves_settle s.db transaction connection credential s.now
      rw [hsettle] at hm
      have hfewer : Fewer s.db db := by
        have hdb := (Prod.mk.inj hsettle).2
        rw [← hdb]
        exact fewer_delete rfl
      have howner := hs.owner transaction (by rw [hstage]; rfl)
      unfold State.execute
      split
      next hfailed =>
        refine .callback ht hs (.of_eq rfl) (fun _ h => h) rfl ?_
        intro d hd hc'
        rw [if_neg (by rw [hfailed]; intro he; cases he)] at hd
        cases hd
        exact hfail _ _ hc'
      next =>
        have hledger := ht.ledger.settle hm hfewer
          (e := { stateDigest := transaction.state_digest, claim := c.claim
                  disconnects := s.history.disconnects })
          htm hdigest hstatus (hclaim.trans howner) hgone
        have honward : ∀ granted settlements,
            Onward s.db s.history db { s.history with settlements, granted } :=
          fun _ _ => .of_fewer (fun _ hd => hd) rfl hm rfl hfewer
        exact
          { onward := honward _ _
            ledger := hledger _
            sound := by
              intro d hd
              obtain ⟨x, hx, rfl⟩ := Option.map_eq_some_iff.mp hd
              split at hx
              next => cases hx
              next =>
                cases hx
                exact hfail _ _ (CallbackCall.Sound.onward hs (honward _ _))
            own := fun _ hx => callback_own hx
            origins := fun _ ho => .inl ho }
    next db hsettle =>
      have hm := moves_settle s.db transaction connection credential s.now
      rw [hsettle] at hm
      have hfewer : Fewer s.db db := by
        have hdb := (Prod.mk.inj hsettle).2
        rw [← hdb]
        exact fewer_delete rfl
      refine .callback ht hs (moves_execute hm) (fewer_execute hfewer) (history_execute _ _) ?_
      intro d hd hc'
      cases hd
      exact hfail _ _ hc'
  next transaction hstage =>
    exact .callback ht hs (moves_execute (.of_eq rfl)) (fewer_execute (fewer_delete rfl))
      (history_execute _ _) fun _ h => by cases h

/-- A credential call's part: neither transactions nor their history. -/
structure Refreshing (s t : State) : Prop where
  transactions : t.db.transactions = s.db.transactions
  history : SameLedger s.history t.history
  disconnects : t.history.disconnects = s.history.disconnects

theorem refreshing_execute {answer : Answer} {history : History}
    (hdb : db.transactions = s.db.transactions) (hh : SameLedger s.history history)
    (hd : history.disconnects = s.history.disconnects) :
    Refreshing s (s.execute answer db history) := by
  unfold State.execute
  split
  · exact ⟨rfl, .refl _, rfl⟩
  · exact ⟨hdb, hh, hd⟩

theorem refreshing_credential (c : CredentialCall) (answer : Answer) :
    Refreshing s (c.next assertProfile s answer).1 := by
  have hsame : SameLedger s.history s.history := .refl _
  have hnone : Refreshing s s := ⟨rfl, hsame, rfl⟩
  unfold CredentialCall.next
  split
  next => exact hnone
  next =>
    split
    next => exact hnone
    next =>
      split
      next =>
        split
        next => exact hnone
        next =>
          split
          next => exact hnone
          next => exact hnone
      next =>
        split
        next => exact hnone
        next =>
          split
          next => exact ⟨rfl, ⟨rfl, fun _ hd => hd, rfl, rfl⟩, rfl⟩
          next => exact hnone
  next => exact refreshing_execute rfl hsame rfl
  next row credential _ =>
    split
    next => exact ⟨rfl, hsame, rfl⟩
    next db hclaim =>
      have hdb := (Prod.mk.inj hclaim).2
      subst hdb
      have he : Refreshing s
          (s.execute answer (s.db.claimRefresh row s.drawn s.now).2 s.history) :=
        refreshing_execute rfl hsame rfl
      split
      next => exact ⟨he.transactions, he.history, he.disconnects⟩
      next =>
        split
        next => exact ⟨rfl, ⟨rfl, fun _ hd => hd, rfl, rfl⟩, rfl⟩
        next => exact ⟨he.transactions, he.history, he.disconnects⟩
  next => exact hnone
  next row claim rotated _ =>
    split
    next db hpublish =>
      have hdb := (Prod.mk.inj hpublish).2
      subst hdb
      dsimp only
      split
      next => exact ⟨rfl, ⟨rfl, fun _ hd => hd, rfl, rfl⟩, rfl⟩
      next => exact refreshing_execute rfl ⟨rfl, fun _ hd => hd, rfl, rfl⟩ rfl
    next => exact hnone
  next => exact refreshing_execute rfl hsame rfl

theorem callStep_credential (ht : Tracked s) (c : CredentialCall) (answer : Answer) :
    CallStep s (.credential c)
      ((c.next assertProfile s answer).1,
        (c.next assertProfile s answer).2.map .credential) := by
  have hr : Refreshing s (c.next assertProfile s answer).1 := refreshing_credential c answer
  refine .fewer ht (moves_credential c answer) (fewer_of_eq hr.transactions) hr.history
    hr.disconnects ?_ ?_
  · intro d hd _
    obtain ⟨x, _, rfl⟩ := Option.map_eq_some_iff.mp hd
    trivial
  · intro x hx
    obtain ⟨_, _, he⟩ := Option.map_eq_some_iff.mp hx
    cases he

theorem callStep (ht : Tracked s) {c : Call} (hc : c ∈ s.calls) (answer : Answer) :
    CallStep s c (c.next assertProfile ownerId s answer) := by
  cases c with
  | start c => exact callStep_start ht hc answer
  | callback c => exact callStep_callback ht hc answer
  | credential c => exact callStep_credential ht c answer

/-! ## One step -/

/-- A step of a call. -/
theorem Tracked.next (ht : Tracked s) {i : Nat} {c : Call} (hi : s.calls[i]? = some c)
    (answer : Answer) :
    Tracked
      { (c.next assertProfile ownerId s answer).1 with
        calls := advance s.calls i (c.next assertProfile ownerId s answer).2 } := by
  have hc := List.mem_of_getElem? hi
  have hstep : CallStep s c (c.next assertProfile ownerId s answer) := callStep ht hc answer
  exact
    { ledger := hstep.ledger
      calls := by
        intro d hd
        dsimp only at hd ⊢
        rcases mem_advance_pairwise (fun _ _ h => h.symm) ht.distinct hi hd with hd | ⟨hd, hne⟩
        · exact hstep.sound d hd
        · refine (ht.calls d hd).onward hstep.onward ?_
          intro x hx o ho
          rcases hstep.origins o ho with hold | ⟨y, hy, hod⟩
          · exact .inl hold
          · right
            rw [hod]
            exact hne y x hy hx
      distinct := by
        refine pairwise_advance (fun _ _ h => h.symm) ht.distinct hi ?_
        intro d hd e hne x y hx hy
        obtain ⟨z, hz, hxz⟩ := hstep.own x (hx ▸ hd)
        rw [hxz]
        exact hne z y hz hy }

/-- A step that no call takes: it removes transactions at most. -/
theorem Tracked.outside (ht : Tracked s) {t : State} (hm : Moves s.db t.db)
    (hf : Fewer s.db t.db) (hh : SameLedger s.history t.history)
    (ho : Onward s.db s.history t.db t.history) (hcalls : t.calls = s.calls) : Tracked t where
  ledger := ht.ledger.fewer hm hf hh
  calls c hc := by
    rw [hcalls] at hc
    refine (ht.calls c hc).onward ho ?_
    intro _ _ o hmem
    rw [hh.origins] at hmem
    exact .inl hmem
  distinct := by
    rw [hcalls]
    exact ht.distinct

/-- A disconnect raises the revision of the connection it meets. -/
theorem disconnect_onward (owner : Option String) :
    Onward s.db s.history (s.disconnect owner).db (s.disconnect owner).history where
  digests _ hd := hd
  origins _ ho := ho
  moves := moves_disconnect s.db owner s.now
  disconnects c c' hc hc' hg := by
    simp only [State.disconnect, Db.disconnectMatching, hc, Option.map_some, Option.some.injEq]
      at hc'
    simp only [State.disconnect, hc, Option.any_some]
    split at hc'
    next =>
      subst hc'
      simp only [Db.disconnectedRow] at hg
      omega
    next hno => rw [if_neg hno]
  rows t' ht' := .inl ⟨t', (List.mem_filter.mp ht').1, rfl, rfl, rfl⟩

theorem Tracked.disconnect (ht : Tracked s) (owner : Option String) :
    Tracked (s.disconnect owner) :=
  ht.outside (moves_disconnect s.db owner s.now) (fewer_delete rfl) ⟨rfl, fun _ hd => hd, rfl, rfl⟩
    (disconnect_onward owner) rfl

/-- Nothing that is tracked changes. -/
theorem Tracked.same (ht : Tracked s) {t : State} (hc : t.db.connection = s.db.connection)
    (htr : t.db.transactions = s.db.transactions) (hh : t.history = s.history)
    (hcalls : t.calls = s.calls) : Tracked t := by
  have hsame : SameLedger s.history t.history := by
    rw [hh]
    exact .refl _
  refine ht.outside (.of_eq hc) (fewer_of_eq htr) hsame ?_ hcalls
  exact .of_fewer hsame.digests hsame.origins (.of_eq hc) (by rw [hh]) (fewer_of_eq htr)

/-- A call that has just begun. -/
theorem Tracked.begun (ht : Tracked s) {c : Call} {t : State} (hdb : t.db = s.db)
    (hcalls : t.calls = s.calls ++ [c]) (hh : t.history = s.history)
    (hsound : c.Sound s.db s.history) (hstart : ∀ x, c ≠ .start x) : Tracked t where
  ledger := by
    rw [hdb, hh]
    exact ht.ledger
  calls d hd := by
    rw [hcalls, List.mem_append, List.mem_singleton] at hd
    rw [hdb, hh]
    rcases hd with hd | rfl
    · exact ht.calls d hd
    · exact hsound
  distinct := by
    rw [hcalls]
    refine List.pairwise_append.mpr ⟨ht.distinct, List.pairwise_singleton _ _, ?_⟩
    intro d _ e he x y _ hy
    rw [List.mem_singleton] at he
    exact absurd (he ▸ hy) (hstart y)

theorem Tracked.step (ht : Tracked s) {a : Act} {t : State}
    (h : s.step assertProfile ownerId a = some t) : Tracked t := by
  cases a with
  | start browserSessionId client stateDigest verifier =>
    simp only [State.step] at h
    split at h
    next => cases h
    next hnew =>
      cases h
      have hsame : SameLedger s.history
          { s.history with digests := stateDigest :: s.history.digests } :=
        ⟨rfl, fun _ hd => List.mem_cons_of_mem _ hd, rfl, rfl⟩
      have ho : Onward s.db s.history s.db
          { s.history with digests := stateDigest :: s.history.digests } :=
        .of_fewer hsame.digests rfl (.of_eq rfl) rfl fun _ hx => hx
      exact
        { ledger := ht.ledger.fewer (.of_eq rfl) (fun _ hx => hx) hsame
          calls := by
            intro c hc
            dsimp only at hc ⊢
            rcases List.mem_append.mp hc with hc | hc
            · exact (ht.calls c hc).onward ho fun _ _ _ hmem => .inl hmem
            · rw [List.mem_singleton] at hc
              subst hc
              exact
                { drawn := List.mem_cons_self
                  fresh := by
                    intro o hmem hd
                    have hdrawn := ht.ledger.drawn o hmem
                    rw [hd] at hdrawn
                    exact hnew (.inl hdrawn)
                  reserved := fun _ _ hr => by cases hr }
          distinct := by
            refine List.pairwise_append.mpr ⟨ht.distinct, List.pairwise_singleton _ _, ?_⟩
            intro c hc d hd x y hx hy
            rw [List.mem_singleton] at hd
            rw [hd] at hy
            cases hy
            have hs : StartCall.Sound s.db s.history x := by
              have hcs := ht.calls c hc
              rw [hx] at hcs
              exact hcs
            intro he
            have hdrawn := hs.drawn
            rw [he] at hdrawn
            exact hnew (.inl hdrawn) }
  | callback owner browserSessionId stateDigest iss =>
    cases h
    refine ht.begun rfl rfl rfl ?_ ?_
    · refine CallbackCall.Sound.mk ?_ ?_ ?_ ?_
      · intro _ hx
        cases hx
      · intro _ hx
        cases hx
      · intro _ hx
        cases hx
      · intro _ _ hx
        cases hx
    · intro x hx
      cases hx
  | credential binding =>
    cases h
    refine ht.begun rfl rfl rfl trivial ?_
    intro x hx
    cases hx
  | next i answer =>
    obtain ⟨c, hi, rfl⟩ := Option.map_eq_some_iff.mp h
    exact ht.next hi answer
  | crash i =>
    obtain ⟨c, hi, rfl⟩ := Option.map_eq_some_iff.mp h
    exact
      { ledger := ht.ledger
        calls := fun d hd => ht.calls d (advance_subset_of_none hd)
        distinct := ht.distinct.sublist (List.eraseIdx_sublist _ _) }
  | disconnect =>
    cases h
    exact ht.disconnect (some ownerId)
  | disconnectServer =>
    cases h
    exact ht.disconnect none
  | editServer bump enabled =>
    cases h
    exact ht.same rfl rfl rfl rfl
  | signIn session =>
    obtain ⟨sessions, _, rfl⟩ := Option.map_eq_some_iff.mp h
    exact ht.same rfl rfl rfl rfl
  | signOut sessionId =>
    cases h
    exact ht.same rfl rfl rfl rfl
  | suspend userId =>
    cases h
    exact ht.same rfl rfl rfl rfl
  | unsuspend userId =>
    cases h
    exact ht.same rfl rfl rfl rfl
  | tick now =>
    simp only [State.step] at h
    split at h
    next =>
      cases h
      exact ht.same rfl rfl rfl rfl
    next => cases h

end

end BackgroundAgents.Mcp

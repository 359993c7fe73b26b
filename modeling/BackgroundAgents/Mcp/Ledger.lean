import BackgroundAgents.Mcp.Moves

/-!
# The life of a transaction

A state digest is published once, claimed once and settled once, by the callback
that claimed it. `Ledger` says so of the transactions and of what has happened
to them; each kind of statement has one lemma.
-/

namespace BackgroundAgents.Mcp

open Transition

structure Ledger (db : Db) (h : History) : Prop where
  absent : db.connection = none → db.transactions.rows = []
  origins : (h.origins.map (·.stateDigest)).Nodup
  drawn : ∀ o ∈ h.origins, o.stateDigest ∈ h.digests
  published : ∀ t ∈ db.transactions.rows, ∃ o ∈ h.origins, o.stateDigest = t.state_digest
  claims : (h.claims.map (·.1)).Nodup
  claimsPublished : ∀ p ∈ h.claims, ∃ o ∈ h.origins, o.stateDigest = p.1
  pending : ∀ t ∈ db.transactions.rows, t.status = .pending → ∀ p ∈ h.claims, p.1 ≠ t.state_digest
  claimed : ∀ t ∈ db.transactions.rows, t.status = .claimed →
    ∀ claim, t.claim_owner = some claim → (t.state_digest, claim) ∈ h.claims
  settlements : (h.settlements.map (·.stateDigest)).Nodup
  settledClaimed : ∀ e ∈ h.settlements, (e.stateDigest, e.claim) ∈ h.claims
  settledGone : ∀ e ∈ h.settlements, ∀ t ∈ db.transactions.rows, t.state_digest ≠ e.stateDigest

/-- Transactions were only removed. -/
def Fewer (db db' : Db) : Prop :=
  ∀ t ∈ db'.transactions.rows, t ∈ db.transactions.rows

/-- The histories agree in what the ledger is about. -/
structure SameLedger (h h' : History) : Prop where
  origins : h'.origins = h.origins
  digests : ∀ d ∈ h.digests, d ∈ h'.digests
  claims : h'.claims = h.claims
  settlements : h'.settlements = h.settlements

theorem SameLedger.refl (h : History) : SameLedger h h := ⟨rfl, fun _ hd => hd, rfl, rfl⟩

variable {db db' : Db}

theorem fewer_delete {p : McpOAuthTransaction → Bool}
    (h : db'.transactions = db.transactions.delete p) : Fewer db db' := by
  intro t ht
  rw [h] at ht
  exact (List.mem_filter.mp ht).1

theorem fewer_of_eq (h : db'.transactions = db.transactions) : Fewer db db' := by
  intro t ht
  rwa [h] at ht

section

variable {db db' : Db} {h h' : History}

/-- A connection is never lost. -/
theorem connection_none (hm : Moves db db') (hn : db'.connection = none) : db.connection = none := by
  cases hc : db.connection with
  | none => rfl
  | some c =>
    obtain ⟨c', hc', _⟩ := hm c hc
    rw [hn] at hc'
    cases hc'

theorem Ledger.fewer (hl : Ledger db h) (hm : Moves db db') (hf : Fewer db db')
    (hh : SameLedger h h') : Ledger db' h' where
  absent hn := by
    have hempty := hl.absent (connection_none hm hn)
    refine List.eq_nil_iff_forall_not_mem.mpr ?_
    intro t ht
    have hold := hf t ht
    rw [hempty] at hold
    cases hold
  origins := by
    rw [hh.origins]
    exact hl.origins
  drawn o ho := by
    rw [hh.origins] at ho
    exact hh.digests _ (hl.drawn o ho)
  published t ht := by
    rw [hh.origins]
    exact hl.published t (hf t ht)
  claims := by
    rw [hh.claims]
    exact hl.claims
  claimsPublished p hp := by
    rw [hh.claims] at hp
    rw [hh.origins]
    exact hl.claimsPublished p hp
  pending t ht hs p hp := by
    rw [hh.claims] at hp
    exact hl.pending t (hf t ht) hs p hp
  claimed t ht hs claim hc := by
    rw [hh.claims]
    exact hl.claimed t (hf t ht) hs claim hc
  settlements := by
    rw [hh.settlements]
    exact hl.settlements
  settledClaimed e he := by
    rw [hh.settlements] at he
    rw [hh.claims]
    exact hl.settledClaimed e he
  settledGone e he t ht := by
    rw [hh.settlements] at he
    exact hl.settledGone e he t (hf t ht)

variable {transaction : McpOAuthTransaction}

/-- A new digest is published, pending. -/
theorem Ledger.publish (hl : Ledger db h) {o : Origin}
    (hrows : ∀ t ∈ db'.transactions.rows, t ∈ db.transactions.rows ∨ t = transaction)
    (hconnection : db'.connection ≠ none) (ho : o.stateDigest = transaction.state_digest)
    (hdrawn : o.stateDigest ∈ h.digests) (hnew : ∀ x ∈ h.origins, x.stateDigest ≠ o.stateDigest)
    (hstatus : transaction.status = .pending) :
    Ledger db' { h with origins := o :: h.origins } where
  absent hn := absurd hn hconnection
  origins := by
    rw [List.map_cons, List.nodup_cons]
    refine ⟨?_, hl.origins⟩
    intro hmem
    obtain ⟨x, hx, hd⟩ := List.mem_map.mp hmem
    exact hnew x hx hd
  drawn x hx := by
    rcases List.mem_cons.mp hx with rfl | hx
    · exact hdrawn
    · exact hl.drawn x hx
  published t ht := by
    rcases hrows t ht with ht | rfl
    · obtain ⟨x, hx, hd⟩ := hl.published t ht
      exact ⟨x, List.mem_cons_of_mem _ hx, hd⟩
    · exact ⟨o, List.mem_cons_self, ho⟩
  claims := hl.claims
  claimsPublished p hp := by
    obtain ⟨x, hx, hd⟩ := hl.claimsPublished p hp
    exact ⟨x, List.mem_cons_of_mem _ hx, hd⟩
  pending t ht hs p hp := by
    rcases hrows t ht with ht | rfl
    · exact hl.pending t ht hs p hp
    · intro he
      obtain ⟨x, hx, hd⟩ := hl.claimsPublished p hp
      exact hnew x hx (hd.trans (he.trans ho.symm))
  claimed t ht hs claim hc := by
    rcases hrows t ht with ht | rfl
    · exact hl.claimed t ht hs claim hc
    · rw [hstatus] at hs
      cases hs
  settlements := hl.settlements
  settledClaimed := hl.settledClaimed
  settledGone e he t ht := by
    rcases hrows t ht with ht | rfl
    · exact hl.settledGone e he t ht
    · intro hd
      obtain ⟨x, hx, hxd⟩ := hl.claimsPublished _ (hl.settledClaimed e he)
      exact hnew x hx (hxd.trans (hd.symm.trans ho.symm))

/-- A pending transaction is claimed. -/
theorem Ledger.claim (hl : Ledger db h) (hconnection : db'.connection = db.connection)
    {digest : String} {claim : Nat}
    (hmem : transaction ∈ db.transactions.rows) (hdigest : transaction.state_digest = digest)
    (hpending : transaction.status = .pending)
    (hrows : ∀ t' ∈ db'.transactions.rows, ∃ t ∈ db.transactions.rows,
      t' = if t.state_digest = digest then
        { t with status := .claimed, claim_owner := some claim } else t) :
    Ledger db' { h with claims := (digest, claim) :: h.claims } where
  absent hn := by
    rw [hconnection] at hn
    have hempty := hl.absent hn
    rw [hempty] at hmem
    cases hmem
  origins := hl.origins
  drawn := hl.drawn
  published t' ht' := by
    obtain ⟨t, ht, rfl⟩ := hrows t' ht'
    split
    · exact hl.published t ht
    · exact hl.published t ht
  claims := by
    rw [List.map_cons, List.nodup_cons]
    refine ⟨?_, hl.claims⟩
    intro hin
    obtain ⟨p, hp, hd⟩ := List.mem_map.mp hin
    exact hl.pending transaction hmem hpending p hp (hd.trans hdigest.symm)
  claimsPublished p hp := by
    rcases List.mem_cons.mp hp with rfl | hp
    · obtain ⟨o, ho, hd⟩ := hl.published transaction hmem
      exact ⟨o, ho, hd.trans hdigest⟩
    · exact hl.claimsPublished p hp
  pending t' ht' hs p hp := by
    obtain ⟨t, ht, rfl⟩ := hrows t' ht'
    split at hs
    next => cases hs
    next hne =>
      rw [if_neg hne]
      rcases List.mem_cons.mp hp with rfl | hp
      · exact fun he => hne he.symm
      · exact hl.pending t ht hs p hp
  claimed t' ht' hs k hk := by
    obtain ⟨t, ht, rfl⟩ := hrows t' ht'
    split at hs
    next he =>
      rw [if_pos he] at hk ⊢
      cases hk
      dsimp only
      rw [he]
      exact List.mem_cons_self
    next hne =>
      rw [if_neg hne] at hk ⊢
      exact List.mem_cons_of_mem _ (hl.claimed t ht hs k hk)
  settlements := hl.settlements
  settledClaimed e he := List.mem_cons_of_mem _ (hl.settledClaimed e he)
  settledGone e he t' ht' := by
    obtain ⟨t, ht, rfl⟩ := hrows t' ht'
    split
    · exact hl.settledGone e he t ht
    · exact hl.settledGone e he t ht

/-- A claimed transaction is settled, and gone. -/
theorem Ledger.settle (hl : Ledger db h) (hm : Moves db db') (hf : Fewer db db') {e : Settlement}
    (hmem : transaction ∈ db.transactions.rows) (hdigest : transaction.state_digest = e.stateDigest)
    (hstatus : transaction.status = .claimed) (hclaim : transaction.claim_owner = some e.claim)
    (hgone : ∀ t ∈ db'.transactions.rows, t.state_digest ≠ e.stateDigest) (granted : List Granted) :
    Ledger db' { h with settlements := e :: h.settlements, granted } := by
  have hfewer : Ledger db' { h with granted } := hl.fewer hm hf ⟨rfl, fun _ hd => hd, rfl, rfl⟩
  exact
    { hfewer with
      settlements := by
        rw [List.map_cons, List.nodup_cons]
        refine ⟨?_, hl.settlements⟩
        intro hin
        obtain ⟨x, hx, hd⟩ := List.mem_map.mp hin
        exact hl.settledGone x hx transaction hmem (hdigest.trans hd.symm)
      settledClaimed := by
        intro x hx
        rcases List.mem_cons.mp hx with rfl | hx
        · have hc := hl.claimed transaction hmem hstatus _ hclaim
          rwa [hdigest] at hc
        · exact hl.settledClaimed x hx
      settledGone := by
        intro x hx t ht
        rcases List.mem_cons.mp hx with rfl | hx
        · exact hgone t ht
        · exact hfewer.settledGone x hx t ht }

end

/-! ## What the statements do to the transactions -/

@[simp] theorem transactions_prepareConsent (db : Db) (row : McpConnectionRow)
    (client : McpOAuthClient) (now : Millis) :
    (db.prepareConsent row client now).transactions = db.transactions := by
  unfold Db.prepareConsent
  split
  · rfl
  · rfl

variable {transaction : McpOAuthTransaction} {now : Millis}

theorem fewer_publishConsent_false {row : McpConnectionRow} {client : McpOAuthClient}
    (h : db.publishConsent row client transaction now = some (false, db')) : Fewer db db' := by
  unfold Db.publishConsent at h
  dsimp only at h
  split at h
  next =>
    obtain ⟨transactions, _, hdb⟩ := Option.map_eq_some_iff.mp h
    cases hdb
  next =>
    cases h
    exact fewer_of_eq (transactions_prepareConsent db row client now)

/-- A consent that is published: the row it stands on, after the reset, and its transaction. -/
structure Published (db db' : Db) (row : McpConnectionRow) (client : McpOAuthClient)
    (transaction : McpOAuthTransaction) (now : Millis) : Prop where
  rows : ∀ t ∈ db'.transactions.rows, t ∈ db.transactions.rows ∨ t = transaction
  alone : db.noOtherAttempt row.id = true
  connection : ∃ c, db'.connection = some c ∧ c.id = row.id ∧
    c.grant_revision = transaction.grant_revision
  reset : needsReset row client = true → ∀ c, db.connection = some c → c.id = row.id →
    c.grant_revision = row.grant_revision →
      db'.connection = some (resetRow c client (consentRevision row client) now)
  kept : (needsReset row client = false ∨
    ∀ c, db.connection = some c → c.grant_revision ≠ row.grant_revision) →
      db'.connection = db.connection

theorem publishConsent_published {row : McpConnectionRow} {client : McpOAuthClient}
    (h : db.publishConsent row client transaction now = some (true, db')) :
    Published db db' row client transaction now := by
  unfold Db.publishConsent at h
  dsimp only at h
  split at h
  next hguard =>
    obtain ⟨transactions, hinsert, hdb⟩ := Option.map_eq_some_iff.mp h
    cases hdb
    have htransactions := transactions_prepareConsent db row client now
    have halone : db.noOtherAttempt row.id = true := by
      have ha := hguard.2
      unfold Db.noOtherAttempt at ha
      rw [htransactions] at ha
      exact ha
    exact
      { rows := by
          intro t ht
          dsimp only at ht
          rw [Table.rows_insert? hinsert, List.mem_append, List.mem_singleton, htransactions] at ht
          exact ht
        alone := halone
        connection := by
          obtain ⟨c, hc, hp⟩ := (Option.any_eq_true _ _).mp hguard.1
          have hp := of_decide_eq_true hp
          exact ⟨c, hc, hp.1, hp.2⟩
        reset := by
          intro hr c hc hid hg
          dsimp only
          rw [Db.prepareConsent, if_pos hr]
          simp only [Db.resetConnection, hc, Option.map_some]
          rw [if_pos ⟨hid, hg, halone⟩]
        kept := by
          intro hk
          dsimp only
          unfold Db.prepareConsent
          split
          next hr =>
            rcases hk with hk | hk
            · rw [hr] at hk
              cases hk
            · cases hc : db.connection with
              | none => simp only [Db.resetConnection, hc, Option.map_none]
              | some c =>
                simp only [Db.resetConnection, hc, Option.map_some]
                rw [if_neg (fun hg => hk c hc hg.2.1)]
          next => rfl }
  next => cases h

/-- The transaction that a callback claims, and what its statement does to the rows. -/
theorem claimTransaction_claimed {digest ownerId sessionId : String} {claim : Nat}
    {claimed : McpOAuthTransaction}
    (h : db.claimTransaction digest ownerId sessionId claim now = (some claimed, db')) :
    ∃ t ∈ db.transactions.rows, t.state_digest = digest ∧ t.status = .pending ∧
      claimed = { t with status := .claimed, claim_owner := some claim } ∧
      db.claimable t ownerId sessionId now = true ∧ db'.connection = db.connection ∧
      ∀ t' ∈ db'.transactions.rows, ∃ t ∈ db.transactions.rows,
        t' = if t.state_digest = digest then
          { t with status := .claimed, claim_owner := some claim } else t := by
  unfold Db.claimTransaction at h
  split at h
  next t hf =>
    cases h
    obtain ⟨hg, hp⟩ := Option.filter_eq_some_iff.mp hf
    have hcl := hp
    unfold Db.claimable at hcl
    have hs := (of_decide_eq_true hcl).2.2.1
    refine ⟨t, Table.mem_of_get? hg, Table.key_of_get? hg, hs, rfl, hp, rfl, ?_⟩
    intro t' ht'
    dsimp only at ht'
    rw [Table.mem_update] at ht'
    obtain ⟨x, hx, he⟩ := ht'
    refine ⟨x, hx, ?_⟩
    rw [← he]
    simp only [decide_eq_true_eq]
  next => cases h

/-- What a settlement found. -/
theorem settle_settled {connection : McpConnectionRow} {credential : McpCredential}
    (h : db.settle transaction connection credential now = (true, db')) :
    (∃ c, db.connection = some c ∧ c.id = connection.id ∧
        c.grant_revision = connection.grant_revision ∧
        db'.connection = some (Db.settledRow connection c credential now)) ∧
      ∃ t ∈ db.transactions.rows, t.state_digest = transaction.state_digest ∧
        t.status = .claimed ∧ t.claim_owner = transaction.claim_owner ∧
        t.claim_owner.isSome = true ∧
        ∀ t' ∈ db'.transactions.rows, t'.state_digest ≠ transaction.state_digest := by
  unfold Db.settle at h
  dsimp only at h
  obtain ⟨hchanged, rfl⟩ := Prod.mk.inj h
  obtain ⟨c, hc, hp⟩ := (Option.any_eq_true _ _).mp hchanged
  have hsettles := hp
  unfold Db.settles at hp
  obtain ⟨hid, _, hg, _, hsettleable, _⟩ := of_decide_eq_true hp
  obtain ⟨t, ht, hq⟩ := (Option.any_eq_true _ _).mp hsettleable
  obtain ⟨hstatus, hsome, hclaim, _⟩ := of_decide_eq_true hq
  refine ⟨⟨c, hc, hid, hg, ?_⟩, t, Table.mem_of_get? ht, Table.key_of_get? ht, hstatus, hclaim,
    hsome, ?_⟩
  · simp only [Db.deleteClaimed, hc, Option.map_some]
    rw [if_pos hsettles]
  · intro t' ht' hd
    obtain ⟨ht', hkept⟩ := List.mem_filter.mp ht'
    -- the key is unique, so this is the claimed transaction, which the batch deletes
    have hsame : t' = t := Table.eq_of_key ht' (Table.mem_of_get? ht)
      (hd.trans (Table.key_of_get? ht).symm)
    subst hsame
    rw [Bool.not_eq_true', decide_eq_false_iff_not] at hkept
    exact hkept ⟨hd, hstatus, hsome, hclaim⟩

end BackgroundAgents.Mcp

import BackgroundAgents.Mcp.Tracked

/-!
# What a step does to a grant

A step settles a consent, takes a refresh token to the token endpoint, stores
what came back, or does none of these (`Effect`). `Guarded` is what the store
keeps of the exchanges whichever step is taken: a grant that was exchanged at
its present version is not free for another exchange.
-/

namespace BackgroundAgents.Mcp

open Transition

/-- A statement that neither settles nor stores a refreshed credential. -/
structure Plain (c c' : McpConnectionRow) : Prop where
  later : Later c c'
  version : c'.credential_version = c.credential_version
  connected : c'.status = .connected →
    c.status = .connected ∧ c'.grant_revision = c.grant_revision ∧
      (c.exchange_owner ≠ none → c'.exchange_owner = c.exchange_owner)
  payload : c'.encrypted_payload = none ∨
    c'.encrypted_payload = c.encrypted_payload ∧ aad c' = aad c

variable {c c' : McpConnectionRow}

theorem Plain.disconnected (hl : Later c c') (hv : c'.credential_version = c.credential_version)
    (hs : c'.status ≠ .connected)
    (hp : c'.encrypted_payload = none ∨ c'.encrypted_payload = c.encrypted_payload ∧ aad c' = aad c)
    :
    Plain c c' where
  later := hl
  version := hv
  connected h := absurd h hs
  payload := hp

/-- Settlements and refreshes raise the version; everything else is plain. -/
theorem RowMove.plain (h : RowMove c c') (hv : c'.credential_version = c.credential_version) :
    Plain c c' := by
  have hl := h.later
  cases h with
  | same => exact ⟨hl, hv, fun h => ⟨h, rfl, fun _ => rfl⟩, .inr ⟨rfl, rfl⟩⟩
  | reserved now hs =>
    refine .disconnected hl hv ?_ (.inr ⟨rfl, rfl⟩)
    intro h
    cases h
  | reset now hg hr =>
    refine .disconnected hl hv ?_ (.inl rfl)
    intro h
    cases h
  | settled now hg => exact absurd hv (Nat.succ_ne_self _)
  | disconnected now =>
    refine .disconnected hl hv ?_ (.inl rfl)
    intro h
    cases h
  | claimed claim now hs ho =>
    exact ⟨hl, hv, fun h => ⟨h, rfl, fun hne => absurd ho hne⟩, .inr ⟨rfl, rfl⟩⟩
  | refreshed now hs ho => exact absurd hv (Nat.succ_ne_self _)
  | fenced now hs ho =>
    refine .disconnected hl hv ?_ (.inr ⟨rfl, rfl⟩)
    intro h
    cases h

/-- The connection stays, moved plainly, or is reserved anew. -/
structure PlainStep (db db' : Db) : Prop where
  moved : ∀ c, db.connection = some c → ∃ c', db'.connection = some c' ∧ Plain c c'
  made : db.connection = none → ∀ c', db'.connection = some c' →
    c'.status ≠ .connected ∧ c'.encrypted_payload = none

variable {db db' : Db}

theorem PlainStep.of_eq (h : db'.connection = db.connection) : PlainStep db db' where
  moved c hc := ⟨c, h.trans hc, RowMove.same.plain rfl⟩
  made hn c' hc' := by
    rw [h, hn] at hc'
    cases hc'

theorem PlainStep.of_map {p : McpConnectionRow → Bool} {f : McpConnectionRow → McpConnectionRow}
    (h : db'.connection = db.connection.map fun c => if p c then f c else c)
    (hf : ∀ c, db.connection = some c → p c = true → Plain c (f c)) : PlainStep db db' where
  moved c hc := by
    rw [hc, Option.map_some] at h
    refine ⟨_, h, ?_⟩
    split
    next hp => exact hf c hc hp
    next => exact RowMove.same.plain rfl
  made hn c' hc' := by
    rw [h, hn] at hc'
    cases hc'

theorem plain_reserve (db : Db) (connectionId : Nat) (ownerId : String) (client : McpOAuthClient)
    (now : Millis) : PlainStep db (db.reserve connectionId ownerId client now).2 := by
  have hm := moves_reserve db connectionId ownerId client now
  unfold Db.reserve at hm ⊢
  split
  next hs =>
    rw [if_pos hs] at hm
    refine ⟨?_, ?_⟩
    · intro c hc
      obtain ⟨c', hc', hmove⟩ := hm c hc
      refine ⟨c', hc', hmove.plain ?_⟩
      rw [hc] at hc'
      cases hc'
      dsimp only
      split
      · rfl
      · rfl
    · intro hn c' hc'
      rw [hn] at hc'
      cases hc'
      refine ⟨?_, rfl⟩
      intro h
      cases h
  next => exact .of_eq rfl

theorem plain_prepareConsent (db : Db) (row : McpConnectionRow) (client : McpOAuthClient)
    (now : Millis) : PlainStep db (db.prepareConsent row client now) := by
  unfold Db.prepareConsent
  split
  next hr =>
    refine ⟨?_, ?_⟩
    · intro c hc
      simp only [Db.resetConnection, hc, Option.map_some, Option.some.injEq, exists_eq_left']
      split
      next hg => exact (RowMove.reset now hg.2.1 hr).plain rfl
      next => exact RowMove.same.plain rfl
    · intro hn c' hc'
      simp only [Db.resetConnection, hn, Option.map_none] at hc'
      cases hc'
  next => exact .of_eq rfl

variable {row : McpConnectionRow}

theorem plain_publishConsent {client : McpOAuthClient} {transaction : McpOAuthTransaction}
    {now : Millis} {published : Bool}
    (h : db.publishConsent row client transaction now = some (published, db')) :
    PlainStep db db' := by
  have hp := plain_prepareConsent db row client now
  unfold Db.publishConsent at h
  dsimp only at h
  split at h
  next =>
    obtain ⟨transactions, _, hdb⟩ := Option.map_eq_some_iff.mp h
    cases hdb
    exact ⟨hp.moved, hp.made⟩
  next =>
    cases h
    exact hp

theorem plain_disconnect (db : Db) (ownerId : Option String) (now : Millis) :
    PlainStep db (db.disconnectMatching ownerId now) :=
  .of_map rfl fun _ _ _ => (RowMove.disconnected now).plain rfl

theorem plain_claimRefresh (db : Db) (row : McpConnectionRow) (claim : Nat) (now : Millis) :
    PlainStep db (db.claimRefresh row claim now).2 := by
  refine .of_map rfl ?_
  intro c _ hp
  obtain ⟨hs, ho⟩ := of_decide_eq_true hp
  exact (RowMove.claimed claim now hs ho).plain rfl

theorem plain_fenceRefresh (db : Db) (row : McpConnectionRow) (claim : Nat) (now : Millis) :
    PlainStep db (db.fenceRefresh row claim now) := by
  refine .of_map rfl ?_
  intro c _ hp
  obtain ⟨hs, ho⟩ := of_decide_eq_true hp
  exact (RowMove.fenced now hs ho).plain rfl

variable {credential : McpCredential}

/-- A settlement that found nothing wrote nothing. -/
theorem plain_settle {transaction : McpOAuthTransaction} {connection : McpConnectionRow}
    {now : Millis} (h : db.settle transaction connection credential now = (false, db')) :
    PlainStep db db' := by
  unfold Db.settle at h
  dsimp only at h
  obtain ⟨hnone, rfl⟩ := Prod.mk.inj h
  refine .of_map rfl ?_
  intro c hc hp
  rw [hc, Option.any_some, hp] at hnone
  cases hnone

/-! ## Effects -/

/-- The credential was stored on this row. -/
structure Granted.Of (g : Granted) (c : McpConnectionRow) (credential : McpCredential) : Prop where
  connectionId : g.connectionId = c.id
  ownerId : g.ownerId = c.owner_id
  serverId : g.serverId = c.server_id
  authRevision : g.authRevision = c.auth_revision
  grantRevision : g.grantRevision = c.grant_revision
  accessToken : g.accessToken = credential.accessToken

/-- Nothing is settled, exchanged or stored. -/
structure SameSpending (h h' : History) : Prop where
  settlements : h'.settlements = h.settlements
  exchanges : h'.exchanges = h.exchanges
  refreshed : h'.refreshed = h.refreshed
  granted : h'.granted = h.granted

theorem SameSpending.refl (h : History) : SameSpending h h := ⟨rfl, rfl, rfl, rfl⟩

/-- The key of what the token endpoint was given. -/
def Exchange.key (e : Exchange) : Nat × Nat := (e.grant_revision, e.credential_version)

/-- A claim that is followed by its token request. -/
structure Exchanged (s t : State) (row : McpConnectionRow) (claim : Nat) : Prop where
  before : ∃ c, s.db.connection = some c ∧ Db.sameGrant row c = true ∧ c.exchange_owner = none ∧
    ∃ now, t.db.connection =
      some { c with exchange_owner := some claim, exchange_started_at := some now }
  settlements : t.history.settlements = s.history.settlements
  exchanges : t.history.exchanges =
    { grant_revision := row.grant_revision, credential_version := row.credential_version
      consents := s.history.settlements.length } :: s.history.exchanges
  refreshed : t.history.refreshed = s.history.refreshed
  granted : t.history.granted = s.history.granted

/-- A consent that is settled on the row that was read for it. -/
structure Settled (s t : State) (k : McpConnectionRow) (credential : McpCredential) : Prop where
  before : ∃ c, s.db.connection = some c ∧ c.grant_revision = k.grant_revision ∧
    ∃ now, t.db.connection = some (Db.settledRow k c credential now)
  settlements : t.history.settlements.length = s.history.settlements.length + 1
  exchanges : t.history.exchanges = s.history.exchanges
  refreshed : t.history.refreshed = s.history.refreshed
  granted : t.history.granted =
    { connectionId := k.id, ownerId := k.owner_id, serverId := k.server_id
      authRevision := k.auth_revision, grantRevision := k.grant_revision + 1
      accessToken := credential.accessToken } :: s.history.granted

/-- A refreshed credential that is stored by the holder of its claim. -/
structure Refreshed (s t : State) (row : McpConnectionRow) (claim : Nat)
    (rotated : McpCredential) : Prop where
  before : ∃ c, s.db.connection = some c ∧ Db.sameGrant row c = true ∧
    c.exchange_owner = some claim ∧
      ∃ now, t.db.connection = some (Db.refreshedRow row c rotated now)
  settlements : t.history.settlements = s.history.settlements
  exchanges : t.history.exchanges = s.history.exchanges
  refreshed : t.history.refreshed =
    (row.grant_revision, row.credential_version) :: s.history.refreshed
  granted : t.history.granted =
    { connectionId := row.id, ownerId := row.owner_id, serverId := row.server_id
      authRevision := row.auth_revision, grantRevision := row.grant_revision
      accessToken := rotated.accessToken } :: s.history.granted

/-- What a step does to the grant, with the row, the claim and the credential of a refresh that it
stores. -/
inductive Effect (s t : State) : Option (McpConnectionRow × Nat × McpCredential) → Prop
  | plain : PlainStep s.db t.db → SameSpending s.history t.history → Effect s t none
  | exchanged {row : McpConnectionRow} {claim : Nat} : Exchanged s t row claim → Effect s t none
  | settled {k : McpConnectionRow} {credential : McpCredential} :
    (∀ c, s.db.connection = some c → Later k c) → Settled s t k credential → Effect s t none
  | refreshed {row : McpConnectionRow} {claim : Nat} {rotated : McpCredential} :
    (∀ c, s.db.connection = some c → Later row c) → Refreshed s t row claim rotated →
      Effect s t (some (row, claim, rotated))

/-! ## The guard -/

structure Guarded (db : Db) (h : History) : Prop where
  absent : db.connection = none → h.exchanges = []
  /-- No exchange is ahead of the row. -/
  exchanged : ∀ e ∈ h.exchanges, ∀ c, db.connection = some c →
    e.grant_revision ≤ c.grant_revision ∧
      (e.grant_revision = c.grant_revision → e.credential_version ≤ c.credential_version)
  /-- A version that was exchanged is not free. -/
  spent : ∀ e ∈ h.exchanges, ∀ c, db.connection = some c →
    e.grant_revision = c.grant_revision → e.credential_version = c.credential_version →
      c.status = .connected → c.exchange_owner ≠ none
  once : (h.exchanges.map Exchange.key).Nodup
  consents : ∀ e ∈ h.exchanges, e.consents ≤ h.settlements.length
  /-- An exchange without a result holds the row until it is not connected. -/
  unfinished : ∀ e ∈ h.exchanges, e.key ∉ h.refreshed → e.consents = h.settlements.length →
    ∀ c, db.connection = some c → c.status = .connected →
      c.exchange_owner ≠ none ∧ e.grant_revision = c.grant_revision ∧
        e.credential_version = c.credential_version
  granted : ∀ c credential, db.connection = some c → Db.decrypt c = some credential →
    ∃ g ∈ h.granted, g.Of c credential

theorem decrypt_none {c : McpConnectionRow} (h : c.encrypted_payload = none) :
    Db.decrypt c = none := by
  rw [Db.decrypt, h]
  rfl

theorem decrypt_sealed {c : McpConnectionRow} {binding : GrantAad}
    (h : c.encrypted_payload = some (encryptMcp credential binding)) (hb : binding = aad c) :
    Db.decrypt c = some credential := by
  rw [Db.decrypt, h, Option.bind_some]
  exact if_pos hb

theorem Granted.Of.of_aad {g : Granted} (h : g.Of c credential) (ha : aad c' = aad c) :
    g.Of c' credential where
  connectionId := h.connectionId.trans (congrArg GrantAad.id ha).symm
  ownerId := h.ownerId.trans (congrArg GrantAad.owner_id ha).symm
  serverId := h.serverId.trans (congrArg GrantAad.server_id ha).symm
  authRevision := h.authRevision.trans (congrArg GrantAad.auth_revision ha).symm
  grantRevision := h.grantRevision.trans (congrArg GrantAad.grant_revision ha).symm
  accessToken := h.accessToken

section

variable {s t : State}

theorem sameGrant_iff {row c : McpConnectionRow} : Db.sameGrant row c = true ↔
    c.id = row.id ∧ c.grant_revision = row.grant_revision ∧
      c.credential_version = row.credential_version ∧ c.status = .connected := by
  rw [Db.sameGrant, decide_eq_true_iff]

/-- What is granted is the credential on the connected row. -/
structure Grants (s t : State) (credential : McpCredential) : Prop where
  after : ∃ c', t.db.connection = some c' ∧ c'.status = .connected ∧
    Db.decrypt c' = some credential ∧ (∃ g ∈ t.history.granted, g.Of c' credential) ∧
      ∀ g ∈ t.history.granted, g ∈ s.history.granted ∨ g.Of c' credential

theorem Grants.granted (h : Grants s t credential) {c' : McpConnectionRow} {found : McpCredential}
    (hc' : t.db.connection = some c') (hd : Db.decrypt c' = some found) :
    ∃ g ∈ t.history.granted, g.Of c' found := by
  obtain ⟨d, hd', _, hopen, hex, _⟩ := h.after
  rw [hc', Option.some.injEq] at hd'
  subst hd'
  rw [hopen, Option.some.injEq] at hd
  rwa [← hd]

theorem Settled.grants {k : McpConnectionRow} (hk : ∀ c, s.db.connection = some c → Later k c)
    (h : Settled s t k credential) :
    Grants s t credential := by
  obtain ⟨c, hc, hrev, now, hc'⟩ := h.before
  have hlater := hk c hc
  have hcore := hlater.core hrev
  refine ⟨_, hc', rfl, ?_, ?_, ?_⟩
  · refine decrypt_sealed rfl ?_
    simp only [Db.settledRow, aad, hlater.id, hlater.owner_id, hlater.server_id,
      hcore.auth_revision, hcore.issuer, hcore.resource, hcore.client_id]
  · rw [h.granted]
    exact ⟨_, List.mem_cons_self, hlater.id.symm, hlater.owner_id.symm, hlater.server_id.symm,
      hcore.auth_revision.symm, rfl, rfl⟩
  · intro g hg
    rw [h.granted] at hg
    rcases List.mem_cons.mp hg with rfl | hg
    · exact .inr ⟨hlater.id.symm, hlater.owner_id.symm, hlater.server_id.symm,
        hcore.auth_revision.symm, rfl, rfl⟩
    · exact .inl hg

theorem Refreshed.grants {claim : Nat} {rotated : McpCredential}
    (hrow : ∀ c, s.db.connection = some c → Later row c) (h : Refreshed s t row claim rotated) :
    Grants s t rotated := by
  obtain ⟨c, hc, hsame, _, now, hc'⟩ := h.before
  obtain ⟨_, hrev, _, hconn⟩ := sameGrant_iff.mp hsame
  have hlater := hrow c hc
  have hcore := hlater.core hrev
  refine ⟨_, hc', hconn, ?_, ?_, ?_⟩
  · refine decrypt_sealed rfl ?_
    simp only [Db.refreshedRow, aad, hlater.id, hlater.owner_id, hlater.server_id,
      hcore.auth_revision, hcore.issuer, hcore.resource, hcore.client_id, hrev]
  · rw [h.granted]
    exact ⟨_, List.mem_cons_self, hlater.id.symm, hlater.owner_id.symm, hlater.server_id.symm,
      hcore.auth_revision.symm, hrev.symm, rfl⟩
  · intro g hg
    rw [h.granted] at hg
    rcases List.mem_cons.mp hg with rfl | hg
    · exact .inr ⟨hlater.id.symm, hlater.owner_id.symm, hlater.server_id.symm,
        hcore.auth_revision.symm, hrev.symm, rfl⟩
    · exact .inl hg

theorem Guarded.plain (hg : Guarded s.db s.history) (hp : PlainStep s.db t.db)
    (hh : SameSpending s.history t.history) : Guarded t.db t.history := by
  have hback : ∀ c', t.db.connection = some c' → s.history.exchanges = [] ∨
      ∃ c, s.db.connection = some c ∧ Plain c c' := by
    intro c' hc'
    cases hc : s.db.connection with
    | none => exact .inl (hg.absent hc)
    | some c =>
      obtain ⟨d, hd, hplain⟩ := hp.moved c hc
      rw [hc', Option.some.injEq] at hd
      subst hd
      exact .inr ⟨c, rfl, hplain⟩
  refine
    { absent := ?_, exchanged := ?_, spent := ?_, once := ?_, consents := ?_, unfinished := ?_
      granted := ?_ }
  · intro hn
    rw [hh.exchanges]
    cases hc : s.db.connection with
    | none => exact hg.absent hc
    | some c =>
      obtain ⟨d, hd, _⟩ := hp.moved c hc
      rw [hn] at hd
      cases hd
  · intro e he c' hc'
    rw [hh.exchanges] at he
    rcases hback c' hc' with hempty | ⟨c, hc, hplain⟩
    · rw [hempty] at he
      cases he
    · have hold := hg.exchanged e he c hc
      have hle := hplain.later.grant_revision
      rw [hplain.version]
      refine ⟨by omega, ?_⟩
      intro heq
      exact hold.2 (by omega)
  · intro e he c' hc' hrev hver hconn
    rw [hh.exchanges] at he
    rcases hback c' hc' with hempty | ⟨c, hc, hplain⟩
    · rw [hempty] at he
      cases he
    · obtain ⟨hs, hsame, howner⟩ := hplain.connected hconn
      have hne := hg.spent e he c hc (hrev.trans hsame) (hver.trans hplain.version) hs
      rw [howner hne]
      exact hne
  · rw [hh.exchanges]
    exact hg.once
  · intro e he
    rw [hh.exchanges] at he
    rw [hh.settlements]
    exact hg.consents e he
  · intro e he hres hcons c' hc' hconn
    rw [hh.exchanges] at he
    rw [hh.refreshed] at hres
    rw [hh.settlements] at hcons
    rcases hback c' hc' with hempty | ⟨c, hc, hplain⟩
    · rw [hempty] at he
      cases he
    · obtain ⟨hs, hsame, howner⟩ := hplain.connected hconn
      obtain ⟨hne, hrev, hver⟩ := hg.unfinished e he hres hcons c hc hs
      rw [howner hne]
      exact ⟨hne, hrev.trans hsame.symm, hver.trans hplain.version.symm⟩
  · intro c' credential hc' hd
    rw [hh.granted]
    cases hc : s.db.connection with
    | none =>
      rw [decrypt_none (hp.made hc c' hc').2] at hd
      cases hd
    | some c =>
      obtain ⟨d, hd', hplain⟩ := hp.moved c hc
      rw [hc', Option.some.injEq] at hd'
      subst hd'
      rcases hplain.payload with hnone | ⟨hsame, ha⟩
      · rw [decrypt_none hnone] at hd
        cases hd
      · rw [Db.decrypt, hsame, ha] at hd
        obtain ⟨g, hmem, hof⟩ := hg.granted c credential hc hd
        exact ⟨g, hmem, hof.of_aad ha⟩

theorem Guarded.exchange (hg : Guarded s.db s.history) {claim : Nat} (h : Exchanged s t row claim) :
    Guarded t.db t.history := by
  obtain ⟨c, hc, hsame, hfree, now, hc'⟩ := h.before
  obtain ⟨_, hrev, hver, hconn⟩ := sameGrant_iff.mp hsame
  have howner : ∀ c', t.db.connection = some c' → c'.exchange_owner ≠ none ∧
      c'.grant_revision = c.grant_revision ∧ c'.credential_version = c.credential_version := by
    intro c' hd
    rw [hc', Option.some.injEq] at hd
    subst hd
    exact ⟨fun h => (by cases h), rfl, rfl⟩
  refine
    { absent := ?_, exchanged := ?_, spent := ?_, once := ?_, consents := ?_, unfinished := ?_
      granted := ?_ }
  · intro hn
    rw [hc'] at hn
    cases hn
  · intro e he c' hd
    obtain ⟨_, hrev', hver'⟩ := howner c' hd
    rw [h.exchanges] at he
    rw [hrev', hver']
    rcases List.mem_cons.mp he with rfl | he
    · exact ⟨Nat.le_of_eq hrev.symm, fun _ => Nat.le_of_eq hver.symm⟩
    · exact hg.exchanged e he c hc
  · intro e _ c' hd _ _ _
    exact (howner c' hd).1
  · rw [h.exchanges, List.map_cons, List.nodup_cons]
    refine ⟨?_, hg.once⟩
    intro hin
    -- the version would have been exchanged before, and the row would not be free
    obtain ⟨e, he, hkey⟩ := List.mem_map.mp hin
    obtain ⟨hk₁, hk₂⟩ := Prod.mk.inj hkey
    exact hg.spent e he c hc (hk₁.trans hrev.symm) (hk₂.trans hver.symm) hconn hfree
  · intro e he
    rw [h.exchanges] at he
    rw [h.settlements]
    rcases List.mem_cons.mp he with rfl | he
    · exact Nat.le_refl _
    · exact hg.consents e he
  · intro e he hres hcons c' hd _
    obtain ⟨hne, hrev', hver'⟩ := howner c' hd
    rw [h.exchanges] at he
    rw [h.refreshed] at hres
    rw [h.settlements] at hcons
    rcases List.mem_cons.mp he with rfl | he
    · exact ⟨hne, hrev.symm.trans hrev'.symm, hver.symm.trans hver'.symm⟩
    · exact absurd hfree (hg.unfinished e he hres hcons c hc hconn).1
  · intro c' credential hd hdec
    rw [hc', Option.some.injEq] at hd
    subst hd
    rw [h.granted]
    obtain ⟨g, hmem, hof⟩ := hg.granted c credential hc hdec
    exact ⟨g, hmem, hof.of_aad rfl⟩

theorem Guarded.settle (hg : Guarded s.db s.history) {k : McpConnectionRow}
    (hk : ∀ c, s.db.connection = some c → Later k c) (h : Settled s t k credential) :
    Guarded t.db t.history := by
  obtain ⟨c, hc, hrev, now, hc'⟩ := h.before
  have hraised : ∀ c', t.db.connection = some c' →
      c'.grant_revision = c.grant_revision + 1 := by
    intro c' hd
    rw [hc', Option.some.injEq] at hd
    subst hd
    rw [hrev]
    rfl
  refine
    { absent := ?_, exchanged := ?_, spent := ?_, once := ?_, consents := ?_, unfinished := ?_
      granted := ?_ }
  · intro hn
    rw [hc'] at hn
    cases hn
  · intro e he c' hd
    rw [h.exchanges] at he
    have hold := (hg.exchanged e he c hc).1
    have hnew := hraised c' hd
    refine ⟨by omega, ?_⟩
    intro heq
    omega
  · intro e he c' hd heq
    rw [h.exchanges] at he
    have hold := (hg.exchanged e he c hc).1
    have hnew := hraised c' hd
    omega
  · rw [h.exchanges]
    exact hg.once
  · intro e he
    rw [h.exchanges] at he
    rw [h.settlements]
    exact Nat.le_succ_of_le (hg.consents e he)
  · intro e he _ hcons
    rw [h.exchanges] at he
    have hle := hg.consents e he
    rw [h.settlements] at hcons
    omega
  · intro c' found hd hdec
    exact (h.grants hk).granted hd hdec

theorem Guarded.refresh (hg : Guarded s.db s.history) {claim : Nat} {rotated : McpCredential}
    (hrow : ∀ c, s.db.connection = some c → Later row c) (h : Refreshed s t row claim rotated) :
    Guarded t.db t.history := by
  obtain ⟨c, hc, hsame, howner, now, hc'⟩ := h.before
  obtain ⟨_, hrev, hver, hconn⟩ := sameGrant_iff.mp hsame
  have hraised : ∀ c', t.db.connection = some c' → c'.grant_revision = c.grant_revision ∧
      c'.credential_version = c.credential_version + 1 := by
    intro c' hd
    rw [hc', Option.some.injEq] at hd
    subst hd
    exact ⟨rfl, rfl⟩
  refine
    { absent := ?_, exchanged := ?_, spent := ?_, once := ?_, consents := ?_, unfinished := ?_
      granted := ?_ }
  · intro hn
    rw [hc'] at hn
    cases hn
  · intro e he c' hd
    rw [h.exchanges] at he
    obtain ⟨hold, hold'⟩ := hg.exchanged e he c hc
    obtain ⟨hnew, hnew'⟩ := hraised c' hd
    refine ⟨by omega, ?_⟩
    intro heq
    have := hold' (by omega)
    omega
  · intro e he c' hd heq heq'
    rw [h.exchanges] at he
    obtain ⟨hold, hold'⟩ := hg.exchanged e he c hc
    obtain ⟨hnew, hnew'⟩ := hraised c' hd
    have := hold' (by omega)
    omega
  · rw [h.exchanges]
    exact hg.once
  · intro e he
    rw [h.exchanges] at he
    rw [h.settlements]
    exact hg.consents e he
  · intro e he hres hcons c' hd hconn'
    rw [h.exchanges] at he
    rw [h.refreshed, List.mem_cons, not_or] at hres
    rw [h.settlements] at hcons
    -- the exchange that held the row is the one whose result is stored
    obtain ⟨_, hrev', hver'⟩ := hg.unfinished e he hres.2 hcons c hc hconn
    refine absurd ?_ hres.1
    rw [Exchange.key, hrev', hver', hrev, hver]
  · intro c' found hd hdec
    exact (h.grants hrow).granted hd hdec

theorem Guarded.effect (hg : Guarded s.db s.history)
    {stored : Option (McpConnectionRow × Nat × McpCredential)} (h : Effect s t stored) :
    Guarded t.db t.history := by
  cases h with
  | plain hp hh => exact hg.plain hp hh
  | exchanged he => exact hg.exchange he
  | settled hk hs => exact hg.settle hk hs
  | refreshed hr hs => exact hg.refresh hr hs

end

end BackgroundAgents.Mcp

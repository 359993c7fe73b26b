import BackgroundAgents.Mcp.Calls

/-!
# What a step does to the connection

`RowMove` lists what any statement can do to the connection row, with the guard
it has. Everything about revisions and versions is read off it.
-/

namespace BackgroundAgents.Mcp

open Transition

/-- What a statement can do to the connection. -/
inductive RowMove (c : McpConnectionRow) : McpConnectionRow → Prop
  | same : RowMove c c
  /-- `begin` reserves a row that is not connected. -/
  | reserved (now : Millis) : c.status ≠ .connected →
    RowMove c { c with status := .reconnect_required, updated_at := now }
  | reset {row : McpConnectionRow} {client : McpOAuthClient} (now : Millis) :
    c.grant_revision = row.grant_revision → needsReset row client = true →
    RowMove c (resetRow c client (consentRevision row client) now)
  | settled {connection : McpConnectionRow} {credential : McpCredential} (now : Millis) :
    c.grant_revision = connection.grant_revision →
    RowMove c (Db.settledRow connection c credential now)
  | disconnected (now : Millis) : RowMove c (Db.disconnectedRow c now)
  | claimed {row : McpConnectionRow} (claim : Nat) (now : Millis) :
    Db.sameGrant row c = true → c.exchange_owner = none →
    RowMove c { c with exchange_owner := some claim, exchange_started_at := some now }
  | refreshed {row : McpConnectionRow} {claim : Nat} {credential : McpCredential} (now : Millis) :
    Db.sameGrant row c = true → c.exchange_owner = some claim →
    RowMove c (Db.refreshedRow row c credential now)
  | fenced {row : McpConnectionRow} {claim : Nat} (now : Millis) :
    Db.sameGrant row c = true → c.exchange_owner = some claim →
    RowMove c (Db.fencedRow c now)

/-- The columns that a connection takes from an OAuth client. -/
structure SameCore (c c' : McpConnectionRow) : Prop where
  auth_revision : c'.auth_revision = c.auth_revision
  issuer : c'.issuer = c.issuer
  resource : c'.resource = c.resource
  client_id : c'.client_id = c.client_id
  token_endpoint : c'.token_endpoint = c.token_endpoint

theorem SameCore.refl (c : McpConnectionRow) : SameCore c c := ⟨rfl, rfl, rfl, rfl, rfl⟩

variable {a b c : McpConnectionRow}

theorem SameCore.trans (h : SameCore a b) (h' : SameCore b c) :
    SameCore a c :=
  ⟨h'.auth_revision.trans h.auth_revision, h'.issuer.trans h.issuer,
    h'.resource.trans h.resource, h'.client_id.trans h.client_id,
    h'.token_endpoint.trans h.token_endpoint⟩

variable {c c' : McpConnectionRow}

theorem SameCore.sameClient (h : SameCore c c') (client : McpOAuthClient) :
    sameClient c' client = sameClient c client := by
  simp only [Mcp.sameClient, h.auth_revision, h.issuer, h.resource, h.client_id, h.token_endpoint]

/-- Revisions and versions do not go back. While the revision stays, so do the client and the
presence of a credential, and nothing is connected or disconnected; while the version stays too, the
credential is the same. -/
structure Later (c c' : McpConnectionRow) : Prop where
  id : c'.id = c.id
  owner_id : c'.owner_id = c.owner_id
  server_id : c'.server_id = c.server_id
  grant_revision : c.grant_revision ≤ c'.grant_revision
  credential_version : c.credential_version ≤ c'.credential_version
  core : c'.grant_revision = c.grant_revision → SameCore c c'
  payload : c'.grant_revision = c.grant_revision → c.encrypted_payload ≠ none →
    c'.encrypted_payload ≠ none
  connected : c'.grant_revision = c.grant_revision → c'.status = .connected →
    c.status = .connected
  disconnected : c'.grant_revision = c.grant_revision → c'.status = .disconnected →
    c.status = .disconnected
  stored : c'.grant_revision = c.grant_revision →
    c'.credential_version = c.credential_version → c'.encrypted_payload = c.encrypted_payload

/-- A statement that leaves the revision. -/
theorem Later.kept (hid : c'.id = c.id)
    (howner : c'.owner_id = c.owner_id) (hserver : c'.server_id = c.server_id)
    (hg : c'.grant_revision = c.grant_revision)
    (hversion : c.credential_version ≤ c'.credential_version) (hcore : SameCore c c')
    (hpayload : c.encrypted_payload ≠ none → c'.encrypted_payload ≠ none)
    (hstored : c'.credential_version = c.credential_version →
      c'.encrypted_payload = c.encrypted_payload)
    (hstatus : c'.status = c.status ∨ c'.status = .reconnect_required) : Later c c' where
  id := hid
  owner_id := howner
  server_id := hserver
  grant_revision := Nat.le_of_eq hg.symm
  credential_version := hversion
  core _ := hcore
  payload _ := hpayload
  connected _ h := by
    rcases hstatus with hs | hs
    · rw [← hs]
      exact h
    · rw [hs] at h
      cases h
  disconnected _ h := by
    rcases hstatus with hs | hs
    · rw [← hs]
      exact h
    · rw [hs] at h
      cases h
  stored _ := hstored

theorem Later.refl (c : McpConnectionRow) : Later c c :=
  .kept rfl rfl rfl rfl (Nat.le_refl _) (.refl c) (fun h => h) (fun _ => rfl) (.inl rfl)

theorem Later.revisions (h : Later a b) (h' : Later b c) (he : c.grant_revision = a.grant_revision)
    :
    b.grant_revision = a.grant_revision ∧ c.grant_revision = b.grant_revision := by
  have hle := h.grant_revision
  have hle' := h'.grant_revision
  omega

theorem Later.trans (h : Later a b) (h' : Later b c) : Later a c where
  id := h'.id.trans h.id
  owner_id := h'.owner_id.trans h.owner_id
  server_id := h'.server_id.trans h.server_id
  grant_revision := Nat.le_trans h.grant_revision h'.grant_revision
  credential_version := Nat.le_trans h.credential_version h'.credential_version
  core he := by
    obtain ⟨hb, hc⟩ := h.revisions h' he
    exact (h.core hb).trans (h'.core hc)
  payload he hp := by
    obtain ⟨hb, hc⟩ := h.revisions h' he
    exact h'.payload hc (h.payload hb hp)
  connected he hs := by
    obtain ⟨hb, hc⟩ := h.revisions h' he
    exact h.connected hb (h'.connected hc hs)
  disconnected he hs := by
    obtain ⟨hb, hc⟩ := h.revisions h' he
    exact h.disconnected hb (h'.disconnected hc hs)
  stored he hv := by
    obtain ⟨hb, hc⟩ := h.revisions h' he
    have hle := h.credential_version
    have hle' := h'.credential_version
    exact (h'.stored hc (by omega)).trans (h.stored hb (by omega))

/-- A statement that raises the revision. -/
theorem Later.raised (hid : c'.id = c.id) (howner : c'.owner_id = c.owner_id)
    (hserver : c'.server_id = c.server_id) (hversion : c.credential_version ≤ c'.credential_version)
    (h : c'.grant_revision = c.grant_revision + 1) : Later c c' where
  id := hid
  owner_id := howner
  server_id := hserver
  grant_revision := by omega
  credential_version := hversion
  core he := by omega
  payload he := by omega
  connected he := by omega
  disconnected he := by omega
  stored he := by omega

variable {client : McpOAuthClient} {row : McpConnectionRow}

theorem consentRevision_of_needsReset (h : needsReset row client = true) :
    consentRevision row client = row.grant_revision + 1 := by
  rw [consentRevision, if_pos h]

theorem RowMove.later (h : RowMove c c') : Later c c' := by
  cases h with
  | same => exact .refl c
  | reserved now hs =>
    exact .kept rfl rfl rfl rfl (Nat.le_refl _) ⟨rfl, rfl, rfl, rfl, rfl⟩ (fun h => h)
      (fun _ => rfl) (.inr rfl)
  | reset now hg hr =>
    refine .raised rfl rfl rfl (Nat.le_refl _) ?_
    rw [hg]
    exact consentRevision_of_needsReset hr
  | settled now hg =>
    refine .raised rfl rfl rfl (Nat.le_succ _) ?_
    rw [hg]
    rfl
  | disconnected now => exact .raised rfl rfl rfl (Nat.le_refl _) rfl
  | claimed claim now hs ho =>
    exact .kept rfl rfl rfl rfl (Nat.le_refl _) ⟨rfl, rfl, rfl, rfl, rfl⟩ (fun h => h)
      (fun _ => rfl) (.inl rfl)
  | refreshed now hs ho =>
    refine .kept rfl rfl rfl rfl (Nat.le_succ _) ⟨rfl, rfl, rfl, rfl, rfl⟩ ?_ ?_ (.inl rfl)
    · intro _ he
      cases he
    · intro hv
      exact absurd hv (Nat.succ_ne_self _)
  | fenced now hs ho =>
    exact .kept rfl rfl rfl rfl (Nat.le_refl _) ⟨rfl, rfl, rfl, rfl, rfl⟩ (fun h => h)
      (fun _ => rfl) (.inr rfl)

/-! ## The connection over one statement -/

/-- The connection stays, and moves. -/
def Moves (db db' : Db) : Prop :=
  ∀ c, db.connection = some c → ∃ c', db'.connection = some c' ∧ RowMove c c'

theorem Moves.of_eq {db db' : Db} (h : db'.connection = db.connection) : Moves db db' := by
  intro c hc
  exact ⟨c, h.trans hc, .same⟩

theorem Moves.of_map {db db' : Db} {p : McpConnectionRow → Bool}
    {f : McpConnectionRow → McpConnectionRow}
    (h : db'.connection = db.connection.map fun c => if p c then f c else c)
    (hf : ∀ c, db.connection = some c → p c = true → RowMove c (f c)) : Moves db db' := by
  intro c hc
  rw [hc, Option.map_some] at h
  refine ⟨_, h, ?_⟩
  split
  next hp => exact hf c hc hp
  next => exact .same

theorem moves_reserve (db : Db) (connectionId : Nat) (ownerId : String) (client : McpOAuthClient)
    (now : Millis) : Moves db (db.reserve connectionId ownerId client now).2 := by
  unfold Db.reserve
  split
  next =>
    intro c hc
    refine ⟨_, rfl, ?_⟩
    rw [hc]
    dsimp only
    split
    next => exact .same
    next hs => exact .reserved now hs
  next => exact .of_eq rfl

theorem moves_resetConnection {db : Db} (now : Millis) (hr : needsReset row client = true) :
    Moves db (db.resetConnection row client now) := by
  intro c hc
  simp only [Db.resetConnection, hc, Option.map_some, Option.some.injEq, exists_eq_left']
  split
  next hg => exact .reset now hg.2.1 hr
  next => exact .same

theorem moves_prepareConsent (db : Db) (row : McpConnectionRow) (client : McpOAuthClient)
    (now : Millis) : Moves db (db.prepareConsent row client now) := by
  unfold Db.prepareConsent
  split
  next hr => exact moves_resetConnection now hr
  next => exact .of_eq rfl

theorem moves_publishConsent {db db' : Db} {transaction : McpOAuthTransaction} {now : Millis}
    {published : Bool} (h : db.publishConsent row client transaction now = some (published, db')) :
    Moves db db' := by
  have hm := moves_prepareConsent db row client now
  unfold Db.publishConsent at h
  dsimp only at h
  split at h
  next =>
    obtain ⟨transactions, _, hdb⟩ := Option.map_eq_some_iff.mp h
    cases hdb
    exact hm
  next =>
    cases h
    exact hm

theorem moves_claimTransaction (db : Db) (stateDigest ownerId sessionId : String) (claim : Nat)
    (now : Millis) : Moves db (db.claimTransaction stateDigest ownerId sessionId claim now).2 := by
  unfold Db.claimTransaction
  split
  · exact .of_eq rfl
  · exact .of_eq rfl

theorem settles_revision {db : Db} {transaction : McpOAuthTransaction}
    {connection current : McpConnectionRow} {now : Millis}
    (h : db.settles transaction connection current now = true) :
    current.grant_revision = connection.grant_revision := by
  unfold Db.settles at h
  exact (of_decide_eq_true h).2.2.1

theorem moves_settle (db : Db) (transaction : McpOAuthTransaction) (connection : McpConnectionRow)
    (credential : McpCredential) (now : Millis) :
    Moves db (db.settle transaction connection credential now).2 :=
  .of_map rfl fun _ _ hp => .settled now (settles_revision hp)

theorem moves_disconnect (db : Db) (ownerId : Option String) (now : Millis) :
    Moves db (db.disconnectMatching ownerId now) :=
  .of_map rfl fun _ _ _ => .disconnected now

theorem moves_claimRefresh (db : Db) (row : McpConnectionRow) (claim : Nat) (now : Millis) :
    Moves db (db.claimRefresh row claim now).2 := by
  refine .of_map rfl ?_
  intro c _ hp
  obtain ⟨hs, ho⟩ := of_decide_eq_true hp
  exact .claimed claim now hs ho

theorem moves_publishRefresh (db : Db) (row : McpConnectionRow) (claim : Nat)
    (credential : McpCredential) (now : Millis) :
    Moves db (db.publishRefresh row claim credential now).2 := by
  refine .of_map rfl ?_
  intro c _ hp
  obtain ⟨hs, ho, _⟩ := of_decide_eq_true hp
  exact .refreshed now hs ho

theorem moves_fenceRefresh (db : Db) (row : McpConnectionRow) (claim : Nat) (now : Millis) :
    Moves db (db.fenceRefresh row claim now) := by
  refine .of_map rfl ?_
  intro c _ hp
  obtain ⟨hs, ho⟩ := of_decide_eq_true hp
  exact .fenced now hs ho

/-! ## The connection over one step -/

theorem moves_execute {s : State} {answer : Answer} {db : Db} {history : History}
    (h : Moves s.db db) : Moves s.db (s.execute answer db history).db := by
  unfold State.execute
  split
  · exact .of_eq rfl
  · exact h

section

variable {assertProfile : String → String → String → Bool} {ownerId : String} {s : State}

theorem moves_start (c : StartCall) (answer : Answer) :
    Moves s.db (c.next ownerId s answer).1.db := by
  unfold StartCall.next
  split
  next => exact moves_execute (.of_eq rfl)
  next => exact moves_execute (moves_reserve _ _ _ _ _)
  next => exact moves_execute (.of_eq rfl)
  next =>
    dsimp only
    split
    next h => exact moves_execute (moves_publishConsent h)
    next h => exact moves_execute (moves_publishConsent h)
    next => exact .of_eq rfl

theorem moves_callback (c : CallbackCall) (answer : Answer) :
    Moves s.db (c.next assertProfile s answer).1.db := by
  unfold CallbackCall.next
  split
  next => exact moves_execute (.of_eq rfl)
  next =>
    split
    next h =>
      have hm := moves_claimTransaction s.db c.stateDigest c.ownerId c.browserSessionId c.claim c.now
      rw [h] at hm
      exact moves_execute hm
    next => exact .of_eq rfl
  next => exact .of_eq rfl
  next => exact .of_eq rfl
  next transaction connection credential _ =>
    have hm := moves_settle s.db transaction connection credential s.now
    split
    next h =>
      rw [h] at hm
      exact moves_execute hm
    next h =>
      rw [h] at hm
      exact moves_execute hm
  next => exact moves_execute (.of_eq rfl)

theorem moves_credential (c : CredentialCall) (answer : Answer) :
    Moves s.db (c.next assertProfile s answer).1.db := by
  unfold CredentialCall.next
  split
  next => exact .of_eq rfl
  next =>
    split
    next => exact .of_eq rfl
    next =>
      split
      next =>
        split
        next => exact .of_eq rfl
        next =>
          split
          next => exact .of_eq rfl
          next => exact .of_eq rfl
      next =>
        split
        next => exact .of_eq rfl
        next =>
          split
          next => exact .of_eq rfl
          next => exact .of_eq rfl
  next => exact moves_execute (moves_fenceRefresh _ _ _ _)
  next row credential _ =>
    have hm := moves_claimRefresh s.db row s.drawn s.now
    split
    next => exact .of_eq rfl
    next h =>
      rw [h] at hm
      split
      next => exact moves_execute hm
      next =>
        split
        next => exact hm
        next => exact moves_execute hm
  next => exact .of_eq rfl
  next row claim rotated _ =>
    have hm := moves_publishRefresh s.db row claim rotated s.now
    split
    next h =>
      rw [h] at hm
      dsimp only
      split
      next => exact hm
      next => exact moves_execute hm
    next => exact .of_eq rfl
  next => exact moves_execute (moves_fenceRefresh _ _ _ _)

theorem moves_call (call : Call) (answer : Answer) :
    Moves s.db (call.next assertProfile ownerId s answer).1.db := by
  cases call with
  | start c => exact moves_start c answer
  | callback c => exact moves_callback c answer
  | credential c => exact moves_credential c answer

/-- **The connection stays**, and every step moves it in one of the ways of `RowMove`. -/
theorem moves_step {a : Act} {t : State} (h : s.step assertProfile ownerId a = some t) :
    Moves s.db t.db := by
  cases a with
  | start browserSessionId client stateDigest verifier =>
    simp only [State.step] at h
    split at h
    next => cases h
    next =>
      cases h
      exact .of_eq rfl
  | callback owner browserSessionId stateDigest iss =>
    cases h
    exact .of_eq rfl
  | credential binding =>
    cases h
    exact .of_eq rfl
  | next i answer =>
    obtain ⟨call, _, rfl⟩ := Option.map_eq_some_iff.mp h
    exact moves_call call answer
  | crash i =>
    obtain ⟨call, _, rfl⟩ := Option.map_eq_some_iff.mp h
    exact .of_eq rfl
  | disconnect =>
    cases h
    exact moves_disconnect s.db (some ownerId) s.now
  | disconnectServer =>
    cases h
    exact moves_disconnect s.db none s.now
  | editServer bump enabled =>
    cases h
    exact .of_eq rfl
  | signIn session =>
    obtain ⟨sessions, _, rfl⟩ := Option.map_eq_some_iff.mp h
    exact .of_eq rfl
  | signOut sessionId =>
    cases h
    exact .of_eq rfl
  | suspend userId =>
    cases h
    exact .of_eq rfl
  | unsuspend userId =>
    cases h
    exact .of_eq rfl
  | tick now =>
    simp only [State.step] at h
    split at h
    next =>
      cases h
      exact .of_eq rfl
    next => cases h

end

end BackgroundAgents.Mcp

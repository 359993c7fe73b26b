import BackgroundAgents.Mcp.Spending
import BackgroundAgents.Mcp.ConsentSafety

/-!
# A refresh token is spent once

`CredentialCall.Holds` says what a credential call may rely on at each stage: the
row it read is behind the connection, and while it exchanges or stores, nobody
else can claim the grant. With `Guarded` this gives one exchange at a time for a
grant, one for a version, and no token that was not stored for the caller's own
binding.
-/

namespace BackgroundAgents.Mcp

open Transition

/-! ## What a credential call holds -/

/-- The row that the call has read and works on. -/
def CredentialStage.row : CredentialStage → Option McpConnectionRow
  | .deciding row => some row
  | .claiming row _ => some row
  | .exchanging row _ _ => some row
  | .publishing row _ _ => some row
  | .requiring => none
  | .fencingStale _ _ => none
  | .fencing _ _ => none

/-- The row and the claim under which the call has the refresh token exchanged. -/
def CredentialStage.held : CredentialStage → Option (McpConnectionRow × Nat)
  | .exchanging row claim _ => some (row, claim)
  | .publishing row claim _ => some (row, claim)
  | .deciding _ => none
  | .claiming _ _ => none
  | .requiring => none
  | .fencingStale _ _ => none
  | .fencing _ _ => none

/-- The credential that the call takes to the token endpoint. -/
def CredentialStage.opened : CredentialStage → Option (McpConnectionRow × McpCredential)
  | .claiming row credential => some (row, credential)
  | .exchanging row _ credential => some (row, credential)
  | .publishing _ _ _ => none
  | .deciding _ => none
  | .requiring => none
  | .fencingStale _ _ => none
  | .fencing _ _ => none

/-- What `require` checks. -/
structure BoundTo (binding : McpGrantBinding) (row : McpConnectionRow) : Prop where
  connectionId : row.id = binding.connectionId
  grantRevision : row.grant_revision = binding.grantRevision
  serverId : row.server_id = binding.serverId
  serverAuthRevision : row.auth_revision = binding.serverAuthRevision
  canonicalUserId : row.owner_id = binding.canonicalUserId

/-- A row that was read some time ago. -/
structure ReadRow (s : State) (binding : McpGrantBinding) (row : McpConnectionRow) : Prop where
  bound : BoundTo binding row
  later : ∃ c, s.db.connection = some c ∧ Later row c
  granted : ∀ credential, Db.decrypt row = some credential →
    ∃ g ∈ s.history.granted, g.Of row credential

/-- A claim that is still to be published or fenced. -/
structure HeldRow (s : State) (row : McpConnectionRow) (claim : Nat) : Prop where
  drawn : claim < s.drawn
  exchanged : ∃ e ∈ s.history.exchanges, e.key = (row.grant_revision, row.credential_version)
  /-- Nobody else can claim, store or settle over this grant. -/
  owner : ∀ c, s.db.connection = some c → c.grant_revision = row.grant_revision →
    c.credential_version = row.credential_version ∧
      (c.status = .connected → c.exchange_owner = some claim)

structure CredentialCall.Holds (s : State) (c : CredentialCall) : Prop where
  read : ∀ row, c.stage.row = some row → ReadRow s c.binding row
  opened : ∀ row credential, c.stage.opened = some (row, credential) →
    Db.decrypt row = some credential
  held : ∀ row claim, c.stage.held = some (row, claim) → HeldRow s row claim

/-- The row that a callback has read is behind the connection. -/
def CallbackCall.Reads (s : State) (c : CallbackCall) : Prop :=
  ∀ k, c.stage.connection = some k → ∃ conn, s.db.connection = some conn ∧ Later k conn

def Call.Holds (s : State) : Call → Prop
  | .start _ => True
  | .callback c => c.Reads s
  | .credential c => c.Holds s

def Call.held : Call → Option (McpConnectionRow × Nat)
  | .start _ => none
  | .callback _ => none
  | .credential c => c.stage.held

/-- Two calls with claims have their own, on grants of their own. -/
def Call.Apart (c d : Call) : Prop :=
  ∀ row claim row' claim', c.held = some (row, claim) → d.held = some (row', claim') →
    claim ≠ claim' ∧ row.grant_revision ≠ row'.grant_revision

theorem Call.Apart.symm {c d : Call} (h : c.Apart d) : d.Apart c := by
  intro row claim row' claim' hc hd
  obtain ⟨hne, hne'⟩ := h row' claim' row claim hd hc
  exact ⟨hne.symm, hne'.symm⟩

/-- The token was stored for exactly this binding. -/
structure Granted.For (g : Granted) (r : Returned) : Prop where
  connectionId : g.connectionId = r.binding.connectionId
  ownerId : g.ownerId = r.binding.canonicalUserId
  serverId : g.serverId = r.binding.serverId
  authRevision : g.authRevision = r.binding.serverAuthRevision
  grantRevision : g.grantRevision = r.binding.grantRevision
  accessToken : g.accessToken = r.accessToken

variable {row : McpConnectionRow} {binding : McpGrantBinding}

theorem Granted.Of.to_for {g : Granted} {credential : McpCredential} (h : g.Of row credential)
    (hb : BoundTo binding row) :
    g.For { binding, accessToken := credential.accessToken } where
  connectionId := h.connectionId.trans hb.connectionId
  ownerId := h.ownerId.trans hb.canonicalUserId
  serverId := h.serverId.trans hb.serverId
  authRevision := h.authRevision.trans hb.serverAuthRevision
  grantRevision := h.grantRevision.trans hb.grantRevision
  accessToken := h.accessToken

structure Spending (s : State) : Prop where
  guarded : Guarded s.db s.history
  calls : ∀ c ∈ s.calls, c.Holds s
  apart : s.calls.Pairwise Call.Apart
  returned : ∀ r ∈ s.history.returned, ∃ g ∈ s.history.granted, g.For r

/-! ## Other calls -/

section

variable {s t : State} {stored : Option (McpConnectionRow × Nat × McpCredential)}

/-- The connection stays, and gets later. -/
theorem Effect.later (h : Effect s t stored) {c : McpConnectionRow}
    (hc : s.db.connection = some c) : ∃ c', t.db.connection = some c' ∧ Later c c' := by
  cases h with
  | plain hp _ =>
    obtain ⟨c', hc', hplain⟩ := hp.moved c hc
    exact ⟨c', hc', hplain.later⟩
  | exchanged he =>
    obtain ⟨x, hx, hsame, hfree, now, hx'⟩ := he.before
    rw [hc, Option.some.injEq] at hx
    subst hx
    exact ⟨_, hx', (RowMove.claimed _ now hsame hfree).later⟩
  | settled hk hs =>
    obtain ⟨x, hx, hrev, now, hx'⟩ := hs.before
    rw [hc, Option.some.injEq] at hx
    subst hx
    exact ⟨_, hx', (RowMove.settled now hrev).later⟩
  | refreshed hr hs =>
    obtain ⟨x, hx, hsame, howner, now, hx'⟩ := hs.before
    rw [hc, Option.some.injEq] at hx
    subst hx
    exact ⟨_, hx', (RowMove.refreshed now hsame howner).later⟩

theorem Effect.granted (h : Effect s t stored) {g : Granted} (hg : g ∈ s.history.granted) :
    g ∈ t.history.granted := by
  cases h with
  | plain _ hh => rwa [hh.granted]
  | exchanged he => rwa [he.granted]
  | settled _ hs =>
    rw [hs.granted]
    exact List.mem_cons_of_mem _ hg
  | refreshed _ hs =>
    rw [hs.granted]
    exact List.mem_cons_of_mem _ hg

theorem Effect.exchanges (h : Effect s t stored) {e : Exchange} (he : e ∈ s.history.exchanges) :
    e ∈ t.history.exchanges := by
  cases h with
  | plain _ hh => rwa [hh.exchanges]
  | exchanged hx =>
    rw [hx.exchanges]
    exact List.mem_cons_of_mem _ he
  | settled _ hs => rwa [hs.exchanges]
  | refreshed _ hs => rwa [hs.exchanges]

theorem ReadRow.effect (hr : ReadRow s binding row) (h : Effect s t stored) :
    ReadRow t binding row where
  bound := hr.bound
  later := by
    obtain ⟨c, hc, hlater⟩ := hr.later
    obtain ⟨c', hc', hlater'⟩ := h.later hc
    exact ⟨c', hc', hlater.trans hlater'⟩
  granted credential hd := by
    obtain ⟨g, hmem, hof⟩ := hr.granted credential hd
    exact ⟨g, h.granted hmem, hof⟩

/-- A claim survives what is not stored under it. -/
theorem HeldRow.effect {claim : Nat} (hh : HeldRow s row claim)
    (hread : ∃ c, s.db.connection = some c ∧ Later row c) (h : Effect s t stored)
    (hdrawn : s.drawn ≤ t.drawn)
    (hother : ∀ row' claim' rotated, stored = some (row', claim', rotated) → claim' ≠ claim) :
    HeldRow t row claim where
  drawn := Nat.lt_of_lt_of_le hh.drawn hdrawn
  exchanged := by
    obtain ⟨e, he, hkey⟩ := hh.exchanged
    exact ⟨e, h.exchanges he, hkey⟩
  owner c' hc' hrev := by
    obtain ⟨c, hc, hlater⟩ := hread
    obtain ⟨d, hd, hlater'⟩ := h.later hc
    rw [hc', Option.some.injEq] at hd
    subst hd
    obtain ⟨hrev₁, hrev₂⟩ := hlater.revisions hlater' hrev
    obtain ⟨hver, howner⟩ := hh.owner c hc hrev₁
    cases h with
    | plain hp _ =>
      obtain ⟨d, hd, hplain⟩ := hp.moved c hc
      rw [hc', Option.some.injEq] at hd
      subst hd
      refine ⟨hplain.version.trans hver, ?_⟩
      intro hconn
      obtain ⟨hs, _, hkeeps⟩ := hplain.connected hconn
      have hold := howner hs
      rw [hkeeps (by rw [hold]; intro he; cases he)]
      exact hold
    | exchanged he =>
      obtain ⟨x, hx, hsame, hfree, _⟩ := he.before
      rw [hc, Option.some.injEq] at hx
      subst hx
      obtain ⟨_, _, _, hconn⟩ := sameGrant_iff.mp hsame
      rw [howner hconn] at hfree
      cases hfree
    | settled hk hs =>
      obtain ⟨x, hx, hrev', now, hx'⟩ := hs.before
      rw [hc, Option.some.injEq] at hx
      subst hx
      rw [hc', Option.some.injEq] at hx'
      subst hx'
      simp only [Db.settledRow] at hrev₂
      omega
    | refreshed hr hs =>
      obtain ⟨x, hx, hsame, hclaim, _⟩ := hs.before
      rw [hc, Option.some.injEq] at hx
      subst hx
      obtain ⟨_, _, _, hconn⟩ := sameGrant_iff.mp hsame
      rw [howner hconn, Option.some.injEq] at hclaim
      exact absurd hclaim.symm (hother _ _ _ rfl)

theorem CredentialCall.Holds.effect {c : CredentialCall} (hc : c.Holds s) (h : Effect s t stored)
    (hdrawn : s.drawn ≤ t.drawn)
    (hother : ∀ row claim, c.stage.held = some (row, claim) →
      ∀ row' claim' rotated, stored = some (row', claim', rotated) → claim' ≠ claim) :
    c.Holds t where
  read row hr := (hc.read row hr).effect h
  opened := hc.opened
  held row claim hh := by
    have hrow : c.stage.row = some row := by
      cases hs : c.stage with
      | exchanging r k credential =>
        rw [hs] at hh
        cases hh
        rfl
      | publishing r k rotated =>
        rw [hs] at hh
        cases hh
        rfl
      | _ =>
        rw [hs] at hh
        cases hh
    exact (hc.held row claim hh).effect (hc.read row hrow).later h hdrawn (hother row claim hh)

theorem Call.Holds.effect {c : Call} (hc : c.Holds s) (h : Effect s t stored)
    (hdrawn : s.drawn ≤ t.drawn)
    (hother : ∀ row claim, c.held = some (row, claim) →
      ∀ row' claim' rotated, stored = some (row', claim', rotated) → claim' ≠ claim) :
    c.Holds t := by
  cases c with
  | start c => trivial
  | callback c =>
    intro k hk
    obtain ⟨conn, hconn, hlater⟩ := hc k hk
    obtain ⟨conn', hconn', hlater'⟩ := h.later hconn
    exact ⟨conn', hconn', hlater.trans hlater'⟩
  | credential c => exact CredentialCall.Holds.effect hc h hdrawn hother

end

/-! ## One step of a call -/

/-- What one step of a call does to the grant and to what the call holds. -/
structure SpendStep (s : State) (c : Call) (moved : State × Option Call) : Prop where
  effect : ∃ stored, Effect s moved.1 stored ∧
    ∀ row claim rotated, stored = some (row, claim, rotated) →
      ∃ x, c = .credential x ∧ x.stage = .publishing row claim rotated
  drawn : s.drawn ≤ moved.1.drawn
  holds : ∀ d, moved.2 = some d → d.Holds moved.1
  /-- A claim is the call's own, or new on a connection that was free. -/
  own : ∀ d, moved.2 = some d → ∀ row claim, d.held = some (row, claim) →
    c.held = some (row, claim) ∨
      s.drawn ≤ claim ∧ ∃ conn, s.db.connection = some conn ∧ Db.sameGrant row conn = true ∧
        conn.exchange_owner = none
  returned : ∀ r ∈ moved.1.history.returned,
    r ∈ s.history.returned ∨ ∃ g ∈ moved.1.history.granted, g.For r

section

variable {assertProfile : String → String → String → Bool} {ownerId : String} {s : State}

theorem plain_execute {answer : Answer} {db : Db} {history : History} (h : PlainStep s.db db) :
    PlainStep s.db (s.execute answer db history).db := by
  unfold State.execute
  split
  · exact .of_eq rfl
  · exact h

theorem spending_execute (answer : Answer) (db : Db) :
    SameSpending s.history (s.execute answer db s.history).history := by
  rw [history_execute]
  exact .refl _

theorem effect_execute {answer : Answer} {db : Db} (h : PlainStep s.db db) :
    Effect s (s.execute answer db s.history) none :=
  .plain (plain_execute h) (spending_execute _ _)

theorem effect_refl : Effect s s none := .plain (.of_eq rfl) (.refl _)

theorem drawn_execute (answer : Answer) (db : Db) (history : History) :
    (s.execute answer db history).drawn = s.drawn := by
  unfold State.execute
  split
  · rfl
  · rfl

/-- A step that is plain and whose call goes on without a claim. -/
theorem SpendStep.plain {c : Call} {moved : State × Option Call} (he : Effect s moved.1 none)
    (hdrawn : s.drawn ≤ moved.1.drawn) (hholds : ∀ d, moved.2 = some d → d.Holds moved.1)
    (hheld : ∀ d, moved.2 = some d → d.held = none ∨ d.held = c.held)
    (hreturned : moved.1.history.returned = s.history.returned) : SpendStep s c moved where
  effect := ⟨none, he, fun _ _ _ h => by cases h⟩
  drawn := hdrawn
  holds := hholds
  own d hd row claim hh := by
    rcases hheld d hd with hn | hn
    · rw [hn] at hh
      cases hh
    · exact .inl (hn.symm.trans hh)
  returned r hr := by
    rw [hreturned] at hr
    exact .inl hr

theorem spend_start (c : StartCall) (answer : Answer) :
    SpendStep s (.start c)
      ((c.next ownerId s answer).1, (c.next ownerId s answer).2.map .start) := by
  have hplain : ∀ moved : State × Option StartCall, Effect s moved.1 none →
      s.drawn ≤ moved.1.drawn → moved.1.history.returned = s.history.returned →
        SpendStep s (.start c) (moved.1, moved.2.map .start) := by
    intro moved he hd hr
    refine .plain he hd ?_ ?_ hr
    · intro d hx
      obtain ⟨x, _, rfl⟩ := Option.map_eq_some_iff.mp hx
      trivial
    · intro d hx
      obtain ⟨x, _, rfl⟩ := Option.map_eq_some_iff.mp hx
      exact .inl rfl
  refine hplain _ ?_ ?_ ?_
  · unfold StartCall.next
    split
    next => exact effect_execute (.of_eq rfl)
    next => exact .plain (plain_execute (plain_reserve _ _ _ _ _)) (spending_execute _ _)
    next => exact effect_execute (.of_eq rfl)
    next =>
      dsimp only
      split
      next hpub =>
        unfold State.execute
        split
        next => exact effect_refl
        next => exact .plain (plain_publishConsent hpub) ⟨rfl, rfl, rfl, rfl⟩
      next hpub => exact effect_execute (plain_publishConsent hpub)
      next => exact effect_refl
  · unfold StartCall.next
    split
    next => exact Nat.le_of_eq (drawn_execute _ _ _).symm
    next => exact Nat.le_succ _
    next => exact Nat.le_of_eq (drawn_execute _ _ _).symm
    next =>
      dsimp only
      split
      next => exact Nat.le_of_eq (drawn_execute _ _ _).symm
      next => exact Nat.le_of_eq (drawn_execute _ _ _).symm
      next => exact Nat.le_refl _
  · unfold StartCall.next
    split
    next => rw [history_execute]
    next => dsimp only; rw [history_execute]
    next => rw [history_execute]
    next =>
      dsimp only
      split
      next =>
        unfold State.execute
        split
        next => rfl
        next => rfl
      next => rw [history_execute]
      next => rfl

/-- A callback's plain step, which reads no other connection. -/
theorem SpendStep.callback {c : CallbackCall} (hc : c.Reads s)
    {moved : State × Option CallbackCall} (he : Effect s moved.1 none)
    (hdrawn : s.drawn ≤ moved.1.drawn)
    (hnext : ∀ d, moved.2 = some d → d.stage.connection = none ∨
      d.stage.connection = c.stage.connection ∨ d.stage.connection = moved.1.db.connection)
    (hreturned : moved.1.history.returned = s.history.returned) :
    SpendStep s (.callback c) (moved.1, moved.2.map .callback) := by
  refine .plain he hdrawn ?_ ?_ hreturned
  · intro d hd
    obtain ⟨x, hx, rfl⟩ := Option.map_eq_some_iff.mp hd
    intro k hk
    rcases hnext x hx with hn | hn | hn
    · rw [hn] at hk
      cases hk
    · rw [hn] at hk
      obtain ⟨conn, hconn, hlater⟩ := hc k hk
      obtain ⟨conn', hconn', hlater'⟩ := he.later hconn
      exact ⟨conn', hconn', hlater.trans hlater'⟩
    · rw [hn] at hk
      exact ⟨k, hk, .refl k⟩
  · intro d hd
    obtain ⟨x, _, rfl⟩ := Option.map_eq_some_iff.mp hd
    exact .inl rfl

theorem spend_callback {c : CallbackCall} (hc : c.Reads s) (answer : Answer) :
    SpendStep s (.callback c)
      ((c.next assertProfile s answer).1, (c.next assertProfile s answer).2.map .callback) := by
  unfold CallbackCall.next
  split
  next =>
    refine .callback hc (effect_execute (.of_eq rfl))
      (Nat.le_of_eq (drawn_execute _ _ _).symm) ?_ (by rw [history_execute])
    intro d hd
    split at hd
    next =>
      cases hd
      exact .inl rfl
    next => cases hd
  next =>
    split
    next transaction db hclaim =>
      obtain ⟨_, _, _, _, _, _, hconn, _⟩ := claimTransaction_claimed hclaim
      have hnext : ∀ d, (if answer.statement = .ok then
          some { c with stage := .reading transaction } else none) = some d →
            d.stage.connection = none := by
        intro d hd
        split at hd
        next =>
          cases hd
          rfl
        next => cases hd
      unfold State.execute
      split
      next =>
        exact .callback hc effect_refl (Nat.le_refl _) (fun d hd => .inl (hnext d hd)) rfl
      next =>
        exact .callback hc (.plain (.of_eq hconn) ⟨rfl, rfl, rfl, rfl⟩) (Nat.le_refl _)
          (fun d hd => .inl (hnext d hd)) rfl
    next => exact .callback hc effect_refl (Nat.le_refl _) (fun _ hd => by cases hd) rfl
  next transaction hstage =>
    refine .callback hc effect_refl (Nat.le_refl _) ?_ rfl
    intro d hd
    split at hd
    next =>
      obtain ⟨k, hk, hd⟩ := Option.bind_eq_some_iff.mp hd
      obtain ⟨_, _, rfl⟩ := Option.map_eq_some_iff.mp hd
      obtain ⟨hconn, _⟩ := Option.filter_eq_some_iff.mp hk
      by_cases hprofile : assertProfile k.issuer k.resource k.token_endpoint = true ∧
          c.iss.all (· = k.issuer) = true
      · rw [if_pos hprofile]
        exact .inr (.inr hconn.symm)
      · rw [if_neg hprofile]
        exact .inl rfl
    next => cases hd
  next transaction connection hstage =>
    refine .callback hc effect_refl (Nat.le_refl _) ?_ rfl
    intro d hd
    split at hd
    next =>
      cases hd
      rw [hstage]
      exact .inr (.inl rfl)
    next =>
      cases hd
      exact .inl rfl
  next transaction connection credential hstage =>
    split
    next db hsettle =>
      obtain ⟨⟨conn, hconn, _, hrev, hdb⟩, _⟩ := settle_settled hsettle
      unfold State.execute
      split
      next hfailed =>
        refine .callback hc effect_refl (Nat.le_refl _) ?_ rfl
        intro d hd
        rw [if_neg (by rw [hfailed]; intro he; cases he)] at hd
        cases hd
        exact .inl rfl
      next =>
        have hk : ∀ x, s.db.connection = some x → Later connection x := by
          intro x hx
          obtain ⟨y, hy, hlater⟩ := hc connection (by rw [hstage]; rfl)
          rw [hx, Option.some.injEq] at hy
          rwa [hy]
        refine .callback hc (.settled hk ⟨⟨conn, hconn, hrev, s.now, hdb⟩, rfl, rfl, rfl, rfl⟩)
          (Nat.le_refl _) ?_ rfl
        intro d hd
        split at hd
        next => cases hd
        next =>
          cases hd
          exact .inl rfl
    next db hsettle =>
      refine .callback hc (effect_execute (plain_settle hsettle))
        (Nat.le_of_eq (drawn_execute _ _ _).symm) ?_ (by rw [history_execute])
      intro d hd
      cases hd
      exact .inl rfl
  next transaction hstage =>
    exact .callback hc (effect_execute (.of_eq rfl)) (Nat.le_of_eq (drawn_execute _ _ _).symm)
      (fun _ hd => by cases hd) (by rw [history_execute])

/-! ## Credential calls -/

theorem require_ok {db : Db} (h : db.require binding = .ok row) :
    db.connection = some row ∧ BoundTo binding row := by
  unfold Db.require at h
  split at h
  next => cases h
  next row' hf =>
    obtain ⟨hconn, hp⟩ := Option.filter_eq_some_iff.mp hf
    obtain ⟨howner, hserver, _⟩ := of_decide_eq_true hp
    split at h
    next => cases h
    next hctx =>
      rw [not_or, not_or, not_or, not_or, not_not, not_not, not_not] at hctx
      split at h
      next => cases h
      next =>
        split at h
        next => cases h
        next =>
          cases h
          exact ⟨hconn, hctx.1, hctx.2.1, hserver, hctx.2.2.1, howner⟩

theorem claimRefresh_claimed {db db' : Db} {claim : Nat} {now : Millis}
    (h : db.claimRefresh row claim now = (true, db')) :
    ∃ c, db.connection = some c ∧ Db.sameGrant row c = true ∧ c.exchange_owner = none ∧
      db'.connection =
        some { c with exchange_owner := some claim, exchange_started_at := some now } := by
  unfold Db.claimRefresh Db.updateConnection at h
  obtain ⟨hany, rfl⟩ := Prod.mk.inj h
  obtain ⟨c, hc, hp⟩ := (Option.any_eq_true _ _).mp hany
  obtain ⟨hs, ho⟩ := of_decide_eq_true hp
  refine ⟨c, hc, hs, ho, ?_⟩
  simp only [hc, Option.map_some]
  rw [if_pos hp]

theorem publishRefresh_published {db db' : Db} {claim : Nat} {credential : McpCredential}
    {now : Millis} (h : db.publishRefresh row claim credential now = (true, db')) :
    ∃ c, db.connection = some c ∧ Db.sameGrant row c = true ∧ c.exchange_owner = some claim ∧
      db'.connection = some (Db.refreshedRow row c credential now) := by
  unfold Db.publishRefresh Db.updateConnection at h
  obtain ⟨hany, rfl⟩ := Prod.mk.inj h
  obtain ⟨c, hc, hp⟩ := (Option.any_eq_true _ _).mp hany
  obtain ⟨hs, ho, _⟩ := of_decide_eq_true hp
  refine ⟨c, hc, hs, ho, ?_⟩
  simp only [hc, Option.map_some]
  rw [if_pos hp]

variable {c : CredentialCall}

/-- A credential call that goes on, with the row it had or none. -/
theorem CredentialCall.Holds.stage (hc : c.Holds s) {stage : CredentialStage}
    (hrow : stage.row = none ∨ stage.row = c.stage.row)
    (hopened : ∀ row credential, stage.opened = some (row, credential) →
      Db.decrypt row = some credential)
    (hheld : stage.held = none ∨ stage.held = c.stage.held) : { c with stage }.Holds s where
  read row hr := by
    rcases hrow with hn | hn
    · dsimp only at hr
      rw [hn] at hr
      cases hr
    · exact hc.read row (hn ▸ hr)
  opened := hopened
  held row claim hh := by
    rcases hheld with hn | hn
    · dsimp only at hh
      rw [hn] at hh
      cases hh
    · exact hc.held row claim (hn ▸ hh)

variable {t : State}

/-- A plain step of a credential call, which takes no claim. -/
theorem SpendStep.credential {next : Option CredentialCall} (he : Effect s t none)
    (hdrawn : s.drawn ≤ t.drawn)
    (hnext : ∀ d, next = some d → d.Holds t ∧ (d.stage.held = none ∨ d.stage.held = c.stage.held))
    (hreturned : t.history.returned = s.history.returned) :
    SpendStep s (.credential c) (t, next.map .credential) := by
  refine .plain he hdrawn ?_ ?_ hreturned
  · intro d hd
    obtain ⟨x, hx, rfl⟩ := Option.map_eq_some_iff.mp hd
    exact (hnext x hx).1
  · intro d hd
    obtain ⟨x, hx, rfl⟩ := Option.map_eq_some_iff.mp hd
    exact (hnext x hx).2

/-- A stage at which the call has nothing in hand. -/
theorem CredentialCall.Holds.nothing {stage : CredentialStage} (hrow : stage.row = none)
    (hopened : stage.opened = none) (hheld : stage.held = none) :
    { c with stage }.Holds s where
  read row hr := by
    dsimp only at hr
    rw [hrow] at hr
    cases hr
  opened row credential ho := by
    dsimp only at ho
    rw [hopened] at ho
    cases ho
  held row claim hh := by
    dsimp only at hh
    rw [hheld] at hh
    cases hh

theorem spend_requiring (hg : Guarded s.db s.history) (c : CredentialCall) (answer : Answer) :
    SpendStep s (.credential c)
      (s, (if answer.statement = .ok then
        match s.db.require c.binding with
        | .error _ => none
        | .ok row => some { c with stage := .deciding row }
      else none).map .credential) := by
  refine .credential effect_refl (Nat.le_refl _) ?_ rfl
  intro d hd
  split at hd
  next =>
    split at hd
    next => cases hd
    next row hrequire =>
      cases hd
      obtain ⟨hconn, hbound⟩ := require_ok hrequire
      refine ⟨?_, .inl rfl⟩
      exact
        { read := by
            intro row' hr
            cases hr
            exact
              { bound := hbound
                later := ⟨row, hconn, .refl row⟩
                granted := fun credential hd => hg.granted row credential hconn hd }
          opened := fun _ _ ho => by cases ho
          held := fun _ _ hh => by cases hh }
  next => cases hd

theorem spend_claimed (hc : c.Holds s) {credential : McpCredential}
    (hstage : c.stage = .claiming row credential) {db : Db}
    (hclaim : s.db.claimRefresh row s.drawn s.now = (true, db)) :
    SpendStep s (.credential c)
      ({ s with
        db
        drawn := s.drawn + 1
        history :=
          { s.history with
            exchanges :=
              { grant_revision := row.grant_revision
                credential_version := row.credential_version
                consents := s.history.settlements.length } :: s.history.exchanges } },
        (some { c with stage := .exchanging row s.drawn credential }).map .credential) := by
  obtain ⟨conn, hconn, hsame, hfree, hdb⟩ := claimRefresh_claimed hclaim
  obtain ⟨_, hrev, hver, _⟩ := sameGrant_iff.mp hsame
  have hread : ReadRow s c.binding row := hc.read row (by rw [hstage]; rfl)
  have hopen : Db.decrypt row = some credential := hc.opened row credential (by rw [hstage]; rfl)
  have he : Exchanged s
      { s with
        db
        drawn := s.drawn + 1
        history :=
          { s.history with
            exchanges :=
              { grant_revision := row.grant_revision
                credential_version := row.credential_version
                consents := s.history.settlements.length } :: s.history.exchanges } } row
      s.drawn :=
    ⟨⟨conn, hconn, hsame, hfree, s.now, hdb⟩, rfl, rfl, rfl, rfl⟩
  exact
    { effect := ⟨none, .exchanged he, fun _ _ _ h => by cases h⟩
      drawn := Nat.le_succ _
      holds := by
        intro d hd
        cases hd
        exact
          { read := by
              intro row' hr
              cases hr
              exact hread.effect (.exchanged he)
            opened := by
              intro row' credential' ho
              cases ho
              exact hopen
            held := by
              intro row' claim hh
              cases hh
              exact
                { drawn := Nat.lt_succ_self _
                  exchanged := ⟨_, List.mem_cons_self, rfl⟩
                  owner := by
                    intro c' hc' _
                    rw [hdb, Option.some.injEq] at hc'
                    subst hc'
                    exact ⟨hver, fun _ => rfl⟩ } }
      own := by
        intro d hd row' claim hh
        cases hd
        cases hh
        exact .inr ⟨Nat.le_refl _, conn, hconn, hsame, hfree⟩
      returned := fun r hr => .inl hr }

theorem spend_publishing (hc : c.Holds s)
    {claim : Nat} {rotated : McpCredential}
    (hstage : c.stage = .publishing row claim rotated) {next : Option CredentialCall}
    (ht : Refreshed s t row claim rotated) (hdrawn : t.drawn = s.drawn)
    (hnext : ∀ d, next = some d → d.stage = .fencing row claim)
    (hreturned : ∀ r ∈ t.history.returned, r ∈ s.history.returned ∨
      r = { binding := c.binding, accessToken := rotated.accessToken }) :
    SpendStep s (.credential c) (t, next.map .credential) := by
  have hread : ReadRow s c.binding row := hc.read row (by rw [hstage]; rfl)
  have hlater : ∀ x, s.db.connection = some x → Later row x := by
    intro x hx
    obtain ⟨y, hy, hl⟩ := hread.later
    rw [hx, Option.some.injEq] at hy
    rwa [hy]
  have he : Effect s t (some (row, claim, rotated)) := .refreshed hlater ht
  exact
    { effect := by
        refine ⟨_, he, ?_⟩
        intro row' claim' rotated' h
        cases h
        exact ⟨c, rfl, hstage⟩
      drawn := Nat.le_of_eq hdrawn.symm
      holds := by
        intro d hd
        obtain ⟨x, hx, rfl⟩ := Option.map_eq_some_iff.mp hd
        have hs := hnext x hx
        exact
          { read := by
              intro row' hr
              rw [hs] at hr
              cases hr
            opened := by
              intro row' credential ho
              rw [hs] at ho
              cases ho
            held := by
              intro row' claim' hh
              rw [hs] at hh
              cases hh }
      own := by
        intro d hd row' claim' hh
        obtain ⟨x, hx, rfl⟩ := Option.map_eq_some_iff.mp hd
        rw [Call.held, hnext x hx] at hh
        cases hh
      returned := by
        intro r hr
        rcases hreturned r hr with hold | rfl
        · exact .inl hold
        · right
          obtain ⟨conn, hconn, hsame, _, now, hdb⟩ := ht.before
          obtain ⟨g, hg⟩ : ∃ g, g ∈ t.history.granted ∧ g.Of row rotated := by
            rw [ht.granted]
            exact ⟨_, List.mem_cons_self, rfl, rfl, rfl, rfl, rfl, rfl⟩
          exact ⟨g, hg.1, hg.2.to_for hread.bound⟩ }

theorem spend_credential (hg : Guarded s.db s.history) (hc : c.Holds s) (answer : Answer) :
    SpendStep s (.credential c)
      ((c.next assertProfile s answer).1,
        (c.next assertProfile s answer).2.map .credential) := by
  have hends : SpendStep s (.credential c) (s, (none : Option CredentialCall).map .credential) :=
    .credential effect_refl (Nat.le_refl _) (fun _ hd => by cases hd) rfl
  have hfences : ∀ row claim,
      SpendStep s (.credential c) (s, (some { c with stage := .fencing row claim }).map .credential) := by
    intro row claim
    refine .credential effect_refl (Nat.le_refl _) ?_ rfl
    intro d hd
    cases hd
    exact ⟨.nothing rfl rfl rfl, .inl rfl⟩
  unfold CredentialCall.next
  split
  next => exact spend_requiring hg c answer
  next row hstage =>
    split
    next => exact hends
    next =>
      split
      next owner _ =>
        split
        next =>
          refine .credential effect_refl (Nat.le_refl _) ?_ rfl
          intro d hd
          cases hd
          exact ⟨.nothing rfl rfl rfl, .inl rfl⟩
        next =>
          split
          next => exact hends
          next =>
            refine .credential effect_refl (Nat.le_refl _) ?_ rfl
            intro d hd
            cases hd
            exact ⟨.nothing rfl rfl rfl, .inl rfl⟩
      next =>
        split
        next => exact hends
        next credential hopen =>
          have hread : ReadRow s c.binding row := hc.read row (by rw [hstage]; rfl)
          split
          next =>
            exact
              { effect := ⟨none, .plain (.of_eq rfl) ⟨rfl, rfl, rfl, rfl⟩, fun _ _ _ h => by cases h⟩
                drawn := Nat.le_refl _
                holds := fun _ hd => by cases hd
                own := fun _ hd => by cases hd
                returned := by
                  intro r hr
                  rcases List.mem_cons.mp hr with rfl | hr
                  · obtain ⟨g, hmem, hof⟩ := hread.granted credential hopen
                    exact .inr ⟨g, hmem, hof.to_for hread.bound⟩
                  · exact .inl hr }
          next =>
            refine .credential effect_refl (Nat.le_refl _) ?_ rfl
            intro d hd
            cases hd
            refine ⟨hc.stage (.inr ?_) ?_ (.inl rfl), .inl rfl⟩
            · rw [hstage]
              rfl
            · intro row' credential' ho
              cases ho
              exact hopen
  next row owner hstage =>
    exact .credential (effect_execute (plain_fenceRefresh _ _ _ _))
      (Nat.le_of_eq (drawn_execute _ _ _).symm) (fun _ hd => by cases hd)
      (by rw [history_execute])
  next row credential hstage =>
    split
    next db _ =>
      refine .credential (.plain (.of_eq rfl) (.refl _)) (Nat.le_succ _) ?_ rfl
      intro d hd
      split at hd
      next =>
        cases hd
        exact ⟨.nothing rfl rfl rfl, .inl rfl⟩
      next => cases hd
    next db hclaim =>
      have hplain : PlainStep s.db db := by
        rw [← (Prod.mk.inj hclaim).2]
        exact plain_claimRefresh _ _ _ _
      split
      next =>
        refine .credential (.plain (plain_execute hplain) (spending_execute _ _)) (Nat.le_succ _) ?_
          (by dsimp only; rw [history_execute])
        intro d hd
        split at hd
        next =>
          cases hd
          exact ⟨.nothing rfl rfl rfl, .inl rfl⟩
        next => cases hd
      next =>
        split
        next => exact spend_claimed hc hstage hclaim
        next =>
          exact .credential (.plain (plain_execute hplain) (spending_execute _ _)) (Nat.le_succ _)
            (fun _ hd => by cases hd) (by dsimp only; rw [history_execute])
  next row claim credential hstage =>
    split
    next rotated _ =>
      refine .credential effect_refl (Nat.le_refl _) ?_ rfl
      intro d hd
      cases hd
      refine ⟨hc.stage (.inr ?_) (fun _ _ ho => by cases ho) (.inr ?_), .inr ?_⟩
      · rw [hstage]
        rfl
      · rw [hstage]
        rfl
      · rw [hstage]
        rfl
    next => exact hfences row claim
  next row claim rotated hstage =>
    split
    next db hpublish =>
      obtain ⟨conn, hconn, hsame, howner, hdb⟩ := publishRefresh_published hpublish
      dsimp only
      split
      next =>
        refine spend_publishing hc hstage
          ⟨⟨conn, hconn, hsame, howner, s.now, hdb⟩, rfl, rfl, rfl, rfl⟩ rfl
          (fun _ hd => by cases hd) ?_
        intro r hr
        rcases List.mem_cons.mp hr with rfl | hr
        · exact .inr rfl
        · exact .inl hr
      next =>
        unfold State.execute
        split
        next => exact hfences row claim
        next =>
          refine spend_publishing hc hstage
            ⟨⟨conn, hconn, hsame, howner, s.now, hdb⟩, rfl, rfl, rfl, rfl⟩ rfl ?_ ?_
          · intro d hd
            cases hd
            rfl
          · exact fun r hr => .inl hr
    next => exact hfences row claim
  next row claim hstage =>
    exact .credential (effect_execute (plain_fenceRefresh _ _ _ _))
      (Nat.le_of_eq (drawn_execute _ _ _).symm) (fun _ hd => by cases hd)
      (by rw [history_execute])

theorem spend_call (hg : Guarded s.db s.history) {c : Call} (hc : c.Holds s) (answer : Answer) :
    SpendStep s c (c.next assertProfile ownerId s answer) := by
  cases c with
  | start c => exact spend_start c answer
  | callback c => exact spend_callback hc answer
  | credential c => exact spend_credential hg hc answer

/-! ## One step -/

/-- A step of a call. -/
theorem Spending.next (hi : Spending s) {i : Nat} {c : Call} (hc : s.calls[i]? = some c)
    (answer : Answer) :
    Spending
      { (c.next assertProfile ownerId s answer).1 with
        calls := advance s.calls i (c.next assertProfile ownerId s answer).2 } := by
  have hmem := List.mem_of_getElem? hc
  have hstep : SpendStep s c (c.next assertProfile ownerId s answer) :=
    spend_call hi.guarded (hi.calls c hmem) answer
  obtain ⟨stored, heffect, hstored⟩ := hstep.effect
  have hguarded := hi.guarded.effect heffect
  exact
    { guarded := hguarded
      calls := by
        intro d hd
        dsimp only at hd
        have hholds : d.Holds (c.next assertProfile ownerId s answer).1 := by
          rcases mem_advance_pairwise (fun _ _ h => h.symm) hi.apart hc hd with hd | ⟨hd, hapart⟩
          · exact hstep.holds d hd
          · refine (hi.calls d hd).effect heffect hstep.drawn ?_
            intro row claim hheld row' claim' rotated hs
            obtain ⟨x, rfl, hx⟩ := hstored row' claim' rotated hs
            exact (hapart row' claim' row claim (by rw [Call.held, hx]; rfl) hheld).1
        cases d with
        | start d => trivial
        | callback d => exact hholds
        | credential d =>
          have hh : CredentialCall.Holds _ d := hholds
          refine ⟨?_, hh.opened, ?_⟩
          · intro row hr
            obtain ⟨hb, hl, hgr⟩ := hh.read row hr
            exact ⟨hb, hl, hgr⟩
          · intro row claim hr
            obtain ⟨hd', he, ho⟩ := hh.held row claim hr
            exact ⟨hd', he, ho⟩
      apart := by
        refine pairwise_advance_mem (fun _ _ h => h.symm) hi.apart hc ?_
        intro d hd e he hapart row claim row' claim' hheld hheld'
        rcases hstep.own d hd row claim hheld with hold | ⟨hnew, conn, hconn, hsame, hfree⟩
        · exact hapart row claim row' claim' hold hheld'
        · -- the other call would hold the connection that was free
          cases e with
          | start e => cases hheld'
          | callback e => cases hheld'
          | credential e =>
            have hholds : CredentialCall.Holds s e := hi.calls _ he
            have hrow := hholds.held row' claim' hheld'
            refine ⟨Nat.ne_of_gt (Nat.lt_of_lt_of_le hrow.drawn hnew), ?_⟩
            intro hrev
            obtain ⟨_, hrev', _, hconnected⟩ := sameGrant_iff.mp hsame
            have howner := (hrow.owner conn hconn (hrev'.trans hrev)).2 hconnected
            rw [hfree] at howner
            cases howner
      returned := by
        intro r hr
        dsimp only at hr ⊢
        rcases hstep.returned r hr with hold | hnew
        · obtain ⟨g, hg, hfor⟩ := hi.returned r hold
          exact ⟨g, heffect.granted hg, hfor⟩
        · exact hnew }

/-- A plain step that no call takes. -/
theorem Spending.outside (hi : Spending s) (hp : PlainStep s.db t.db)
    (hh : SameSpending s.history t.history) (hdrawn : s.drawn ≤ t.drawn)
    (hreturned : t.history.returned = s.history.returned)
    (hcalls : ∀ c ∈ t.calls, c ∈ s.calls ∨ c.Holds t ∧ c.held = none)
    (hapart : t.calls.Pairwise Call.Apart) : Spending t where
  guarded := hi.guarded.plain hp hh
  calls c hc := by
    rcases hcalls c hc with hold | hnew
    · exact (hi.calls c hold).effect (.plain hp hh) hdrawn fun _ _ _ _ _ _ h => by cases h
    · exact hnew.1
  apart := hapart
  returned r hr := by
    rw [hreturned] at hr
    rw [hh.granted]
    exact hi.returned r hr

/-- A call that has just begun holds nothing. -/
theorem Spending.begun (hi : Spending s) {c : Call} (hp : PlainStep s.db t.db)
    (hh : SameSpending s.history t.history) (hdrawn : s.drawn ≤ t.drawn)
    (hreturned : t.history.returned = s.history.returned) (hcalls : t.calls = s.calls ++ [c])
    (hholds : c.Holds t) (hheld : c.held = none) : Spending t := by
  refine hi.outside hp hh hdrawn hreturned ?_ ?_
  · intro d hd
    rw [hcalls, List.mem_append, List.mem_singleton] at hd
    rcases hd with hd | rfl
    · exact .inl hd
    · exact .inr ⟨hholds, hheld⟩
  · rw [hcalls]
    refine List.pairwise_append.mpr ⟨hi.apart, List.pairwise_singleton _ _, ?_⟩
    intro d _ e he row claim row' claim' _ he'
    rw [List.mem_singleton] at he
    rw [he, hheld] at he'
    cases he'

theorem Spending.quiet (hi : Spending s) (hp : PlainStep s.db t.db)
    (hh : SameSpending s.history t.history) (hdrawn : s.drawn ≤ t.drawn)
    (hreturned : t.history.returned = s.history.returned) (hcalls : t.calls = s.calls) :
    Spending t := by
  refine hi.outside hp hh hdrawn hreturned ?_ ?_
  · intro c hc
    rw [hcalls] at hc
    exact .inl hc
  · rw [hcalls]
    exact hi.apart

theorem Spending.step (hi : Spending s) {a : Act} (h : s.step assertProfile ownerId a = some t) :
    Spending t := by
  have hdrawn := Nat.le_refl s.drawn
  cases a with
  | start browserSessionId client stateDigest verifier =>
    simp only [State.step] at h
    split at h
    next => cases h
    next =>
      cases h
      exact hi.begun (.of_eq rfl) ⟨rfl, rfl, rfl, rfl⟩ hdrawn rfl rfl trivial rfl
  | callback owner browserSessionId stateDigest iss =>
    cases h
    refine hi.begun (.of_eq rfl) ⟨rfl, rfl, rfl, rfl⟩ (Nat.le_succ _) rfl rfl ?_ rfl
    intro k hk
    cases hk
  | credential binding =>
    cases h
    refine hi.begun (.of_eq rfl) ⟨rfl, rfl, rfl, rfl⟩ hdrawn rfl rfl ?_ rfl
    refine CredentialCall.Holds.mk ?_ ?_ ?_
    · intro _ hr
      cases hr
    · intro _ _ ho
      cases ho
    · intro _ _ hh
      cases hh
  | next i answer =>
    obtain ⟨c, hc, rfl⟩ := Option.map_eq_some_iff.mp h
    exact hi.next hc answer
  | crash i =>
    obtain ⟨c, hc, rfl⟩ := Option.map_eq_some_iff.mp h
    refine hi.outside (.of_eq rfl) (.refl _) hdrawn rfl ?_ ?_
    · exact fun d hd => .inl (advance_subset_of_none hd)
    · exact hi.apart.sublist (List.eraseIdx_sublist _ _)
  | disconnect =>
    cases h
    exact hi.quiet (plain_disconnect s.db (some ownerId) s.now) ⟨rfl, rfl, rfl, rfl⟩ hdrawn rfl rfl
  | disconnectServer =>
    cases h
    exact hi.quiet (plain_disconnect s.db none s.now) ⟨rfl, rfl, rfl, rfl⟩ hdrawn rfl rfl
  | editServer bump enabled =>
    cases h
    exact hi.quiet (.of_eq rfl) (.refl _) hdrawn rfl rfl
  | signIn session =>
    obtain ⟨sessions, _, rfl⟩ := Option.map_eq_some_iff.mp h
    exact hi.quiet (.of_eq rfl) (.refl _) hdrawn rfl rfl
  | signOut sessionId =>
    cases h
    exact hi.quiet (.of_eq rfl) (.refl _) hdrawn rfl rfl
  | suspend userId =>
    cases h
    exact hi.quiet (.of_eq rfl) (.refl _) hdrawn rfl rfl
  | unsuspend userId =>
    cases h
    exact hi.quiet (.of_eq rfl) (.refl _) hdrawn rfl rfl
  | tick now =>
    simp only [State.step] at h
    split at h
    next =>
      cases h
      exact hi.quiet (.of_eq rfl) (.refl _) hdrawn rfl rfl
    next => cases h

/-- Every step has an effect on the grant. -/
theorem effect_step (hi : Spending s) {a : Act} (h : s.step assertProfile ownerId a = some t) :
    ∃ stored, Effect s t stored ∧ ∀ row claim rotated, stored = some (row, claim, rotated) →
      ∃ x, .credential x ∈ s.calls ∧ x.stage = .publishing row claim rotated := by
  have hplain : ∀ t, PlainStep s.db t.db → SameSpending s.history t.history →
      ∃ stored, Effect s t stored ∧ ∀ row claim rotated, stored = some (row, claim, rotated) →
        ∃ x, .credential x ∈ s.calls ∧ x.stage = .publishing row claim rotated :=
    fun t hp hh => ⟨none, .plain hp hh, fun _ _ _ h => by cases h⟩
  have hsame : SameSpending s.history s.history := .refl _
  cases a with
  | start browserSessionId client stateDigest verifier =>
    simp only [State.step] at h
    split at h
    next => cases h
    next =>
      cases h
      exact hplain _ (.of_eq rfl) ⟨rfl, rfl, rfl, rfl⟩
  | next i answer =>
    obtain ⟨c, hc, rfl⟩ := Option.map_eq_some_iff.mp h
    have hmem := List.mem_of_getElem? hc
    have hstep : SpendStep s c (c.next assertProfile ownerId s answer) :=
      spend_call hi.guarded (hi.calls c hmem) answer
    obtain ⟨stored, heffect, hstored⟩ := hstep.effect
    refine ⟨stored, ?_, ?_⟩
    · cases heffect with
      | plain hp hh => exact .plain hp hh
      | exchanged he =>
        exact .exchanged ⟨he.before, he.settlements, he.exchanges, he.refreshed, he.granted⟩
      | settled hk he =>
        exact .settled hk ⟨he.before, he.settlements, he.exchanges, he.refreshed, he.granted⟩
      | refreshed hr he =>
        exact .refreshed hr ⟨he.before, he.settlements, he.exchanges, he.refreshed, he.granted⟩
    · intro row claim rotated hs
      obtain ⟨x, rfl, hx⟩ := hstored row claim rotated hs
      exact ⟨x, hmem, hx⟩
  | crash i =>
    obtain ⟨c, hc, rfl⟩ := Option.map_eq_some_iff.mp h
    exact hplain _ (.of_eq rfl) hsame
  | disconnect =>
    cases h
    exact hplain _ (plain_disconnect s.db (some ownerId) s.now) ⟨rfl, rfl, rfl, rfl⟩
  | disconnectServer =>
    cases h
    exact hplain _ (plain_disconnect s.db none s.now) ⟨rfl, rfl, rfl, rfl⟩
  | signIn session =>
    obtain ⟨sessions, _, rfl⟩ := Option.map_eq_some_iff.mp h
    exact hplain _ (.of_eq rfl) hsame
  | tick now =>
    simp only [State.step] at h
    split at h
    next =>
      cases h
      exact hplain _ (.of_eq rfl) hsame
    next => cases h
  | _ =>
    cases h
    exact hplain _ (.of_eq rfl) hsame

end

/-! ## Every run -/

/-- What holds of the exchanges and of the tokens handed out, in one state. -/
structure RefreshSafe (s : State) : Prop where
  /-- Two calls do not exchange for one grant at a time. -/
  exchanging : s.calls.Pairwise fun c d => ∀ x y row claim credential row' claim' credential',
    c = .credential x → d = .credential y → x.stage = .exchanging row claim credential →
      y.stage = .exchanging row' claim' credential' → row.grant_revision ≠ row'.grant_revision
  /-- A call that exchanges sends the credential of the version it recorded. -/
  sent : ∀ x row claim credential, .credential x ∈ s.calls →
    x.stage = .exchanging row claim credential → Db.decrypt row = some credential ∧
      ∃ e ∈ s.history.exchanges, e.key = (row.grant_revision, row.credential_version)
  once : (s.history.exchanges.map Exchange.key).Nodup
  /-- A token that was returned had been stored for the caller's own binding. -/
  returned : ∀ r ∈ s.history.returned, ∃ g ∈ s.history.granted, g.For r

/-- What a step may exchange, store and grant. -/
structure RefreshStep (s t : State) : Prop where
  /-- A new exchange comes after stored results and settled consents only. -/
  exchanged : ∀ e ∈ t.history.exchanges, e ∈ s.history.exchanges ∨
    ∀ x ∈ s.history.exchanges, x.key ∈ s.history.refreshed ∨
      x.consents < s.history.settlements.length
  /-- A result is stored over the grant and version it came from, under its own claim. -/
  stored : t.history.refreshed = s.history.refreshed ∨
    ∃ x row claim rotated c c', .credential x ∈ s.calls ∧
      x.stage = .publishing row claim rotated ∧ s.db.connection = some c ∧
      Db.sameGrant row c = true ∧ c.exchange_owner = some claim ∧
      (∃ e ∈ s.history.exchanges, e.key = (c.grant_revision, c.credential_version)) ∧
      t.db.connection = some c' ∧ Db.decrypt c' = some rotated
  /-- Nothing else writes a credential over a grant. -/
  kept : ∀ c c', s.db.connection = some c → t.db.connection = some c' →
    c'.grant_revision = c.grant_revision → t.history.refreshed = s.history.refreshed →
      c'.encrypted_payload = none ∨ c'.encrypted_payload = c.encrypted_payload
  /-- What is granted is stored on the connected row. -/
  granted : ∀ g ∈ t.history.granted, g ∈ s.history.granted ∨
    ∃ c credential, t.db.connection = some c ∧ c.status = .connected ∧
      Db.decrypt c = some credential ∧ g.Of c credential

section

variable {assertProfile : String → String → String → Bool} {ownerId : String} {s : State}

theorem Grants.step {t : State} {credential : McpCredential} (h : Grants s t credential) :
    ∀ g ∈ t.history.granted, g ∈ s.history.granted ∨
      ∃ c credential, t.db.connection = some c ∧ c.status = .connected ∧
        Db.decrypt c = some credential ∧ g.Of c credential := by
  intro g hg
  obtain ⟨c', hc', hconn, hopen, _, hof⟩ := h.after
  rcases hof g hg with hold | hnew
  · exact .inl hold
  · exact .inr ⟨c', credential, hc', hconn, hopen, hnew⟩

theorem Spending.safe (hi : Spending s) : RefreshSafe s where
  exchanging := by
    refine hi.apart.imp ?_
    intro c d hapart x y row claim credential row' claim' credential' hc hd hx hy
    refine (hapart row claim row' claim' ?_ ?_).2
    · rw [hc, Call.held, hx]
      rfl
    · rw [hd, Call.held, hy]
      rfl
  sent x row claim credential hx hstage := by
    have hholds : CredentialCall.Holds s x := hi.calls _ hx
    refine ⟨hholds.opened row credential ?_, (hholds.held row claim ?_).exchanged⟩
    · rw [hstage]
      rfl
    · rw [hstage]
      rfl
  once := hi.guarded.once
  returned := hi.returned

theorem Spending.refreshStep (hi : Spending s) {a : Act} {t : State}
    (h : s.step assertProfile ownerId a = some t) : RefreshStep s t := by
  obtain ⟨stored, heffect, hstored⟩ := effect_step hi h
  cases heffect with
  | plain hp hh =>
    exact
      { exchanged := by
          intro e he
          rw [hh.exchanges] at he
          exact .inl he
        stored := .inl hh.refreshed
        kept := by
          intro c c' hc hc' _ _
          obtain ⟨d, hd, hplain⟩ := hp.moved c hc
          rw [hc', Option.some.injEq] at hd
          subst hd
          rcases hplain.payload with hn | hn
          · exact .inl hn
          · exact .inr hn.1
        granted := by
          intro g hg
          rw [hh.granted] at hg
          exact .inl hg }
  | exchanged he =>
    obtain ⟨c, hc, hsame, hfree, now, hc'⟩ := he.before
    obtain ⟨_, _, _, hconn⟩ := sameGrant_iff.mp hsame
    exact
      { exchanged := by
          intro e _
          right
          intro x hx
          by_cases hres : x.key ∈ s.history.refreshed
          · exact .inl hres
          · right
            -- otherwise it would still hold the row
            by_contra hle
            have heq := Nat.le_antisymm (hi.guarded.consents x hx) (Nat.le_of_not_lt hle)
            exact (hi.guarded.unfinished x hx hres heq c hc hconn).1 hfree
        stored := .inl he.refreshed
        kept := by
          intro x x' hx hx' _ _
          rw [hc, Option.some.injEq] at hx
          rw [hc', Option.some.injEq] at hx'
          subst hx hx'
          exact .inr rfl
        granted := by
          intro g hg
          rw [he.granted] at hg
          exact .inl hg }
  | settled hk hs =>
    obtain ⟨c, hc, hrev, now, hc'⟩ := hs.before
    exact
      { exchanged := by
          intro e he
          rw [hs.exchanges] at he
          exact .inl he
        stored := .inl hs.refreshed
        kept := by
          intro x x' hx hx' hsame _
          rw [hc, Option.some.injEq] at hx
          rw [hc', Option.some.injEq] at hx'
          subst hx hx'
          simp only [Db.settledRow] at hsame
          omega
        granted := (hs.grants hk).step }
  | refreshed hr hs =>
    obtain ⟨c, hc, hsame, howner, now, hc'⟩ := hs.before
    obtain ⟨_, hrev, hver, hconn⟩ := sameGrant_iff.mp hsame
    obtain ⟨x, hx, hstage⟩ := hstored _ _ _ rfl
    have hgrants := hs.grants hr
    obtain ⟨c', hc'', _, hopen, _⟩ := hgrants.after
    have hholds : CredentialCall.Holds s x := hi.calls _ hx
    obtain ⟨e, he, hkey⟩ := (hholds.held _ _ (by rw [hstage]; rfl)).exchanged
    exact
      { exchanged := by
          intro e he
          rw [hs.exchanges] at he
          exact .inl he
        stored := by
          right
          refine ⟨x, _, _, _, c, c', hx, hstage, hc, hsame, howner, ⟨e, he, ?_⟩, hc'', hopen⟩
          rw [hkey, hrev, hver]
        kept := by
          intro y y' _ _ _ hsame'
          rw [hs.refreshed] at hsame'
          exact absurd hsame' (List.cons_ne_self _ _)
        granted := hgrants.step }

theorem spending_initial (server : McpServer) (sessions : Table AuthSession.id)
    (suspended : List String) (now : Millis) :
    Spending (State.initial server sessions suspended now) where
  guarded :=
    { absent := fun _ => rfl
      exchanged := fun _ he => by cases he
      spent := fun _ he => by cases he
      once := List.nodup_nil
      consents := fun _ he => by cases he
      unfinished := fun _ he => by cases he
      granted := fun _ _ hc => by cases hc }
  calls _ hc := by cases hc
  apart := .nil
  returned _ hr := by cases hr

end

/-- **A refresh token is spent once, and tokens stay with their grant**, in every run. -/
theorem refresh_spent_once (assertProfile : String → String → String → Bool) (ownerId : String)
    (server : McpServer) (sessions : Table AuthSession.id) (suspended : List String)
    (now : Millis) (s : State)
    (h : (oauthSystem assertProfile ownerId).Reachable anyStep
      (State.initial server sessions suspended now) s) :
    RefreshSafe s ∧
      ∀ a t, (oauthSystem assertProfile ownerId).step s a = some t → RefreshStep s t := by
  have hi : Spending s := h.inv Spending (spending_initial server sessions suspended now)
    fun _ _ _ hi _ hstep => hi.step hstep
  exact ⟨hi.safe, fun _ _ hstep => hi.refreshStep hstep⟩

/-- A credential that has expired, with a refresh token, and what it is rotated to. -/
def expiring : Answer where
  statement := .ok
  credential := some { accessToken := "old", refreshToken := some "refresh", expiresAt := some 0 }

def rotating : Answer where
  statement := .ok
  credential := some { accessToken := "new", refreshToken := none, expiresAt := some 100000 }

/-- The grant that the first consent settles. -/
def sampleBinding : McpGrantBinding where
  connectionId := 0
  grantRevision := 2
  serverId := "files"
  serverAuthRevision := 1
  canonicalUserId := "user"

/-- Two callers with the settled grant: both find it expired, one has it exchanged, and the other
is given the token that was stored. -/
theorem refresh_spent_once_rotated : ∃ s,
    sampleSystem.Reachable anyStep sampleInitial s ∧
      s.history.returned.length = 2 ∧ s.history.exchanges.length = 1 ∧ RefreshSafe s := by
  have hrun : (sampleSystem.run anyStep sampleInitial
      (startRuns "first" "a" ++
        [.callback "user" "browser" "a" none, .next 0 answered, .next 0 answered,
          .next 0 answered, .next 0 expiring, .next 0 answered,
          .credential sampleBinding, .credential sampleBinding, .next 0 answered,
          .next 1 answered, .next 0 answered, .next 1 answered, .next 0 answered,
          .next 1 answered, .next 0 rotating, .next 0 answered, .next 0 answered,
          .next 0 answered])).any (fun s =>
        s.history.returned.length = 2 ∧ s.history.exchanges.length = 1) = true := by
    decide +kernel
  obtain ⟨s, hs, hp⟩ := (Option.any_eq_true _ _).mp hrun
  obtain ⟨hreturned, hexchanges⟩ := of_decide_eq_true hp
  have hreach := System.run_reachable hs
  exact ⟨s, hreach, hreturned, hexchanges,
    (refresh_spent_once _ _ sampleServer sampleSessions [] 0 s hreach).1⟩

end BackgroundAgents.Mcp

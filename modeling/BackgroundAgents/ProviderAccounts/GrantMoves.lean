import BackgroundAgents.ProviderAccounts.Service
import BackgroundAgents.Lib.SingleUse

/-!
# What the operations do to a grant

The account is a store of a grant that can be used once: the version and the
generation are the credential's, the lease is that of its row, and the store is
open while the account is active. A call that is exchanging is a claim, by how
far it got (`Call.claim?`).

Every statement is a move of that store, or none (`Rows` lemmas below), and so
is every await of an exchange (`ExchangeRequest.next_moves`). Of two statements
in a batch, the second cannot take effect without the first: it looks for the
encrypted payload that the first one stored, and no nonce is drawn twice
(`Fresh`).
-/

namespace BackgroundAgents.ProviderAccounts

open SingleUse Relation

/-- Whether a lease may be taken. -/
def Rows.opened (rows : Rows) : Bool :=
  rows.account.status = .active && rows.account.archivedAt.isNone

/-- An account as a store of a grant. -/
def Grants.view (s : Grants) (claims : Multiset SingleUse.Claim) : SingleUse.State where
  version := s.rows.credential.credentialVersion
  generation := s.rows.credential.exchangeGeneration
  leased := s.rows.credential.lease.isSome
  opened := s.rows.opened
  used := s.submitted
  claims

/-- A write whose encrypted payload is not stored. -/
def Rows.Fresh (rows : Rows) (write : CredentialWrite) : Prop :=
  write.encryptedPayload ≠ rows.credential.encryptedPayload

/-! ## Statements -/

section Statements

variable {free : Prop} {rows : Rows} {n : Nat} {used : List Nat}
  {claims : Multiset SingleUse.Claim}

/-- The account, with the counters that a statement does not touch. -/
abbrev Rows.at (rows : Rows) (n : Nat) (used : List Nat) : Grants :=
  { rows, encryptions := n, submitted := used }

theorem CredentialRow.holds_iff {row : CredentialRow} {claim : Claim} :
    row.holds claim = true ↔ row.credentialVersion = claim.credentialVersion ∧
      row.exchangeGeneration = claim.exchangeGeneration ∧
        ∃ lease, row.lease = some lease ∧ lease.owner = claim.exchangeOwner := by
  simp [holds, Option.any_eq_true, and_assoc]

theorem Rows.opened_iff : rows.opened = true ↔
    rows.account.status = .active ∧ rows.account.archivedAt = none := by
  simp [opened]

theorem tryBeginExchange_some {version g : Nat} {owner : Text} {now : Millis}
    (h : (rows.tryBeginExchange version owner .active now).2 = some g) :
    g = rows.credential.exchangeGeneration + 1 ∧ rows.credential.credentialVersion = version ∧
      Move free ((rows.at n used).view claims)
        (((rows.tryBeginExchange version owner .active now).1.at n used).view
          (⟨version, g, .claimed⟩ ::ₘ claims)) := by
  unfold Rows.tryBeginExchange at h ⊢
  dsimp only at h ⊢
  split at h
  next hguard =>
    cases h
    rw [if_pos hguard]
    obtain ⟨hversion, hlease, hstatus, harchived⟩ := hguard
    refine ⟨rfl, hversion, ?_⟩
    have hmove := @Move.begin free ((rows.at n used).view claims)
      (by simp [Grants.view, hlease]) (Rows.opened_iff.mpr ⟨hstatus, harchived⟩)
    rw [← hversion]
    exact hmove
  next => cases h

theorem tryBeginExchange_none {version : Nat} {owner : Text}
    {status : ModelProviderAccountStatus} {now : Millis}
    (h : (rows.tryBeginExchange version owner status now).2 = none) :
    (rows.tryBeginExchange version owner status now).1 = rows := by
  unfold Rows.tryBeginExchange at h ⊢
  dsimp only at h ⊢
  split at h
  next => cases h
  next hguard => rw [if_neg hguard]

/-- A lease that is taken without a claim: its claim is given up at once. -/
theorem tryBeginExchange_moves (version : Nat) (owner : Text) (now : Millis) :
    ReflTransGen (Move free) ((rows.at n used).view claims)
      (((rows.tryBeginExchange version owner .active now).1.at n used).view claims) := by
  cases h : (rows.tryBeginExchange version owner .active now).2 with
  | none =>
    rw [tryBeginExchange_none h]
  | some g =>
    refine .tail (.single (tryBeginExchange_some h).2.2) ?_
    exact Move.drop rfl

theorem clearSafeFailure_moves {claim : Claim} (now : Millis)
    (hclaim : ⟨claim.credentialVersion, claim.exchangeGeneration, .returning⟩ ∈ claims) :
    ReflTransGen (Move free) ((rows.at n used).view claims)
      (((rows.clearSafeFailure claim now).1.at n used).view claims) := by
  unfold Rows.clearSafeFailure
  split
  next h =>
    obtain ⟨hversion, hgeneration, -⟩ := CredentialRow.holds_iff.mp h
    exact .single (Move.clear hclaim rfl hversion.symm hgeneration.symm)
  next => exact .refl

/-- A new credential is stored. -/
theorem store_move (write : CredentialWrite) (account : ModelProviderAccount) :
    Move free ((rows.at n used).view claims)
      ((Rows.at { account, credential := rows.credential.store write } n used).view claims) :=
  Move.store _

theorem completeExchange_moves (write : CredentialWrite) (claim : Claim)
    (status : ModelProviderAccountStatus) :
    ReflTransGen (Move free) ((rows.at n used).view claims)
      (((rows.completeExchange write claim status).1.at n used).view claims) := by
  unfold Rows.completeExchange
  split
  next => exact .single (store_move write rows.account)
  next => exact .refl

/-- The account of a credential that is not stored is left alone. -/
theorem updateConnection_of_fresh {write : CredentialWrite} (h : rows.Fresh write)
    (externalAccountId : Option Text) (status : ModelProviderAccountStatus) (version : Nat)
    (generation : Option Nat) :
    rows.updateConnection externalAccountId status version write.encryptedPayload generation =
      (rows, false) := by
  unfold Rows.updateConnection
  rw [if_neg]
  rintro ⟨-, -, hpayload, -⟩
  exact h hpayload.symm

theorem store_updateConnection_moves (write : CredentialWrite) (externalAccountId : Option Text)
    (version : Nat) (generation : Option Nat) :
    ReflTransGen (Move free) ((rows.at n used).view claims)
      (((Rows.updateConnection { rows with credential := rows.credential.store write }
        externalAccountId .active version write.encryptedPayload generation).1.at n used).view
          claims) := by
  unfold Rows.updateConnection
  split
  next => exact .single (store_move write _)
  next => exact .single (store_move write rows.account)

theorem reconnectCredentialAndAccount_moves {write : CredentialWrite} (h : rows.Fresh write)
    (version : Nat) (externalAccountId : Option Text) :
    ReflTransGen (Move free) ((rows.at n used).view claims)
      (((rows.reconnectCredentialAndAccount write version externalAccountId).1.at n used).view
        claims) := by
  unfold Rows.reconnectCredentialAndAccount Rows.batch Rows.replace
  dsimp only
  split
  next => exact store_updateConnection_moves write externalAccountId _ none
  next => rw [updateConnection_of_fresh h]

theorem completeVerification_moves {write : CredentialWrite} (h : rows.Fresh write)
    (claim : Claim) (status : ModelProviderAccountStatus) (externalAccountId : Option Text) :
    ReflTransGen (Move free) ((rows.at n used).view claims)
      (((rows.completeVerificationCredentialAndAccount write claim status
        externalAccountId).1.at n used).view claims) := by
  unfold Rows.completeVerificationCredentialAndAccount Rows.batch Rows.completeExchange
  dsimp only
  split
  next => exact store_updateConnection_moves write externalAccountId _ _
  next => rw [updateConnection_of_fresh h]

theorem finalizeReconnect_moves (write : CredentialWrite) (target : Rows.ReconnectTarget)
    (expected external : Option Text) (guard : Bool) :
    ReflTransGen (Move free) ((rows.at n used).view claims)
      (((rows.finalizeReconnect write target expected external guard).1.at n used).view
        claims) := by
  unfold Rows.finalizeReconnect Rows.batch Rows.reconnectAccount Rows.reconnectCredential
  dsimp only
  by_cases h : rows.account.provider = write.provider
      ∧ rows.account.externalAccountId = expected
      ∧ rows.account.archivedAt = none ∧ rows.account.status = target.status
      ∧ rows.account.lifecycleVersion = target.lifecycleVersion ∧ guard = true
      ∧ rows.credential.credentialVersion = target.credentialVersion
  · simp only [if_pos h]
    rw [if_pos ⟨trivial, h.2.2.2.2.2.2⟩]
    exact .single (store_move write _)
  · simp only [if_neg h]
    exact .refl

theorem fence_moves (claim : Claim) (now : Millis) :
    ReflTransGen (Move free) ((rows.at n used).view claims)
      (((rows.fenceExchangeAndRequireReconnect claim now).1.at n used).view claims) := by
  unfold Rows.fenceExchangeAndRequireReconnect Rows.batch Rows.fenceAccount
  dsimp only
  split
  next h =>
    unfold Rows.fenceCredential
    rw [if_pos ⟨h.2.2, rfl, h.1⟩]
    exact .single Move.fence
  next =>
    unfold Rows.fenceCredential
    split
    next h =>
      -- an account that requires reconnection is closed already
      have hclosed : rows.opened = false := by
        have hstatus : rows.account.status = .reconnectRequired := h.2.1
        simp [Rows.opened, hstatus]
      have hview : Rows.opened
          { rows with
            credential :=
              { rows.credential with
                lease := none
                exchangeGeneration := rows.credential.exchangeGeneration + 1
                updatedAt := now } } = false := hclosed
      have hmove := @Move.fence free ((rows.at n used).view claims)
      refine .single ?_
      unfold Grants.view at hmove ⊢
      dsimp only at hmove ⊢
      rw [hview]
      exact hmove
    next => exact .refl

/-- A change of the account closes the store, leaves it or opens it. -/
theorem account_moves (account : ModelProviderAccount)
    (h : Rows.opened { rows with account } = true →
      rows.opened = true ∨ free ∨ rows.credential.lease.isSome = true ∨
        ((rows.at n used).view claims).Fresh) :
    ReflTransGen (Move free) ((rows.at n used).view claims)
      ((Rows.at { rows with account } n used).view claims) := by
  cases hopened : Rows.opened { rows with account } with
  | false =>
    have hmove := @Move.close free ((rows.at n used).view claims)
    unfold Grants.view at hmove ⊢
    dsimp only at hmove ⊢
    rw [hopened]
    exact .single hmove
  | true =>
    rcases h hopened with hbefore | hguard
    · unfold Grants.view
      dsimp only
      rw [hopened, hbefore]
    · have hmove := @Move.reopen free ((rows.at n used).view claims) hguard
      unfold Grants.view at hmove ⊢
      dsimp only at hmove ⊢
      rw [hopened]
      exact .single hmove

end Statements

/-! ## Exchanges -/

/-- The claim of an exchange, by its stage. -/
def ExchangeStage.claim? (version : Nat) : ExchangeStage → Option SingleUse.Claim
  | .beginning => none
  | .claimed g => some ⟨version, g, .claimed⟩
  | .refreshing g => some ⟨version, g, .inUse⟩
  | .clearing g _ => some ⟨version, g, .returning⟩
  | .completing g _ _ => some ⟨version, g, .settling⟩
  | .failing g _ => some ⟨version, g, .settling⟩

/-- The write that an exchange is about to execute. -/
def ExchangeStage.write? : ExchangeStage → Option CredentialWrite
  | .completing _ write _ => some write
  | _ => none

/-- The claim of a call, among the others. -/
def addClaim (c : Option SingleUse.Claim) (claims : Multiset SingleUse.Claim) :
    Multiset SingleUse.Claim :=
  c.elim claims (· ::ₘ claims)

section Exchange

variable {free : Prop} {s : Grants} {claims : Multiset SingleUse.Claim} {answer : Answer}

theorem execute_moves {α : Type} {statement : Rows → Rows × α}
    (h : ReflTransGen (Move free) (s.view claims)
      (Grants.view { s with rows := (statement s.rows).1 } claims)) :
    ReflTransGen (Move free) (s.view claims) ((s.execute answer statement).1.view claims) := by
  unfold Grants.execute
  cases answer.write with
  | done => exact h
  | failedAfter => exact h
  | failedBefore => exact .refl

namespace ExchangeRequest

variable (request : ExchangeRequest)

theorem beginning_moves :
    let r := request.next answer s .beginning
    ReflTransGen (Move free) (s.view claims)
      (r.1.view (addClaim (r.2.stage?.bind
        (ExchangeStage.claim? request.state.credentialVersion)) claims)) := by
  unfold next Grants.execute
  dsimp only
  cases hw : answer.write with
  | failedBefore => exact .refl
  | failedAfter => exact tryBeginExchange_moves _ _ _
  | done =>
    dsimp only
    cases h : (s.rows.tryBeginExchange request.state.credentialVersion request.owner
        request.expectedAccountStatus answer.now).2 with
    | none =>
      rw [tryBeginExchange_none h]
      exact .refl
    | some g => exact .single (tryBeginExchange_some h).2.2

theorem complete_moves (generation : Nat) {write : CredentialWrite}
    (refreshed : ProviderRefreshResult) (h : s.rows.Fresh write) :
    ReflTransGen (Move free) (s.view claims)
      (Grants.view { s with rows := (request.complete generation write refreshed s.rows).1 }
        claims) := by
  unfold complete
  cases request.completion with
  | credential => exact completeExchange_moves write _ _
  | credentialAndAccount => exact completeVerification_moves h _ _ _

/-- **An await of an exchange** is a series of moves of its claim. -/
theorem next_moves (stage : ExchangeStage) (hfresh : ∀ write ∈ stage.write?, s.rows.Fresh write) :
    let r := request.next answer s stage
    ReflTransGen (Move free)
      (s.view (addClaim (stage.claim? request.state.credentialVersion) claims))
      (r.1.view (addClaim (r.2.stage?.bind
        (ExchangeStage.claim? request.state.credentialVersion)) claims)) := by
  cases stage with
  | beginning => exact request.beginning_moves
  | claimed g =>
    unfold next
    dsimp only
    split
    next => exact .single (Move.abandon rfl)
    next =>
      split
      next => exact .single (Move.abandon rfl)
      next => exact .single (Move.use rfl)
  | refreshing g =>
    unfold next
    dsimp only
    split
    next => exact .single (Move.unused rfl)
    next => exact .single (Move.settle rfl)
    next =>
      split
      next => exact .single (Move.settle rfl)
      next => exact .single (Move.settle rfl)
  | clearing g phase =>
    have hmoves := @execute_moves free s (⟨request.state.credentialVersion, g, .returning⟩ ::ₘ claims)
      answer _ (·.clearSafeFailure (request.claim g) answer.now)
      (clearSafeFailure_moves answer.now (Multiset.mem_cons_self _ _))
    exact hmoves.tail (Move.drop rfl)
  | completing g write refreshed =>
    have hmoves := @execute_moves free s (⟨request.state.credentialVersion, g, .settling⟩ ::ₘ claims)
      answer _ _ (request.complete_moves g refreshed (hfresh write rfl))
    unfold next
    dsimp only
    split
    next => exact hmoves.tail (Move.drop rfl)
    next => exact hmoves
  | failing g phase =>
    have hmoves := @execute_moves free s (⟨request.state.credentialVersion, g, .settling⟩ ::ₘ claims)
      answer _ (·.fenceExchangeAndRequireReconnect (request.claim g) answer.now)
      (fence_moves _ _)
    exact hmoves.tail (Move.drop rfl)

end ExchangeRequest

end Exchange

/-! ## Calls -/

def GetAccessStage.claim? : GetAccessStage → Option SingleUse.Claim
  | .exchanging _ exchange stage => stage.claim? exchange.state.credentialVersion
  | _ => none

def VerifyStage.claim? : VerifyStage → Option SingleUse.Claim
  | .exchanging exchange stage => stage.claim? exchange.state.credentialVersion
  | _ => none

namespace Call

def claim? : Call → Option SingleUse.Claim
  | .getAccess _ stage => stage.claim?
  | .verify _ stage => stage.claim?
  | _ => none

/-- The write of a call that is about to store a credential. -/
def write? : Call → Option CredentialWrite
  | .getAccess _ (.exchanging _ _ stage) => stage.write?
  | .verify _ (.exchanging _ stage) => stage.write?
  | .reconnect _ (.writing write _ _) => some write
  | .finalizeReconnect _ (.writing _ write _) => some write
  | _ => none

end Call

section Calls

variable {free : Prop} {s : Grants} {claims : Multiset SingleUse.Claim} {answer : Answer}

/-- Code that changes no row and does not go on with an exchange. -/
theorem moves_of_quiet {stage result : Type} {claim? : stage → Option SingleUse.Claim}
    {next : Next stage result} (h : next.stage?.bind claim? = none) :
    ReflTransGen (Move free) (s.view claims)
      (s.view (addClaim (next.stage?.bind claim?) claims)) := by
  rw [h]
  exact .refl

namespace GetAccess

variable {call : GetAccess}

/-- A call that does not go on with an exchange. -/
def Quiet (next : GetAccessNext) : Prop :=
  next.stage?.bind GetAccessStage.claim? = none

theorem quiet_deliver (access : ProviderAccess) (now : Millis) :
    Quiet (call.deliver access now) := by
  unfold deliver
  split <;> rfl

theorem quiet_loop (turn : PollTurn) : Quiet (call.loop turn answer) := by
  unfold loop
  split
  · rfl
  split
  · rfl
  split
  · rfl
  split
  · split <;> rfl
  split
  · split <;> rfl
  · rfl

theorem quiet_accessFromConcurrentUpdate (account : ModelProviderAccount)
    (adapter : ModelProviderAccountAdapter) (state : ProviderCredentialState) (now : Millis) :
    Quiet (call.accessFromConcurrentUpdate account adapter state now) := by
  unfold accessFromConcurrentUpdate
  split
  · rfl
  split
  · split
    · rfl
    · exact quiet_deliver _ _
  · rfl

theorem quiet_afterState (account : ModelProviderAccount) (adapter : ModelProviderAccountAdapter)
    (state : ProviderCredentialState) : Quiet (call.afterState account adapter state answer) := by
  unfold afterState
  split
  · rfl
  split
  · rfl
  split
  · rfl
  split
  · rfl
  · exact quiet_loop _

theorem quiet_afterExchange (turn : PollTurn) (exchange : ExchangeRequest) (e : ExchangeEnd) :
    Quiet (afterExchange turn exchange e) := by
  unfold afterExchange
  split <;> rfl

/-- Only an exchange goes on with an exchange. -/
theorem next_quiet (stage : GetAccessStage)
    (h : ∀ turn exchange st, stage ≠ .exchanging turn exchange st) :
    Quiet (call.next answer s stage).2 := by
  cases stage with
  | usableAccount =>
    dsimp only [next]
    split
    · rfl
    split
    · rfl
    split <;> rfl
  | credentialState account adapter =>
    dsimp only [next]
    split
    · rfl
    · exact quiet_afterState _ _ _
  | currentEligibility turn credential cached =>
    dsimp only [next]
    split
    · rfl
    split <;> rfl
  | touchLastUsed account adapter credential cached version => exact quiet_deliver _ _
  | sleeping turn => rfl
  | polling turn =>
    dsimp only [next]
    split
    · rfl
    · exact quiet_loop _
  | fencing turn =>
    dsimp only [next]
    split <;> rfl
  | reconcileAccount turn fenceError =>
    dsimp only [next]
    split
    · rfl
    split <;> rfl
  | reconcileState turn account fenceError =>
    dsimp only [next]
    split
    · rfl
    split
    · exact quiet_accessFromConcurrentUpdate _ _ _ _
    split <;> rfl
  | exchanging turn exchange st => exact absurd rfl (h turn exchange st)
  | reread turn =>
    dsimp only [next]
    split
    · rfl
    split
    · exact quiet_accessFromConcurrentUpdate _ _ _ _
    · rfl

/-- **An await of `getAccess`** is a series of moves of its claim. -/
theorem next_moves (stage : GetAccessStage)
    (hfresh : ∀ write ∈ (Call.getAccess call stage).write?, s.rows.Fresh write) :
    let r := call.next answer s stage
    ReflTransGen (Move free) (s.view (addClaim stage.claim? claims))
      (r.1.view (addClaim (r.2.stage?.bind GetAccessStage.claim?) claims)) := by
  cases stage with
  | fencing turn =>
    have hquiet := @next_quiet s answer call (.fencing turn) fun _ _ _ h => by cases h
    unfold next at hquiet ⊢
    exact (execute_moves (fence_moves _ _)).trans (moves_of_quiet hquiet)
  | exchanging turn exchange stage =>
    have hmoves := @ExchangeRequest.next_moves free s claims answer exchange stage hfresh
    unfold next
    dsimp only at hmoves ⊢
    split
    next stage' hnext =>
      rw [hnext] at hmoves
      exact hmoves
    next result hnext =>
      rw [hnext] at hmoves
      exact hmoves.trans (moves_of_quiet (quiet_afterExchange _ _ _))
  | _ => exact moves_of_quiet (next_quiet _ fun _ _ _ h => by cases h)

end GetAccess

namespace Verify

variable {call : Verify}

theorem quiet_afterExchange (exchange : ExchangeRequest) (e : ExchangeEnd) :
    (afterExchange exchange e).stage?.bind VerifyStage.claim? = none := by
  unfold afterExchange
  split <;> rfl

/-- Only an exchange goes on with an exchange. -/
theorem next_quiet (stage : VerifyStage) (h : ∀ exchange st, stage ≠ .exchanging exchange st) :
    (call.next answer s stage).2.stage?.bind VerifyStage.claim? = none := by
  cases stage with
  | account =>
    dsimp only [next]
    split
    · rfl
    split
    · rfl
    split
    · rfl
    split <;> rfl
  | credentialState account adapter =>
    dsimp only [next]
    split
    · rfl
    · rfl
    split <;> rfl
  | exchanging exchange st => exact absurd rfl (h exchange st)
  | reconcileAccount exchange =>
    dsimp only [next]
    split
    · rfl
    split <;> rfl
  | reconcileState exchange account =>
    dsimp only [next]
    split
    · rfl
    · rfl
    split <;> rfl
  | result =>
    dsimp only [next]
    split <;> rfl

/-- **An await of `verify`** is a series of moves of its claim. -/
theorem next_moves (stage : VerifyStage)
    (hfresh : ∀ write ∈ (Call.verify call stage).write?, s.rows.Fresh write) :
    let r := call.next answer s stage
    ReflTransGen (Move free) (s.view (addClaim stage.claim? claims))
      (r.1.view (addClaim (r.2.stage?.bind VerifyStage.claim?) claims)) := by
  cases stage with
  | exchanging exchange stage =>
    have hmoves := @ExchangeRequest.next_moves free s claims answer exchange stage hfresh
    unfold next
    dsimp only at hmoves ⊢
    split
    next stage' hnext =>
      rw [hnext] at hmoves
      exact hmoves
    next result hnext =>
      rw [hnext] at hmoves
      exact hmoves.trans (moves_of_quiet (quiet_afterExchange _ _))
  | _ => exact moves_of_quiet (next_quiet _ fun _ _ h => by cases h)

end Verify

/-- A status that is set opens the store at most where it may be. -/
theorem setStatus_moves (status : SetStatus)
    (h : status = .active → answer.write ≠ .failedBefore → s.rows.account.archivedAt = none →
      free ∨ s.rows.credential.lease.isSome = true ∨ (s.view claims).Fresh) :
    ReflTransGen (Move free) (s.view claims)
      ((s.execute answer (·.setStatus status.status)).1.view claims) := by
  by_cases hbefore : answer.write = .failedBefore
  · rw [Grants.execute, hbefore]
  · refine execute_moves ?_
    unfold Rows.setStatus
    split
    next harchived =>
      refine account_moves _ fun hopened => Or.inr ?_
      cases status with
      | active => exact h rfl hbefore harchived
      | disabled => simp [Rows.opened, SetStatus.status] at hopened
    next => exact .refl

namespace Call

/-- **An await of a call** is a series of moves of its claim; a status that is set to active
needs a store that may be opened. -/
theorem next_moves (call : Call) (hfresh : ∀ write ∈ call.write?, s.rows.Fresh write)
    (hopen : call = .setStatus .active .writing → answer.write ≠ .failedBefore →
      s.rows.account.archivedAt = none →
        free ∨ s.rows.credential.lease.isSome = true ∨ (s.view claims).Fresh) :
    let r := call.next answer s
    ReflTransGen (Move free) (s.view (addClaim call.claim? claims))
      (r.1.view (addClaim (r.2.bind Call.claim?) claims)) := by
  have hnone : ∀ {stage result : Type} (f : stage → Call) (next : Next stage result),
      (∀ st, (f st).claim? = none) → (next.stage?.map f).bind Call.claim? = none := by
    intro stage result f next hf
    cases next with
    | await st => exact hf st
    | done r => rfl
  cases call with
  | getAccess call stage =>
    have hmoves := @GetAccess.next_moves free s claims answer call stage hfresh
    have hclaim : (((call.next answer s stage).2.stage?.map (Call.getAccess call)).bind
        Call.claim?) = (call.next answer s stage).2.stage?.bind GetAccessStage.claim? := by
      rw [Option.bind_map]
      rfl
    dsimp only [next]
    rw [hclaim]
    exact hmoves
  | verify call stage =>
    have hmoves := @Verify.next_moves free s claims answer call stage hfresh
    have hclaim : (((call.next answer s stage).2.stage?.map (Call.verify call)).bind
        Call.claim?) = (call.next answer s stage).2.stage?.bind VerifyStage.claim? := by
      rw [Option.bind_map]
      rfl
    dsimp only [next]
    rw [hclaim]
    exact hmoves
  | setStatus status stage =>
    dsimp only [next]
    rw [hnone _ _ fun _ => rfl]
    cases stage with
    | account => exact .refl
    | writing => exact setStatus_moves status fun hactive => hopen (by rw [hactive])
    | result => exact .refl
  | archive =>
    refine execute_moves ?_
    unfold Rows.archive
    split
    next => exact account_moves _ fun hopened => by simp [Rows.opened] at hopened
    next => exact .refl
  | reconnect call stage =>
    dsimp only [next]
    rw [hnone _ _ fun _ => rfl]
    cases stage with
    | writing write version external =>
      exact @execute_moves free s claims answer _
        (·.reconnectCredentialAndAccount write version external)
        (reconnectCredentialAndAccount_moves (hfresh write rfl) _ _)
    | credentialState account adapter connected =>
      dsimp only [Reconnect.next]
      split <;> exact .refl
    | account => exact .refl
    | connecting account adapter => exact .refl
    | result => exact .refl
  | finalizeReconnect call stage =>
    dsimp only [next]
    rw [hnone _ _ fun _ => rfl]
    cases stage with
    | writing account write version =>
      exact @execute_moves free s claims answer _
        (·.finalizeReconnect write
          { status := account.status
            lifecycleVersion := account.lifecycleVersion
            credentialVersion := version }
          call.expectedExternalAccountId call.externalAccountId answer.authorized)
        (finalizeReconnect_moves _ _ _ _ _)
    | credentialState account =>
      dsimp only [FinalizeReconnect.next]
      split <;> exact .refl
    | owned => exact .refl
    | snapshot => exact .refl
    | lost => exact .refl
  | requireReconnect version =>
    refine execute_moves ?_
    unfold Rows.requireReconnectForExpiredCredential
    split
    next => exact account_moves _ fun hopened => by simp [Rows.opened] at hopened
    next => exact .refl

end Call

end Calls

end BackgroundAgents.ProviderAccounts

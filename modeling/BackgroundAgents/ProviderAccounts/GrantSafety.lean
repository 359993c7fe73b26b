import BackgroundAgents.ProviderAccounts.GrantMoves

/-!
# A rotating grant is spent once

Over any interleaving of calls and crashes, one lease of an account is held at
a time, its version and generation go up, and a credential is overwritten only
at the version that its writer started from (`GrantSafe`). A credential that
was handed to the provider is not handed over again, unless an operator makes
the account active at a moment when its stored grant is spent, or when an
exchange that lost its lease is still to spend it (`Rearms`): nothing in
`setStatus` asks for that, and a fenced account that is disabled and enabled
again is such a moment (`refresh_repeated_after_enable`).

Without such a step every step is a series of moves of a store whose grant can
be used once (`step_moves`), which has the invariant. What the moves need from
the code is that no write under way was encrypted under a nonce that is already
stored (`Nonces`).
-/

namespace BackgroundAgents.ProviderAccounts

open SingleUse Transition Relation

/-! ## What is stored -/

/-- The version that the write of a call starts from. -/
def Call.startedFrom? : Call → Option Nat
  | .getAccess _ (.exchanging _ exchange _) => some exchange.state.credentialVersion
  | .verify _ (.exchanging exchange _) => some exchange.state.credentialVersion
  | .reconnect _ (.writing _ version _) => some version
  | .finalizeReconnect _ (.writing _ _ version) => some version
  | _ => none

/-- The credential is as it was, or a write that started from its version is stored under the
next one. -/
def Stored (rows rows' : Rows) (write? : Option CredentialWrite) (from? : Option Nat) : Prop :=
  (rows'.credential.credentialVersion = rows.credential.credentialVersion ∧
      rows'.credential.encryptedPayload = rows.credential.encryptedPayload) ∨
    ∃ write ∈ write?, from? = some rows.credential.credentialVersion ∧
      rows'.credential.credentialVersion = rows.credential.credentialVersion + 1 ∧
      rows'.credential.encryptedPayload = write.encryptedPayload

section Stored

variable {rows : Rows} {write? : Option CredentialWrite} {from? : Option Nat}

theorem Stored.refl : Stored rows rows write? from? :=
  .inl ⟨rfl, rfl⟩

theorem stored_updateConnection (external : Option Text) (status : ModelProviderAccountStatus)
    (version : Nat) (payload : EncryptedPayload) (generation : Option Nat) :
    (rows.updateConnection external status version payload generation).1.credential =
      rows.credential := by
  unfold Rows.updateConnection
  split <;> rfl

/-- A batch whose first statement may store a credential and whose second one updates the
account. -/
theorem stored_batch {first second : Rows → Rows × Bool} {write? : Option CredentialWrite}
    (hfirst : Stored rows (first rows).1 write? from?)
    (hsecond : ∀ rows, (second rows).1.credential = rows.credential) :
    Stored rows (rows.batch first second).1 write? from? := by
  unfold Stored Rows.batch
  dsimp only
  rw [hsecond]
  exact hfirst

theorem stored_completeExchange (write : CredentialWrite) (claim : Claim)
    (status : ModelProviderAccountStatus) :
    Stored rows (rows.completeExchange write claim status).1 (some write)
      (some claim.credentialVersion) := by
  unfold Rows.completeExchange
  split
  next h =>
    obtain ⟨hversion, -⟩ := CredentialRow.holds_iff.mp h.1
    exact .inr ⟨write, rfl, by rw [hversion], rfl, rfl⟩
  next => exact .refl

theorem stored_replace (write : CredentialWrite) (version : Nat) :
    Stored rows (rows.replace write version).1 (some write) (some version) := by
  unfold Rows.replace
  split
  next h => exact .inr ⟨write, rfl, by rw [h.1], rfl, rfl⟩
  next => exact .refl

theorem stored_finalizeReconnect (write : CredentialWrite) (target : Rows.ReconnectTarget)
    (expected external : Option Text) (guard : Bool) :
    Stored rows (rows.finalizeReconnect write target expected external guard).1 (some write)
      (some target.credentialVersion) := by
  have hcredential : (rows.reconnectAccount write.provider target expected external
      guard).1.credential = rows.credential := by
    unfold Rows.reconnectAccount
    split <;> rfl
  unfold Rows.finalizeReconnect Rows.batch Rows.reconnectCredential
  dsimp only
  split
  next h =>
    refine .inr ⟨write, rfl, ?_, ?_, rfl⟩
    · rw [← hcredential, h.2]
    · rw [← hcredential]
      rfl
  next => exact .inl ⟨by rw [hcredential], by rw [hcredential]⟩

theorem stored_fence (claim : Claim) (now : Millis) :
    Stored rows (rows.fenceExchangeAndRequireReconnect claim now).1 write? from? := by
  unfold Rows.fenceExchangeAndRequireReconnect Rows.batch Rows.fenceAccount Rows.fenceCredential
  dsimp only
  split <;> split <;> exact .inl ⟨rfl, rfl⟩

theorem stored_tryBeginExchange (version : Nat) (owner : Text)
    (status : ModelProviderAccountStatus) (now : Millis) :
    Stored rows (rows.tryBeginExchange version owner status now).1 write? from? := by
  unfold Rows.tryBeginExchange
  dsimp only
  split <;> exact .inl ⟨rfl, rfl⟩

theorem stored_clearSafeFailure (claim : Claim) (now : Millis) :
    Stored rows (rows.clearSafeFailure claim now).1 write? from? := by
  unfold Rows.clearSafeFailure
  split <;> exact .inl ⟨rfl, rfl⟩

end Stored

section Calls

variable {s : Grants} {answer : Answer}

theorem stored_execute {α : Type} {statement : Rows → Rows × α} {write? : Option CredentialWrite}
    {from? : Option Nat} (h : Stored s.rows (statement s.rows).1 write? from?) :
    Stored s.rows (s.execute answer statement).1.rows write? from? := by
  unfold Grants.execute
  cases answer.write with
  | done => exact h
  | failedAfter => exact h
  | failedBefore => exact .refl

/-- Nothing is encrypted by a statement. -/
theorem encryptions_execute {α : Type} (statement : Rows → Rows × α) :
    (s.execute answer statement).1.encryptions = s.encryptions := by
  unfold Grants.execute
  cases answer.write <;> rfl

/-- A stage writes what it encrypted last, or nothing. -/
def Encrypts (s s' : Grants) (write? : Option CredentialWrite) : Prop :=
  (write? = none ∧ s.encryptions ≤ s'.encryptions) ∨
    ∃ write, write? = some write ∧ write.encryptedPayload.nonce = s.encryptions ∧
      s' = s.encrypted

theorem Encrypts.none {s' : Grants} (h : s'.encryptions = s.encryptions) :
    Encrypts s s' Option.none :=
  .inl ⟨rfl, h ▸ Nat.le_refl _⟩

namespace ExchangeRequest

variable (request : ExchangeRequest)

theorem next_stored (stage : ExchangeStage) :
    Stored s.rows (request.next answer s stage).1.rows stage.write?
      (some request.state.credentialVersion) := by
  cases stage with
  | beginning =>
    have hstored := @stored_execute s answer _
      (·.tryBeginExchange request.state.credentialVersion request.owner
        request.expectedAccountStatus answer.now) none
      (some request.state.credentialVersion) (stored_tryBeginExchange _ _ _ _)
    unfold next
    dsimp only
    split <;> exact hstored
  | claimed g =>
    unfold next
    dsimp only
    split
    · exact .refl
    split <;> exact .refl
  | refreshing g =>
    unfold next
    dsimp only
    split
    · exact .refl
    · exact .refl
    split <;> exact .refl
  | clearing g phase =>
    exact @stored_execute s answer _ (·.clearSafeFailure (request.claim g) answer.now) none
      (some request.state.credentialVersion) (stored_clearSafeFailure _ _)
  | completing g write refreshed =>
    have hstored := @stored_execute s answer _ (request.complete g write refreshed) (some write)
      (some request.state.credentialVersion) (by
        unfold complete
        cases request.completion with
        | credential => exact stored_completeExchange write (request.claim g) _
        | credentialAndAccount =>
          exact stored_batch (stored_completeExchange write (request.claim g) _)
            fun rows => stored_updateConnection _ _ _ _ _)
    unfold next
    dsimp only
    split <;> exact hstored
  | failing g phase =>
    exact @stored_execute s answer _
      (·.fenceExchangeAndRequireReconnect (request.claim g) answer.now) none
      (some request.state.credentialVersion) (stored_fence _ _)

theorem next_encrypts (stage : ExchangeStage) :
    Encrypts s (request.next answer s stage).1
      ((request.next answer s stage).2.stage?.bind ExchangeStage.write?) := by
  cases stage with
  | beginning =>
    have hcount := @encryptions_execute s answer _
      (·.tryBeginExchange request.state.credentialVersion request.owner
        request.expectedAccountStatus answer.now)
    unfold next
    dsimp only
    split <;> exact .none hcount
  | claimed g =>
    unfold next
    dsimp only
    split
    · exact .none rfl
    split <;> exact .none rfl
  | refreshing g =>
    unfold next
    dsimp only
    split
    · exact .none rfl
    · exact .none rfl
    split
    · exact .inr ⟨_, rfl, rfl, rfl⟩
    · exact .none rfl
  | clearing g phase =>
    exact .none (@encryptions_execute s answer _
      (·.clearSafeFailure (request.claim g) answer.now))
  | completing g write refreshed =>
    have hcount := @encryptions_execute s answer _ (request.complete g write refreshed)
    unfold next
    dsimp only
    split <;> exact .none hcount
  | failing g phase =>
    exact .none (@encryptions_execute s answer _
      (·.fenceExchangeAndRequireReconnect (request.claim g) answer.now))

end ExchangeRequest

/-- A call that is no claim has nothing to write. -/
theorem ExchangeStage.write?_of_claim? {stage : ExchangeStage} {version : Nat}
    (h : stage.claim? version = Option.none) : stage.write? = Option.none := by
  cases stage with
  | completing g write refreshed => cases h
  | _ => rfl

namespace GetAccess

variable {call : GetAccess}

theorem write?_of_quiet {next : GetAccessNext} (h : Quiet next) :
    (next.stage?.map (Call.getAccess call)).bind Call.write? = none := by
  cases next with
  | done r => rfl
  | await stage =>
    cases stage with
    | exchanging turn exchange st => exact ExchangeStage.write?_of_claim? h
    | _ => rfl

theorem next_stored (stage : GetAccessStage) :
    Stored s.rows (call.next answer s stage).1.rows (Call.getAccess call stage).write?
      (Call.getAccess call stage).startedFrom? := by
  cases stage with
  | fencing turn =>
    unfold next
    exact stored_execute (stored_fence _ _)
  | exchanging turn exchange stage => exact exchange.next_stored stage
  | _ => exact .refl

theorem next_encrypts (stage : GetAccessStage) :
    Encrypts s (call.next answer s stage).1
      (((call.next answer s stage).2.stage?.map (Call.getAccess call)).bind Call.write?) := by
  cases stage with
  | fencing turn =>
    have hquiet := @next_quiet s answer call (.fencing turn) fun _ _ _ h => by cases h
    rw [write?_of_quiet hquiet]
    unfold next
    exact .none (encryptions_execute _)
  | exchanging turn exchange stage =>
    have hencrypts := @ExchangeRequest.next_encrypts s answer exchange stage
    unfold next
    dsimp only
    split
    next stage' hnext =>
      rw [hnext] at hencrypts
      exact hencrypts
    next result hnext =>
      rw [hnext] at hencrypts
      rw [write?_of_quiet (quiet_afterExchange _ _ _)]
      exact hencrypts
  | _ =>
    rw [write?_of_quiet (next_quiet _ fun _ _ _ h => by cases h)]
    exact .none rfl

end GetAccess

namespace Verify

variable {call : Verify}

theorem write?_of_quiet {next : ServiceNext VerifyStage}
    (h : next.stage?.bind VerifyStage.claim? = none) :
    (next.stage?.map (Call.verify call)).bind Call.write? = none := by
  cases next with
  | done r => rfl
  | await stage =>
    cases stage with
    | exchanging exchange st => exact ExchangeStage.write?_of_claim? h
    | _ => rfl

theorem next_stored (stage : VerifyStage) :
    Stored s.rows (call.next answer s stage).1.rows (Call.verify call stage).write?
      (Call.verify call stage).startedFrom? := by
  cases stage with
  | exchanging exchange stage => exact exchange.next_stored stage
  | _ => exact .refl

theorem next_encrypts (stage : VerifyStage) :
    Encrypts s (call.next answer s stage).1
      (((call.next answer s stage).2.stage?.map (Call.verify call)).bind Call.write?) := by
  cases stage with
  | exchanging exchange stage =>
    have hencrypts := @ExchangeRequest.next_encrypts s answer exchange stage
    unfold next
    dsimp only
    split
    next stage' hnext =>
      rw [hnext] at hencrypts
      exact hencrypts
    next result hnext =>
      rw [hnext] at hencrypts
      rw [write?_of_quiet (quiet_afterExchange _ _)]
      exact hencrypts
  | _ =>
    rw [write?_of_quiet (next_quiet _ fun _ _ h => by cases h)]
    exact .none rfl

end Verify

theorem stored_account {statement : Rows → Rows × Bool}
    (h : ∀ rows, (statement rows).1.credential = rows.credential) {write? : Option CredentialWrite}
    {from? : Option Nat} :
    Stored s.rows (s.execute answer statement).1.rows write? from? := by
  refine stored_execute (.inl ⟨?_, ?_⟩)
  · rw [h]
  · rw [h]

theorem setStatus_credential (rows : Rows) (status : ModelProviderAccountStatus) :
    (rows.setStatus status).1.credential = rows.credential := by
  unfold Rows.setStatus
  split <;> rfl

theorem archive_credential (rows : Rows) (now : Millis) :
    (rows.archive now).1.credential = rows.credential := by
  unfold Rows.archive
  split <;> rfl

theorem requireReconnect_credential (rows : Rows) (version : Nat) :
    (rows.requireReconnectForExpiredCredential version).1.credential = rows.credential := by
  unfold Rows.requireReconnectForExpiredCredential
  split <;> rfl

namespace Call

/-- **What a call may store**: its own write, over the version it started from. -/
theorem next_stored (call : Call) :
    Stored s.rows (call.next answer s).1.rows call.write? call.startedFrom? := by
  cases call with
  | getAccess call stage => exact GetAccess.next_stored stage
  | verify call stage => exact Verify.next_stored stage
  | setStatus status stage =>
    cases stage with
    | writing => exact stored_account fun rows => setStatus_credential rows _
    | _ => exact .refl
  | archive => exact stored_account fun rows => archive_credential rows _
  | reconnect call stage =>
    cases stage with
    | writing write version external =>
      exact @stored_execute s answer _
        (·.reconnectCredentialAndAccount write version external) (some write) (some version)
        (stored_batch (stored_replace write version)
          fun rows => stored_updateConnection _ _ _ _ _)
    | credentialState account adapter connected =>
      dsimp only [next, Reconnect.next]
      split <;> exact .refl
    | _ => exact .refl
  | finalizeReconnect call stage =>
    cases stage with
    | writing account write version =>
      exact @stored_execute s answer _
        (·.finalizeReconnect write
          { status := account.status
            lifecycleVersion := account.lifecycleVersion
            credentialVersion := version }
          call.expectedExternalAccountId call.externalAccountId answer.authorized) (some write)
        (some version) (stored_finalizeReconnect write _ _ _ _)
    | credentialState account =>
      dsimp only [next, FinalizeReconnect.next]
      split <;> exact .refl
    | _ => exact .refl
  | requireReconnect version => exact stored_account fun rows => requireReconnect_credential rows _

/-- **What a call may write next** is what it encrypted just now. -/
theorem next_encrypts (call : Call) :
    Encrypts s (call.next answer s).1 ((call.next answer s).2.bind write?) := by
  cases call with
  | getAccess call stage => exact GetAccess.next_encrypts stage
  | verify call stage => exact Verify.next_encrypts stage
  | setStatus status stage =>
    have hnone : ∀ next : ServiceNext SetStatusStage,
        (next.stage?.map (Call.setStatus status)).bind write? = none := by
      intro next
      cases next <;> rfl
    dsimp only [next]
    rw [hnone]
    cases stage with
    | writing => exact .none (@encryptions_execute s answer _ (·.setStatus status.status))
    | _ => exact .none rfl
  | archive => exact .none (@encryptions_execute s answer _ (·.archive answer.now))
  | reconnect call stage =>
    cases stage with
    | account =>
      dsimp only [next, Reconnect.next]
      split
      · exact .none rfl
      split
      · exact .none rfl
      split
      · exact .none rfl
      split
      · exact .none rfl
      split <;> exact .none rfl
    | connecting account adapter =>
      dsimp only [next, Reconnect.next]
      split
      · exact .none rfl
      split <;> exact .none rfl
    | credentialState account adapter connected =>
      dsimp only [next, Reconnect.next]
      split
      · exact .none rfl
      · exact .none rfl
      · exact .inr ⟨_, rfl, rfl, rfl⟩
    | writing write version external =>
      have hcount := @encryptions_execute s answer _
        (·.reconnectCredentialAndAccount write version external)
      dsimp only [next, Reconnect.next]
      split <;> exact .none hcount
    | result =>
      dsimp only [next, Reconnect.next]
      split <;> exact .none rfl
  | finalizeReconnect call stage =>
    cases stage with
    | owned =>
      dsimp only [next, FinalizeReconnect.next]
      split
      · exact .none rfl
      split <;> exact .none rfl
    | snapshot =>
      dsimp only [next, FinalizeReconnect.next]
      split
      · exact .none rfl
      split <;> exact .none rfl
    | credentialState account =>
      dsimp only [next, FinalizeReconnect.next]
      split
      · exact .none rfl
      · exact .none rfl
      · exact .inr ⟨_, rfl, rfl, rfl⟩
    | writing account write version =>
      have hcount := @encryptions_execute s answer _
        (·.finalizeReconnect write
          { status := account.status
            lifecycleVersion := account.lifecycleVersion
            credentialVersion := version }
          call.expectedExternalAccountId call.externalAccountId answer.authorized)
      dsimp only [next, FinalizeReconnect.next]
      split <;> exact .none hcount
    | lost =>
      dsimp only [next, FinalizeReconnect.next]
      split
      · exact .none rfl
      split <;> exact .none rfl
  | requireReconnect version =>
    exact .none (@encryptions_execute s answer _
      (·.requireReconnectForExpiredCredential version))

end Call

end Calls

/-! ## Nonces -/

/-- The nonce of the write that a call is about to execute. -/
def Call.nonce? (call : Call) : Option Nat :=
  call.write?.map (·.encryptedPayload.nonce)

/-- The nonces in use: the stored one, and one for each write under way. -/
def GrantState.nonces (s : GrantState) : List Nat :=
  s.grants.rows.credential.encryptedPayload.nonce :: s.calls.filterMap Call.nonce?

/-- No nonce is drawn twice. -/
structure Nonces (s : GrantState) : Prop where
  nodup : s.nonces.Nodup
  lt : ∀ n ∈ s.nonces, n < s.grants.encryptions

/-- The first of a list is replaced by the second, or stays in its place. -/
theorem nodup_replaced {a b : Nat} {o : Option Nat} {rest : List Nat}
    (h : (a :: (o.toList ++ rest)).Nodup) (hb : b = a ∨ o = some b) : (b :: rest).Nodup := by
  rcases hb with rfl | rfl
  · exact h.sublist (List.Sublist.cons_cons _ (List.sublist_append_right _ _))
  · exact (List.nodup_cons.mp h).2

namespace Nonces

variable {s : GrantState}

theorem fresh (h : Nonces s) {call : Call} (hcall : call ∈ s.calls) :
    ∀ write ∈ call.write?, s.grants.rows.Fresh write := by
  intro write hwrite heq
  refine (List.nodup_cons.mp h.nodup).1 (List.mem_filterMap.mpr ⟨call, hcall, ?_⟩)
  rw [Call.nonce?, Option.mem_def.mp hwrite, ← heq]
  rfl

/-- **The step lemma of the nonces.** -/
theorem next (h : Nonces s) {i : Nat} {call : Call} (hcall : s.calls[i]? = some call)
    (answer : Answer) :
    Nonces
      { grants := (call.next answer s.grants).1
        calls := advance s.calls i (call.next answer s.grants).2 } := by
  obtain ⟨hbefore, hafter⟩ := filterMap_advance Call.nonce? hcall (call.next answer s.grants).2
  have hnodup := ((hbefore.cons _).nodup_iff).mp h.nodup
  have hlt : ∀ n ∈ s.grants.rows.credential.encryptedPayload.nonce ::
      (call.nonce?.toList ++ (s.calls.eraseIdx i).filterMap Call.nonce?),
        n < s.grants.encryptions :=
    fun n hn => h.lt n (((hbefore.cons _).mem_iff).mpr hn)
  -- the stored nonce is the old one or that of the call's write
  have hstored : (call.next answer s.grants).1.rows.credential.encryptedPayload.nonce =
      s.grants.rows.credential.encryptedPayload.nonce ∨
      call.nonce? = some (call.next answer s.grants).1.rows.credential.encryptedPayload.nonce := by
    rcases @Call.next_stored s.grants answer call with ⟨-, hpayload⟩ | ⟨write, hwrite, -, -, hpayload⟩
    · left
      rw [hpayload]
    · right
      rw [Call.nonce?, Option.mem_def.mp hwrite, hpayload]
      rfl
  have hkept := nodup_replaced hnodup hstored
  have hkeptLt : ∀ n ∈ (call.next answer s.grants).1.rows.credential.encryptedPayload.nonce ::
      (s.calls.eraseIdx i).filterMap Call.nonce?, n < s.grants.encryptions := by
    intro n hn
    rcases List.mem_cons.mp hn with rfl | hn
    · rcases hstored with heq | hsome
      · rw [heq]
        exact hlt _ List.mem_cons_self
      · refine hlt _ (List.mem_cons_of_mem _ (List.mem_append_left _ ?_))
        rw [hsome]
        exact List.mem_singleton_self _
    · exact hlt _ (List.mem_cons_of_mem _ (List.mem_append_right _ hn))
  have hperm : ∀ o : Option Nat, (call.next answer s.grants).2.bind Call.nonce? = o →
      (GrantState.nonces
        { grants := (call.next answer s.grants).1
          calls := advance s.calls i (call.next answer s.grants).2 }).Perm
        (o.toList ++ ((call.next answer s.grants).1.rows.credential.encryptedPayload.nonce ::
          (s.calls.eraseIdx i).filterMap Call.nonce?)) := by
    rintro o rfl
    exact (hafter.cons _).trans List.perm_middle.symm
  have hbind : (call.next answer s.grants).2.bind Call.nonce? =
      ((call.next answer s.grants).2.bind Call.write?).map (·.encryptedPayload.nonce) := by
    cases (call.next answer s.grants).2 <;> rfl
  rcases @Call.next_encrypts s.grants answer call with ⟨hwrite, hcount⟩ | ⟨write, hwrite, hnonce, hs⟩
  · rw [hwrite] at hbind
    have hp := hperm none hbind
    refine ⟨hp.nodup_iff.mpr hkept, fun n hn => ?_⟩
    exact (hkeptLt n (hp.mem_iff.mp hn)).trans_le hcount
  · rw [hwrite, Option.map_some, hnonce] at hbind
    have hp := hperm (some s.grants.encryptions) hbind
    have hcount : (call.next answer s.grants).1.encryptions = s.grants.encryptions + 1 := by
      rw [hs]
      rfl
    refine ⟨hp.nodup_iff.mpr (List.nodup_cons.mpr ⟨fun hmem => ?_, hkept⟩), fun n hn => ?_⟩
    · exact Nat.lt_irrefl _ (hkeptLt _ hmem)
    · show n < (call.next answer s.grants).1.encryptions
      rw [hcount]
      rcases List.mem_cons.mp (hp.mem_iff.mp hn) with rfl | hn
      · exact Nat.lt_succ_self _
      · exact (hkeptLt n hn).trans (Nat.lt_succ_self _)

end Nonces

/-! ## The store and its claims -/

/-- The account as a store of a grant, with the calls that are exchanging. -/
def GrantState.view (s : GrantState) : SingleUse.State :=
  s.grants.view (s.calls.filterMap Call.claim? : List SingleUse.Claim)

/-- The call is about to make an account active. -/
def Call.enables : Call → Bool
  | .setStatus .active .writing => true
  | _ => false

/-- The call took the lease for a version and is still to hand its credential over. -/
def Call.yetToSubmit (version : Nat) (call : Call) : Bool :=
  call.claim?.any fun claim => claim.version = version ∧ claim.phase = .claimed

/-- The account is made active, with no lease to protect its credential, while that was handed
over or is about to be. -/
def Rearms (s : GrantState) : GrantAct → Prop
  | .go i answer =>
    let row := s.grants.rows.credential
    s.calls[i]?.any Call.enables = true ∧ answer.write ≠ .failedBefore
      ∧ s.grants.rows.account.archivedAt = none ∧ row.lease = none
      ∧ (row.credentialVersion ∈ s.grants.submitted
        ∨ s.calls.any (Call.yetToSubmit row.credentialVersion) = true)
  | _ => False

instance : ∀ (s : GrantState) (act : GrantAct), Decidable (Rearms s act)
  | _, .go _ _ => inferInstanceAs (Decidable (_ ∧ _))
  | _, .getAccess _ _ | _, .verify _ | _, .setStatus _ | _, .archive | _, .reconnect _
  | _, .connectExisting _ _ _ _ | _, .finalizeReconnect _ | _, .requireReconnect _
  | _, .crash _ => inferInstanceAs (Decidable False)

section Steps

variable {s t : GrantState} {act : GrantAct}

theorem coe_claims {o : Option SingleUse.Claim} {l rest : List SingleUse.Claim}
    (h : l.Perm (o.toList ++ rest)) :
    (l : Multiset SingleUse.Claim) = addClaim o (rest : Multiset SingleUse.Claim) := by
  rw [Multiset.coe_eq_coe.mpr h]
  cases o <;> rfl

/-- The stored credential is fresh, unless it was handed over or is about to be. -/
theorem fresh_of_not_rearms
    (hsubmitted : s.grants.rows.credential.credentialVersion ∉ s.grants.submitted)
    (hclaims : s.calls.any (Call.yetToSubmit s.grants.rows.credential.credentialVersion) = false) :
    s.view.Fresh := by
  have hused : s.view.used.count s.view.version = 0 := Multiset.count_eq_zero.mpr hsubmitted
  have hnone : s.view.claims.countP (Claim.isAt .claimed s.view.version) = 0 := by
    refine Multiset.countP_eq_zero.mpr ?_
    rintro claim hclaim ⟨hversion, hphase⟩
    obtain ⟨call, hcall, hsome⟩ := List.mem_filterMap.mp (Multiset.mem_coe.mp hclaim)
    have hyet : Call.yetToSubmit s.grants.rows.credential.credentialVersion call = true := by
      unfold Call.yetToSubmit
      rw [hsome]
      exact decide_eq_true ⟨hversion, hphase⟩
    exact absurd (List.any_eq_true.mpr ⟨call, hcall, hyet⟩) (Bool.eq_false_iff.mp hclaims)
  unfold SingleUse.State.Fresh SingleUse.State.uses
  rw [hused, hnone]

theorem go_eq {i : Nat} {answer : Answer} (h : grantSystem.step s (.go i answer) = some t) :
    ∃ call, s.calls[i]? = some call ∧
      t = { grants := (call.next answer s.grants).1
            calls := advance s.calls i (call.next answer s.grants).2 } := by
  obtain ⟨call, hcall, rfl⟩ := Option.map_eq_some_iff.mp h
  exact ⟨call, hcall, rfl⟩

theorem crash_eq {i : Nat} (h : grantSystem.step s (.crash i) = some t) :
    ∃ call, s.calls[i]? = some call ∧
      t = { s with calls := advance s.calls i none } := by
  dsimp only [grantSystem] at h
  split at h
  next hi =>
    cases h
    exact ⟨s.calls[i], List.getElem?_eq_getElem hi, rfl⟩
  next => cases h

/-- A call starts as no claim and without a write. -/
theorem started_eq (hgo : ∀ i answer, act ≠ .go i answer) (hcrash : ∀ i, act ≠ .crash i)
    (h : grantSystem.step s act = some t) :
    ∃ call, call.claim? = none ∧ call.write? = none ∧ t = { s with calls := s.calls ++ [call] } := by
  have hstarted : act.started.map (fun call => { s with calls := s.calls ++ [call] }) = some t := by
    cases act with
    | go i answer => exact absurd rfl (hgo i answer)
    | crash i => exact absurd rfl (hcrash i)
    | _ => exact h
  obtain ⟨call, hcall, rfl⟩ := Option.map_eq_some_iff.mp hstarted
  refine ⟨call, ?_, ?_, rfl⟩
  all_goals
    cases act with
    | getAccess request answer =>
      obtain ⟨stage, hstage, rfl⟩ := Option.map_eq_some_iff.mp hcall
      unfold GetAccess.start at hstage
      split at hstage
      · cases hstage
      · cases hstage
        rfl
    | go i answer => cases hcall
    | crash i => cases hcall
    | _ =>
      cases hcall
      rfl

theorem nonces_step (h : Nonces s) (hstep : grantSystem.step s act = some t) : Nonces t := by
  by_cases hgo : ∃ i answer, act = .go i answer
  · obtain ⟨i, answer, rfl⟩ := hgo
    obtain ⟨call, hcall, rfl⟩ := go_eq hstep
    exact h.next hcall answer
  by_cases hcrash : ∃ i, act = .crash i
  · obtain ⟨i, rfl⟩ := hcrash
    obtain ⟨call, hcall, rfl⟩ := crash_eq hstep
    have hsub : (GrantState.nonces { s with calls := advance s.calls i none }).Sublist s.nonces :=
      List.Sublist.cons_cons _ (List.Sublist.filterMap _ (List.eraseIdx_sublist _ _))
    exact ⟨h.nodup.sublist hsub, fun n hn => h.lt n (hsub.subset hn)⟩
  · obtain ⟨call, -, hwrite, rfl⟩ := started_eq (fun i answer he => hgo ⟨i, answer, he⟩)
      (fun i he => hcrash ⟨i, he⟩) hstep
    have hsame : GrantState.nonces { s with calls := s.calls ++ [call] } = s.nonces := by
      unfold GrantState.nonces
      simp [Call.nonce?, hwrite]
    refine ⟨?_, ?_⟩
    · rw [hsame]
      exact h.nodup
    · rw [hsame]
      exact h.lt

/-- **Every step** is a series of moves of the store. -/
theorem step_moves (h : Nonces s) (hstep : grantSystem.step s act = some t) :
    ReflTransGen (Move (Rearms s act)) s.view t.view := by
  by_cases hgo : ∃ i answer, act = .go i answer
  · obtain ⟨i, answer, rfl⟩ := hgo
    obtain ⟨call, hcall, rfl⟩ := go_eq hstep
    obtain ⟨hbefore, hafter⟩ := filterMap_advance Call.claim? hcall (call.next answer s.grants).2
    have hview : s.view = s.grants.view (addClaim call.claim?
        ((s.calls.eraseIdx i).filterMap Call.claim? : List SingleUse.Claim)) := by
      unfold GrantState.view
      rw [coe_claims hbefore]
    have hmoves := @Call.next_moves (Rearms s (.go i answer)) s.grants
      ((s.calls.eraseIdx i).filterMap Call.claim? : List SingleUse.Claim) answer call
      (h.fresh (List.mem_of_getElem? hcall)) (by
        rintro rfl hwrite harchived
        by_cases hlease : s.grants.rows.credential.lease = none
        · by_cases hspent : s.grants.rows.credential.credentialVersion ∈ s.grants.submitted ∨
              s.calls.any (Call.yetToSubmit s.grants.rows.credential.credentialVersion) = true
          · left
            exact ⟨by rw [hcall]; rfl, hwrite, harchived, hlease, hspent⟩
          · right
            right
            rw [not_or] at hspent
            have hfresh := fresh_of_not_rearms hspent.1 (Bool.eq_false_iff.mpr hspent.2)
            rw [hview] at hfresh
            exact hfresh
        · right
          left
          exact Option.isSome_iff_ne_none.mpr hlease)
    rw [hview]
    unfold GrantState.view
    rw [coe_claims hafter]
    exact hmoves
  by_cases hcrash : ∃ i, act = .crash i
  · obtain ⟨i, rfl⟩ := hcrash
    obtain ⟨call, hcall, rfl⟩ := crash_eq hstep
    obtain ⟨hbefore, hafter⟩ := filterMap_advance Call.claim? hcall none
    unfold GrantState.view
    rw [coe_claims hbefore, coe_claims hafter]
    cases call.claim? with
    | none => exact .refl
    | some claim => exact .single (Move.drop rfl)
  · obtain ⟨call, hclaim, -, rfl⟩ := started_eq (fun i answer he => hgo ⟨i, answer, he⟩)
      (fun i he => hcrash ⟨i, he⟩) hstep
    have hsame : GrantState.view { s with calls := s.calls ++ [call] } = s.view := by
      unfold GrantState.view
      simp [hclaim]
    rw [hsame]

end Steps

/-! ## Safety -/

/-- The exchange that a call names in its writes. -/
def Call.exchangeClaim? : Call → Option Claim
  | .getAccess _ (.exchanging _ exchange stage) =>
    (stage.claim? exchange.state.credentialVersion).map fun c => exchange.claim c.generation
  | .verify _ (.exchanging exchange stage) =>
    (stage.claim? exchange.state.credentialVersion).map fun c => exchange.claim c.generation
  | _ => none

/-- The call holds the lease of the row. -/
def Call.holds (row : CredentialRow) (call : Call) : Bool :=
  call.exchangeClaim?.any row.holds

/-- What a step does to the stored credential. -/
structure GrantStep (s : GrantState) (act : GrantAct) (t : GrantState) : Prop where
  version_le :
    s.grants.rows.credential.credentialVersion ≤ t.grants.rows.credential.credentialVersion
  generation_le :
    s.grants.rows.credential.exchangeGeneration ≤ t.grants.rows.credential.exchangeGeneration
  /-- Only the write of a call that started from the stored version overwrites it. -/
  overwritten :
    (t.grants.rows.credential.credentialVersion = s.grants.rows.credential.credentialVersion ∧
        t.grants.rows.credential.encryptedPayload = s.grants.rows.credential.encryptedPayload) ∨
      ∃ i answer call write, act = .go i answer ∧ s.calls[i]? = some call ∧
        call.write? = some write ∧
        call.startedFrom? = some s.grants.rows.credential.credentialVersion ∧
        t.grants.rows.credential.credentialVersion =
          s.grants.rows.credential.credentialVersion + 1 ∧
        t.grants.rows.credential.encryptedPayload = write.encryptedPayload

/-- What holds of an account and the calls on it. -/
structure GrantSafe (s : GrantState) : Prop where
  /-- One call at most holds the lease. -/
  oneHolder : s.calls.countP (Call.holds s.grants.rows.credential) ≤ 1
  steps : ∀ act t, grantSystem.step s act = some t → GrantStep s act t
  /-- No credential was handed over twice, but where the first time was safe to retry. -/
  spentOnce : s.grants.submitted.Nodup
  /-- An account whose stored credential was handed over serves no exchange. -/
  spent : s.grants.rows.credential.credentialVersion ∈ s.grants.submitted →
    ∀ version owner now, (s.grants.rows.tryBeginExchange version owner .active now).2 = none

section Safety

variable {s t : GrantState} {act : GrantAct}

theorem exchangeClaim?_generation {call : Call} {claim : Claim}
    (h : call.exchangeClaim? = some claim) :
    ∃ c, call.claim? = some c ∧ c.generation = claim.exchangeGeneration := by
  have hexchange : ∀ (exchange : ExchangeRequest) (stage : ExchangeStage),
      (stage.claim? exchange.state.credentialVersion).map
        (fun c => exchange.claim c.generation) = some claim →
      ∃ c, stage.claim? exchange.state.credentialVersion = some c ∧
        c.generation = claim.exchangeGeneration := by
    intro exchange stage hmap
    obtain ⟨c, hc, rfl⟩ := Option.map_eq_some_iff.mp hmap
    exact ⟨c, hc, rfl⟩
  cases call with
  | getAccess call stage =>
    cases stage with
    | exchanging turn exchange stage => exact hexchange exchange stage h
    | _ => cases h
  | verify call stage =>
    cases stage with
    | exchanging exchange stage => exact hexchange exchange stage h
    | _ => cases h
  | _ => cases h

/-- Generations differ, and so at most one is that of the row. -/
theorem one_holder (h : Inv s.view) :
    s.calls.countP (Call.holds s.grants.rows.credential) ≤ 1 := by
  have hone := h.one_holder
  have hcount : s.view.claims.countP (fun c => c.generation = s.view.generation) =
      (s.calls.filterMap Call.claim?).countP
        (fun c => c.generation = s.grants.rows.credential.exchangeGeneration) :=
    Multiset.coe_countP _ _
  rw [hcount, List.countP_filterMap] at hone
  refine (List.countP_mono_left ?_).trans hone
  intro call _ hholds
  obtain ⟨claim, hclaim, hrow⟩ := (Option.any_eq_true _ _).mp hholds
  obtain ⟨c, hc, hgeneration⟩ := exchangeClaim?_generation hclaim
  obtain ⟨-, hrow, -⟩ := CredentialRow.holds_iff.mp hrow
  rw [hc, Option.map_some, Option.getD_some]
  exact decide_eq_true (hgeneration.trans hrow.symm)

theorem grantStep (h : Nonces s) (hstep : grantSystem.step s act = some t) :
    GrantStep s act t := by
  have hmono := Move.mono_star (step_moves h hstep)
  refine ⟨hmono.1, hmono.2, ?_⟩
  by_cases hgo : ∃ i answer, act = .go i answer
  · obtain ⟨i, answer, rfl⟩ := hgo
    obtain ⟨call, hcall, rfl⟩ := go_eq hstep
    rcases @Call.next_stored s.grants answer call with hsame | ⟨write, hwrite, hfrom, hstored⟩
    · exact .inl hsame
    · exact .inr ⟨i, answer, call, write, rfl, hcall, hwrite, hfrom, hstored⟩
  by_cases hcrash : ∃ i, act = .crash i
  · obtain ⟨i, rfl⟩ := hcrash
    obtain ⟨call, -, rfl⟩ := crash_eq hstep
    exact .inl ⟨rfl, rfl⟩
  · obtain ⟨call, -, -, rfl⟩ := started_eq (fun i answer he => hgo ⟨i, answer, he⟩)
      (fun i he => hcrash ⟨i, he⟩) hstep
    exact .inl ⟨rfl, rfl⟩

theorem spent_closed (h : Inv s.view)
    (hspent : s.grants.rows.credential.credentialVersion ∈ s.grants.submitted) (version : Nat)
    (owner : Text) (now : Millis) :
    (s.grants.rows.tryBeginExchange version owner .active now).2 = none := by
  unfold Rows.tryBeginExchange
  dsimp only
  rw [if_neg]
  rintro ⟨-, hlease, hactive⟩
  have hleased : s.view.leased = false := by
    show s.grants.rows.credential.lease.isSome = false
    rw [hlease]
    rfl
  have hclosed : s.grants.rows.opened = false := h.closed_of_used hspent hleased
  rw [Rows.opened_iff.mpr hactive] at hclosed
  cases hclosed

/-- An account that no one is exchanging. -/
theorem idle_inv (rows : Rows) : Inv (idleAccount rows).view where
  versions _ hc := by cases hc
  generations _ hc := by cases hc
  distinct := List.nodup_nil
  usedVersions _ hv := by cases hv
  once _ := Nat.zero_le _
  inUse _ := Nat.zero_le _
  ready _ _ := rfl
  returning _ hc := by cases hc

theorem idle_nonces (rows : Rows) : Nonces (idleAccount rows) where
  nodup := List.nodup_singleton _
  lt n hn := by
    rw [List.mem_singleton.mp hn]
    exact Nat.lt_succ_self _

/-- **A rotating grant is spent once**, over every run that rearms no spent grant. -/
theorem grant_spent_once (rows : Rows)
    (h : grantSystem.Reachable (fun s act => ¬Rearms s act) (idleAccount rows) s) :
    GrantSafe s := by
  obtain ⟨hnonces, hinv⟩ : Nonces s ∧ Inv s.view := by
    refine h.inv (fun s => Nonces s ∧ Inv s.view) ⟨idle_nonces rows, idle_inv rows⟩ ?_
    rintro s act t ⟨hnonces, hinv⟩ hok hstep
    refine ⟨nonces_step hnonces hstep, ?_⟩
    have hmoves := step_moves hnonces hstep
    rw [eq_false hok] at hmoves
    exact Move.inv_star hinv hmoves
  exact
    { oneHolder := one_holder hinv
      steps := fun act t hstep => grantStep hnonces hstep
      spentOnce := Multiset.coe_nodup.mp hinv.used_once
      spent := spent_closed hinv }

end Safety

/-! ## Two accounts -/

/-- A provider whose credentials are never fresh, and are anything. -/
def openAdapter : ModelProviderAccountAdapter where
  credentialSchemaVersion := 1
  refreshBufferMs := 0
  parseCredential payload _ := some payload
  cachedAccess _ := none
  runtimeMetadata _ _ := []
  validateExternalIdentity _ _ := true
  validateReconnectInputIdentity _ _ := true

def openAccess : GetAccess where
  options := {}
  registry _ := some openAdapter
  expectedProvider := .openai
  request := {}

def connectedRows : Rows where
  account := { provider := .openai, status := .active }
  credential :=
    { encryptedPayload := { payload := [], nonce := 0 }
      credentialSchemaVersion := 1
      updatedAt := 0 }

/-- A call of `getAccess`, up to its call of the provider. -/
def toRefresh : List GrantAct :=
  [.getAccess openAccess {}, .go 0 {}, .go 0 {}, .go 0 {}, .go 0 {}]

/-- The provider answers, and the credential is stored. -/
theorem grant_spent_once_refreshed : ∃ s : GrantState,
    grantSystem.Reachable (fun s act => ¬Rearms s act) (idleAccount connectedRows) s ∧
      s.grants.submitted = [1] ∧ s.grants.rows.credential.credentialVersion = 2 ∧
      GrantSafe s := by
  have hrun : (grantSystem.run (fun s act => ¬Rearms s act) (idleAccount connectedRows)
      (toRefresh ++
        [.go 0
          { refresh := .ok { credential := [], accessToken := [], accessTokenExpiresAt := 1 } },
          .go 0 {}, .go 0 {}])).any (fun s =>
      s.grants.submitted = [1] ∧ s.grants.rows.credential.credentialVersion = 2) = true := by
    decide +kernel
  obtain ⟨s, hs, hstored⟩ := (Option.any_eq_true _ _).mp hrun
  have hstored := of_decide_eq_true hstored
  have hreachable := System.run_reachable hs
  exact ⟨s, hreachable, hstored.1, hstored.2, grant_spent_once _ hreachable⟩

/-- A refresh fails and the account is fenced; disabled and enabled again, it hands the same
credential over a second time. -/
theorem refresh_repeated_after_enable : ∃ s : GrantState,
    grantSystem.Reachable anyStep (idleAccount connectedRows) s ∧ s.grants.submitted = [1, 1] := by
  have hrun : (grantSystem.run anyStep (idleAccount connectedRows)
      (toRefresh ++
        -- the refresh fails, the account is fenced, and the call ends
        [.go 0 {}, .go 0 {}, .go 0 {},
          .setStatus .disabled, .go 0 {}, .go 0 {}, .go 0 {},
          .setStatus .active, .go 0 {}, .go 0 {}, .go 0 {}] ++
        toRefresh)).any (fun s => s.grants.submitted = [1, 1]) = true := by
    decide +kernel
  obtain ⟨s, hs, hsubmitted⟩ := (Option.any_eq_true _ _).mp hrun
  exact ⟨s, System.run_reachable hs, of_decide_eq_true hsubmitted⟩

end BackgroundAgents.ProviderAccounts

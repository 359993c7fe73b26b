import BackgroundAgents.ProviderAccounts.Rows

/-!
# A claimed credential exchange

`ClaimedProviderCredentialExchange.run` takes the lease of a credential, hands
the grant to the provider and stores what comes back. It is written as the
stages between its awaits (`ExchangeStage`); `ExchangeRequest.next` is what
happens when the operation that a stage awaits takes effect and the code runs
on to the next await.

The surroundings answer each await (`Answer`): the time that the code then
reads, whether a statement of the database was executed and whether the caller
learns that, and what the provider said. A statement that was executed may
still fail for its caller.

`submitted` is a ghost: the versions whose credential was handed to the
provider and did not come back as safe to retry.
-/

namespace BackgroundAgents.ProviderAccounts

structure CachedProviderAccess where
  accessToken : Text
  accessTokenExpiresAt : Millis
  deriving DecidableEq, Repr

structure ProviderRefreshResult where
  credential : Text
  accessToken : Text
  accessTokenExpiresAt : Millis
  externalAccountId : Option Text := none
  deriving DecidableEq, Repr

structure ProviderConnectionResult where
  credential : Text
  externalAccountId : Option Text := none
  accessTokenExpiresAt : Option Millis := none
  deriving DecidableEq, Repr

/-- The part of a provider's adapter that needs no provider: credentials are read, and
identities compared, by its own rules. -/
structure ModelProviderAccountAdapter where
  credentialSchemaVersion : Nat
  refreshBufferMs : Nat
  supportsVerification : Bool := true
  /-- `none` where it throws. -/
  parseCredential : Text → Nat → Option Text
  cachedAccess : Text → Option CachedProviderAccess
  runtimeMetadata : Text → Option Text → List (Text × Text)
  /-- Whether it does not throw. -/
  validateExternalIdentity : Option Text → Option Text → Bool
  /-- Whether it does not throw. -/
  validateReconnectInputIdentity : Text → Option Text → Bool

/-- `ProviderCredentialState` -/
structure ProviderCredentialState where
  payload : Text
  credentialSchemaVersion : Nat
  credentialVersion : Nat
  exchangeGeneration : Nat
  lease : Option ExchangeLease
  deriving DecidableEq, Repr

inductive ProviderRefreshFailureClassification where
  | unauthorized
  | ambiguous
  | retrySafe
  deriving DecidableEq, Repr

/-- What became of a statement: executed, executed but failed for its caller, or not
executed. -/
inductive WriteOutcome where
  | done
  | failedAfter
  | failedBefore
  deriving DecidableEq, Repr

/-- What the surroundings answer to an await. -/
structure Answer where
  now : Millis := 0
  write : WriteOutcome := .done
  /-- `adapter.refresh`: a result, or the classification of what it threw (a plain error has
  none). -/
  refresh : Except (Option ProviderRefreshFailureClassification) ProviderRefreshResult :=
    .error none
  /-- `adapter.connect`, `none` where it throws. -/
  connection : Option ProviderConnectionResult := none
  /-- A fresh owner of an exchange. -/
  owner : Text := []
  /-- Whether an authorization is still the caller's. -/
  authorized : Bool := true

/-- The rows of an account, with the grants spent. Encryptions are counted, for a nonce is never
drawn twice. -/
structure Grants where
  rows : Rows
  encryptions : Nat
  submitted : List Nat := []
  deriving DecidableEq, Repr

/-- The state after an encryption, whose nonce is the number of those before. -/
def Grants.encrypted (s : Grants) : Grants :=
  { s with encryptions := s.encryptions + 1 }

/-- Execute a statement, unless the await fails before it: the new rows, and its result where
the caller learns it. -/
def Grants.execute {α : Type} (s : Grants) (answer : Answer) (statement : Rows → Rows × α) :
    Grants × Option α :=
  let result := statement s.rows
  match answer.write with
  | .done => ({ s with rows := result.1 }, some result.2)
  | .failedAfter => ({ s with rows := result.1 }, none)
  | .failedBefore => (s, none)

/-- `readCredentialState`: `none` where it throws, and `some none` where there is no row of that
provider. The row's schema needs a non-empty owner. -/
def Grants.readCredentialState (s : Grants) (answer : Answer) (provider : ModelProviderId) :
    Option (Option ProviderCredentialState) :=
  let row := s.rows.credential
  if answer.write ≠ .done then none
  else if s.rows.account.provider ≠ provider then some none
  else if row.lease.any fun lease => lease.owner = [] then none
  else
    some (some
      { payload := row.encryptedPayload.payload
        credentialSchemaVersion := row.credentialSchemaVersion
        credentialVersion := row.credentialVersion
        exchangeGeneration := row.exchangeGeneration
        lease := row.lease })

/-- `getById`: `none` where it throws. The account is never deleted. -/
def Grants.getById (s : Grants) (answer : Answer) : Option ModelProviderAccount :=
  if answer.write = .done then some s.rows.account else none

/-! ## The exchange -/

/-- What `complete` writes. -/
inductive Completion where
  /-- The broker stores the credential. -/
  | credential
  /-- A verification stores it with the account. -/
  | credentialAndAccount
  deriving DecidableEq, Repr

structure ExchangeRequest where
  account : ModelProviderAccount
  state : ProviderCredentialState
  adapter : ModelProviderAccountAdapter
  owner : Text
  refreshDeadlineAt : Option Millis := none
  completion : Completion

inductive ExchangePhase where
  | parse
  | refresh
  /-- The result could not be stored, or was of another identity. -/
  | completion (rejected : Bool)
  deriving DecidableEq, Repr

inductive TerminalFence where
  | notAttempted
  | committed
  | lost
  deriving DecidableEq, Repr

/-- The await that a call is at. -/
inductive ExchangeStage where
  | beginning
  /-- The lease was taken; the code has not run on yet. -/
  | claimed (generation : Nat)
  | refreshing (generation : Nat)
  | clearing (generation : Nat) (phase : ExchangePhase)
  | completing (generation : Nat) (write : CredentialWrite) (refreshed : ProviderRefreshResult)
  | failing (generation : Nat) (phase : ExchangePhase)
  deriving DecidableEq, Repr

inductive ExchangeEnd where
  | claimUnavailable
  | completed (refreshed : ProviderRefreshResult)
  /-- `ClaimedProviderCredentialExchangeError`; a failed refresh is retry safe or not. -/
  | failed (phase : ExchangePhase) (retrySafe : Bool) (terminalFence : TerminalFence)
  /-- An error of the database. -/
  | threw
  deriving DecidableEq, Repr

/-- The next await of a call, or its end. -/
inductive Next (stage result : Type) where
  | await (stage : stage)
  | done (result : result)
  deriving DecidableEq, Repr

/-- The await that a call goes on to. -/
def Next.stage? {stage result : Type} : Next stage result → Option stage
  | .await stage => some stage
  | .done _ => none

namespace ExchangeRequest

def claim (request : ExchangeRequest) (generation : Nat) : Claim where
  credentialVersion := request.state.credentialVersion
  exchangeGeneration := generation
  exchangeOwner := request.owner

/-- Both callers expect the account to be active. -/
def expectedAccountStatus (_ : ExchangeRequest) : ModelProviderAccountStatus := .active

/-- The write of a refreshed credential. -/
def write (request : ExchangeRequest) (refreshed : ProviderRefreshResult) (nonce : Nat)
    (now : Millis) : CredentialWrite where
  provider := request.account.provider
  credentialSchemaVersion := request.adapter.credentialSchemaVersion
  encryptedPayload := { payload := refreshed.credential, nonce }
  accessTokenExpiresAt := some refreshed.accessTokenExpiresAt
  now

/-- The statements of `complete`. -/
def complete (request : ExchangeRequest) (generation : Nat) (write : CredentialWrite)
    (refreshed : ProviderRefreshResult) (rows : Rows) : Rows × Bool :=
  match request.completion with
  | .credential =>
    rows.completeExchange write (request.claim generation) request.expectedAccountStatus
  | .credentialAndAccount =>
    rows.completeVerificationCredentialAndAccount write (request.claim generation)
      request.expectedAccountStatus
      (refreshed.externalAccountId.or request.account.externalAccountId)

/-- One await of `run`. -/
def next (request : ExchangeRequest) (answer : Answer) (s : Grants) :
    ExchangeStage → Grants × Next ExchangeStage ExchangeEnd
  | .beginning =>
    let (s, claim) := s.execute answer (·.tryBeginExchange request.state.credentialVersion
      request.owner request.expectedAccountStatus answer.now)
    match claim with
    | some (some generation) => (s, .await (.claimed generation))
    | some none => (s, .done .claimUnavailable)
    | none => (s, .done .threw)
  | .claimed generation =>
    match request.adapter.parseCredential request.state.payload
        request.state.credentialSchemaVersion with
    | none => (s, .await (.clearing generation .parse))
    | some _ =>
      if request.refreshDeadlineAt.any fun deadline => deadline ≤ answer.now then
        (s, .await (.clearing generation .refresh))
      else
        -- the provider is called with the credential
        ({ s with submitted := request.state.credentialVersion :: s.submitted },
          .await (.refreshing generation))
  | .refreshing generation =>
    match answer.refresh with
    | .error (some .retrySafe) =>
      ({ s with submitted := s.submitted.erase request.state.credentialVersion },
        .await (.clearing generation .refresh))
    | .error _ => (s, .await (.failing generation .refresh))
    | .ok refreshed =>
      if request.adapter.validateExternalIdentity refreshed.externalAccountId
          request.account.externalAccountId then
        (s.encrypted, .await (.completing generation
          (request.write refreshed s.encryptions answer.now) refreshed))
      else (s, .await (.failing generation (.completion true)))
  | .clearing generation phase =>
    let (s, _) := s.execute answer (·.clearSafeFailure (request.claim generation) answer.now)
    (s, .done (.failed phase true .notAttempted))
  | .completing generation write refreshed =>
    let (s, completed) := s.execute answer (request.complete generation write refreshed)
    if completed = some true then (s, .done (.completed refreshed))
    else (s, .await (.failing generation (.completion false)))
  | .failing generation phase =>
    let (s, fenced) := s.execute answer
      (·.fenceExchangeAndRequireReconnect (request.claim generation) answer.now)
    (s, .done (.failed phase false (if fenced = some true then .committed else .lost)))

end ExchangeRequest

end BackgroundAgents.ProviderAccounts

import BackgroundAgents.Session.Types
import Mathlib.Data.List.Basic

/-!
# A provider account and its credential

An account of a model provider is two rows: `model_provider_accounts` with its
status, and `model_provider_account_credentials` with the stored grant. The
grant rotates, so that it can be exchanged once: whoever exchanges it holds the
lease of the row meanwhile, and stores the new grant under the next version.

Each function here is one statement, or one batch, on the two rows of an
account (`Rows`), and returns what the caller reads off its result. A statement
whose guard fails changes nothing. The columns that no modelled function reads
are left out. The three columns of the lease are null together or not at all
(a `CHECK` of the table), so they are one optional `ExchangeLease`.
-/

namespace BackgroundAgents.ProviderAccounts

export Session (Millis)

/-- A SQL `TEXT`. -/
abbrev Text := List Char

inductive ModelProviderId where
  | openai
  | xai
  | anthropic
  deriving DecidableEq, Repr

inductive ModelProviderAccountStatus where
  | active
  | disabled
  | reconnectRequired
  deriving DecidableEq, Repr

/-- A row of `model_provider_accounts`. -/
structure ModelProviderAccount where
  provider : ModelProviderId
  externalAccountId : Option Text := none
  status : ModelProviderAccountStatus
  archivedAt : Option Millis := none
  lifecycleVersion : Nat := 0
  deriving DecidableEq, Repr

/-- A payload under a key and the random nonce of its encryption. -/
structure EncryptedPayload where
  payload : Text
  nonce : Nat
  deriving DecidableEq, Repr

structure ExchangeLease where
  owner : Text
  startedAt : Millis
  deriving DecidableEq, Repr

/-- A row of `model_provider_account_credentials`; with a lease its state is `in_flight`. -/
structure CredentialRow where
  encryptedPayload : EncryptedPayload
  credentialSchemaVersion : Nat
  credentialVersion : Nat := 1
  exchangeGeneration : Nat := 0
  lease : Option ExchangeLease := none
  accessTokenExpiresAt : Option Millis := none
  updatedAt : Millis
  deriving DecidableEq, Repr

/-- The rows of one account. -/
structure Rows where
  account : ModelProviderAccount
  credential : CredentialRow
  deriving DecidableEq, Repr

/-- What a credential is stored with. -/
structure CredentialWrite where
  provider : ModelProviderId
  credentialSchemaVersion : Nat
  encryptedPayload : EncryptedPayload
  accessTokenExpiresAt : Option Millis
  now : Millis
  deriving DecidableEq, Repr

/-- The exchange that a write names. -/
structure Claim where
  credentialVersion : Nat
  exchangeGeneration : Nat
  exchangeOwner : Text
  deriving DecidableEq, Repr

/-! ## Lifecycle -/

inductive ProviderAccountOperation where
  | activeUse
  | reconnect
  deriving DecidableEq, Repr

inductive ProviderAccountIneligibility where
  | archived
  | disabled
  | reconnectRequired
  deriving DecidableEq, Repr

/-- Runtime access and verification require an active account; reconnect accepts any
non-archived one. -/
def providerAccountIneligibility (account : ModelProviderAccount)
    (operation : ProviderAccountOperation) : Option ProviderAccountIneligibility :=
  if account.archivedAt.isSome then some .archived
  else if operation = .reconnect then none
  else
    match account.status with
    | .active => none
    | .disabled => some .disabled
    | .reconnectRequired => some .reconnectRequired

/-! ## Statements on the credential -/

namespace CredentialRow

/-- The columns of a new credential: the next version, without a lease. -/
def store (row : CredentialRow) (write : CredentialWrite) : CredentialRow :=
  { row with
    encryptedPayload := write.encryptedPayload
    credentialSchemaVersion := write.credentialSchemaVersion
    credentialVersion := row.credentialVersion + 1
    lease := none
    accessTokenExpiresAt := write.accessTokenExpiresAt
    updatedAt := write.now }

/-- The guard of every write that names an exchange. -/
def holds (row : CredentialRow) (claim : Claim) : Bool :=
  row.credentialVersion = claim.credentialVersion
    && row.exchangeGeneration = claim.exchangeGeneration
    && row.lease.any fun lease => lease.owner = claim.exchangeOwner

end CredentialRow

namespace Rows

/-- `prepareReplace`: a reconnect stores a new credential over the version it read. -/
def replace (rows : Rows) (write : CredentialWrite) (expectedCredentialVersion : Nat) :
    Rows × Bool :=
  if rows.credential.credentialVersion = expectedCredentialVersion
      ∧ rows.account.provider = write.provider ∧ rows.account.archivedAt = none then
    ({ rows with credential := rows.credential.store write }, true)
  else (rows, false)

/-- `tryBeginExchange`: take the lease of an idle credential, under a new generation. -/
def tryBeginExchange (rows : Rows) (expectedCredentialVersion : Nat) (exchangeOwner : Text)
    (expectedAccountStatus : ModelProviderAccountStatus) (now : Millis) : Rows × Option Nat :=
  let row := rows.credential
  if row.credentialVersion = expectedCredentialVersion ∧ row.lease = none
      ∧ rows.account.status = expectedAccountStatus ∧ rows.account.archivedAt = none then
    ({ rows with
        credential :=
          { row with
            lease := some { owner := exchangeOwner, startedAt := now }
            exchangeGeneration := row.exchangeGeneration + 1
            updatedAt := now } },
      some (row.exchangeGeneration + 1))
  else (rows, none)

/-- `completeExchange`: the holder of the lease stores the exchanged credential. -/
def completeExchange (rows : Rows) (write : CredentialWrite) (claim : Claim)
    (expectedAccountStatus : ModelProviderAccountStatus) : Rows × Bool :=
  if rows.credential.holds claim ∧ rows.account.provider = write.provider
      ∧ rows.account.status = expectedAccountStatus ∧ rows.account.archivedAt = none then
    ({ rows with credential := rows.credential.store write }, true)
  else (rows, false)

/-- `clearSafeFailure`: the holder gives the lease back. -/
def clearSafeFailure (rows : Rows) (claim : Claim) (now : Millis) : Rows × Bool :=
  if rows.credential.holds claim then
    ({ rows with credential := { rows.credential with lease := none, updatedAt := now } }, true)
  else (rows, false)

/-! ## Statements on the account -/

/-- `bindUpdateConnection`: the account of a credential that was just stored. -/
def updateConnection (rows : Rows) (externalAccountId : Option Text)
    (status : ModelProviderAccountStatus) (credentialVersion : Nat)
    (encryptedPayload : EncryptedPayload) (exchangeGeneration : Option Nat) : Rows × Bool :=
  if rows.account.archivedAt = none ∧ rows.credential.credentialVersion = credentialVersion
      ∧ rows.credential.encryptedPayload = encryptedPayload
      ∧ (exchangeGeneration.all fun generation =>
        rows.credential.exchangeGeneration = generation) = true then
    ({ rows with
        account :=
          { rows.account with
            externalAccountId
            status
            lifecycleVersion := rows.account.lifecycleVersion + 1 } },
      true)
  else (rows, false)

/-- `ModelProviderAccountStore.setStatus` -/
def setStatus (rows : Rows) (status : ModelProviderAccountStatus) : Rows × Bool :=
  if rows.account.archivedAt = none then
    ({ rows with
        account :=
          { rows.account with status, lifecycleVersion := rows.account.lifecycleVersion + 1 } },
      true)
  else (rows, false)

/-- `ModelProviderAccountStore.archive` -/
def archive (rows : Rows) (now : Millis) : Rows × Bool :=
  if rows.account.archivedAt = none then
    ({ rows with
        account :=
          { rows.account with
            archivedAt := some now
            lifecycleVersion := rows.account.lifecycleVersion + 1 } },
      true)
  else (rows, false)

/-- Fence an active account because its credential expired, only while the credential is still
the version that was inspected. -/
def requireReconnectForExpiredCredential (rows : Rows) (expectedCredentialVersion : Nat) :
    Rows × Bool :=
  if rows.account.archivedAt = none ∧ rows.account.status = .active
      ∧ rows.credential.credentialVersion = expectedCredentialVersion then
    ({ rows with
        account :=
          { rows.account with
            status := .reconnectRequired
            lifecycleVersion := rows.account.lifecycleVersion + 1 } },
      true)
  else (rows, false)

/-! ## Batches -/

/-- Two statements, and whether both changed their row. -/
def batch (rows : Rows) (first second : Rows → Rows × Bool) : Rows × Bool :=
  let one := first rows
  let two := second one.1
  (two.1, one.2 && two.2)

def reconnectCredentialAndAccount (rows : Rows) (write : CredentialWrite)
    (expectedCredentialVersion : Nat) (externalAccountId : Option Text) : Rows × Bool :=
  rows.batch (·.replace write expectedCredentialVersion)
    (·.updateConnection externalAccountId .active (expectedCredentialVersion + 1)
      write.encryptedPayload none)

def completeVerificationCredentialAndAccount (rows : Rows) (write : CredentialWrite)
    (claim : Claim) (expectedAccountStatus : ModelProviderAccountStatus)
    (externalAccountId : Option Text) : Rows × Bool :=
  rows.batch (·.completeExchange write claim expectedAccountStatus)
    (·.updateConnection externalAccountId .active (claim.credentialVersion + 1)
      write.encryptedPayload (some claim.exchangeGeneration))

/-- The first statement of a terminal fence: an active account whose exchange is the one named
requires reconnection. -/
def fenceAccount (rows : Rows) (claim : Claim) : Rows × Bool :=
  if rows.account.archivedAt = none ∧ rows.account.status = .active
      ∧ rows.credential.holds claim then
    ({ rows with account := { rows.account with status := .reconnectRequired } }, true)
  else (rows, false)

/-- The second one: the lease ends, and its generation with it. -/
def fenceCredential (rows : Rows) (claim : Claim) (now : Millis) : Rows × Bool :=
  if rows.credential.holds claim ∧ rows.account.status = .reconnectRequired
      ∧ rows.account.archivedAt = none then
    ({ rows with
        credential :=
          { rows.credential with
            lease := none
            exchangeGeneration := rows.credential.exchangeGeneration + 1
            updatedAt := now } },
      true)
  else (rows, false)

def fenceExchangeAndRequireReconnect (rows : Rows) (claim : Claim) (now : Millis) :
    Rows × Bool :=
  rows.batch (·.fenceAccount claim) (·.fenceCredential claim now)

/-- What a device authorization found at its target. -/
structure ReconnectTarget where
  status : ModelProviderAccountStatus
  lifecycleVersion : Nat
  credentialVersion : Nat
  deriving DecidableEq, Repr

/-- The first statement of `finalizeDeviceAuthorizationReconnect`; `guard` is whether the
authorization is still the caller's. -/
def reconnectAccount (rows : Rows) (provider : ModelProviderId) (target : ReconnectTarget)
    (expectedExternalAccountId externalAccountId : Option Text) (guard : Bool) : Rows × Bool :=
  if rows.account.provider = provider
      ∧ rows.account.externalAccountId = expectedExternalAccountId
      ∧ rows.account.archivedAt = none ∧ rows.account.status = target.status
      ∧ rows.account.lifecycleVersion = target.lifecycleVersion ∧ guard = true
      ∧ rows.credential.credentialVersion = target.credentialVersion then
    ({ rows with
        account :=
          { rows.account with
            status := .active
            externalAccountId
            lifecycleVersion := rows.account.lifecycleVersion + 1 } },
      true)
  else (rows, false)

/-- The second one, which follows the first by `changes() = 1`. -/
def reconnectCredential (rows : Rows) (write : CredentialWrite) (credentialVersion : Nat)
    (changed : Bool) : Rows × Bool :=
  if changed = true ∧ rows.credential.credentialVersion = credentialVersion then
    ({ rows with credential := rows.credential.store write }, true)
  else (rows, false)

/-- The statements of `finalizeDeviceAuthorizationReconnect` on the two rows. -/
def finalizeReconnect (rows : Rows) (write : CredentialWrite) (target : ReconnectTarget)
    (expectedExternalAccountId externalAccountId : Option Text) (guard : Bool) : Rows × Bool :=
  let account := rows.reconnectAccount write.provider target expectedExternalAccountId
    externalAccountId guard
  rows.batch (fun _ => account) (·.reconnectCredential write target.credentialVersion account.2)

end Rows

end BackgroundAgents.ProviderAccounts

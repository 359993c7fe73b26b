import BackgroundAgents.ProviderAccounts.Broker
import BackgroundAgents.Lib.Transition
import BackgroundAgents.Lib.Workers

/-!
# Operations on an account

The operations of `ModelProviderAccountService` on one account, the device
authorization that reconnects it, and the expiry of a stored secret, each as
the stages between its awaits. `grantSystem` lets any number of calls of them,
and of the broker, run in any order: a step starts a call, answers the await
that a call is at, or loses a call in a crash.
-/

namespace BackgroundAgents.ProviderAccounts

open Transition

inductive ServiceError where
  | notActive
  | providerUnavailable
  | providerMismatch
  | verificationUnsupported
  | credentialNotFound
  | verificationInProgress
  | credentialInvalid
  | failedSafely
  | requiresReconnection
  | identityMismatch
  | invalidConnectInput
  | lostClaim
  | consumedCredential
  | accountNotFound
  | targetChanged
  | claimLost
  | threw
  deriving DecidableEq, Repr

/-- The HTTP status of an error, where it has one. -/
def ServiceError.status : ServiceError → Option Nat
  | providerMismatch | invalidConnectInput => some 400
  | accountNotFound => some 404
  | failedSafely => some 502
  | threw | targetChanged | claimLost => none
  | _ => some 409

/-! ## Verification -/

structure Verify where
  registry : ModelProviderId → Option ModelProviderAccountAdapter

inductive VerifyStage where
  | account
  | credentialState (account : ModelProviderAccount) (adapter : ModelProviderAccountAdapter)
  | exchanging (exchange : ExchangeRequest) (stage : ExchangeStage)
  | reconcileAccount (exchange : ExchangeRequest)
  | reconcileState (exchange : ExchangeRequest) (account : ModelProviderAccount)
  | result

abbrev ServiceNext (stage : Type) := Next stage (Except ServiceError ModelProviderAccount)

namespace Verify

def afterExchange (exchange : ExchangeRequest) : ExchangeEnd → ServiceNext VerifyStage
  | .claimUnavailable => .done (.error .verificationInProgress)
  | .completed _ => .await .result
  | .failed _ _ .lost => .await (.reconcileAccount exchange)
  | .failed .parse _ _ => .done (.error .credentialInvalid)
  | .failed .refresh true _ => .done (.error .failedSafely)
  | .failed .refresh false _ => .done (.error .requiresReconnection)
  | .failed (.completion rejected) _ _ =>
    .done (.error (if rejected then .identityMismatch else .consumedCredential))
  | .threw => .done (.error .threw)

/-- One await of `verify`. -/
def next (call : Verify) (answer : Answer) (s : Grants) :
    VerifyStage → Grants × ServiceNext VerifyStage
  | .account =>
    (s,
      match s.getById answer with
      | none => .done (.error .threw)
      | some account =>
        if (providerAccountIneligibility account .activeUse).isSome then
          .done (.error .notActive)
        else
          match call.registry account.provider with
          | none => .done (.error .providerUnavailable)
          | some adapter =>
            if adapter.supportsVerification then .await (.credentialState account adapter)
            else .done (.error .verificationUnsupported))
  | .credentialState account adapter =>
    (s,
      match s.readCredentialState answer account.provider with
      | none => .done (.error .threw)
      | some none => .done (.error .credentialNotFound)
      | some (some state) =>
        if state.lease.isSome then .done (.error .verificationInProgress)
        else
          .await (.exchanging
            { account, state, adapter, owner := answer.owner, completion := .credentialAndAccount }
            .beginning))
  | .exchanging exchange stage =>
    let (s, next) := exchange.next answer s stage
    (s,
      match next with
      | .await stage => .await (.exchanging exchange stage)
      | .done result => afterExchange exchange result)
  | .reconcileAccount exchange =>
    (s,
      match s.getById answer with
      | none => .done (.error .threw)
      | some account =>
        match providerAccountIneligibility account .activeUse with
        | some .reconnectRequired => .done (.error .requiresReconnection)
        | some _ => .done (.error .notActive)
        | none => .await (.reconcileState exchange account))
  | .reconcileState exchange account =>
    (s,
      match s.readCredentialState answer account.provider with
      | none => .done (.error .threw)
      | some none => .done (.error .credentialNotFound)
      | some (some state) =>
        if state.credentialVersion ≠ exchange.state.credentialVersion then .done (.ok account)
        else .done (.error .lostClaim))
  | .result =>
    (s,
      match s.getById answer with
      | none => .done (.error .threw)
      | some account => .done (.ok account))

end Verify

/-! ## Status -/

/-- The statuses that an operator may set. -/
inductive SetStatus where
  | active
  | disabled
  deriving DecidableEq, Repr

def SetStatus.status : SetStatus → ModelProviderAccountStatus
  | active => .active
  | disabled => .disabled

inductive SetStatusStage where
  | account
  | writing
  | result
  deriving DecidableEq, Repr

/-- One await of `setStatus`. A default account that is disabled fails by a trigger, which
executes nothing. -/
def SetStatus.next (status : SetStatus) (answer : Answer) (s : Grants) :
    SetStatusStage → Grants × ServiceNext SetStatusStage
  | .account =>
    (s,
      match s.getById answer with
      | none => .done (.error .threw)
      | some account =>
        if account.status = status.status then .done (.ok account)
        else if status = .active ∧ account.status ≠ .disabled then
          .done (.error .requiresReconnection)
        else .await .writing)
  | .writing =>
    let (s, changed) := s.execute answer (·.setStatus status.status)
    (s,
      match changed with
      | none => .done (.error .threw)
      | some false => .done (.error .accountNotFound)
      | some true => .await .result)
  | .result =>
    (s,
      match s.getById answer with
      | none => .done (.error .threw)
      | some account => .done (.ok account))

/-! ## Reconnection -/

structure Reconnect where
  registry : ModelProviderId → Option ModelProviderAccountAdapter
  provider : ModelProviderId
  /-- The parsed input. -/
  input : Text

inductive ReconnectStage where
  | account
  | connecting (account : ModelProviderAccount) (adapter : ModelProviderAccountAdapter)
  | credentialState (account : ModelProviderAccount) (adapter : ModelProviderAccountAdapter)
    (connected : ProviderConnectionResult)
  | writing (write : CredentialWrite) (expectedCredentialVersion : Nat)
    (externalAccountId : Option Text)
  | result

/-- The write of a connected credential. -/
def ProviderConnectionResult.write (connected : ProviderConnectionResult)
    (provider : ModelProviderId) (adapter : ModelProviderAccountAdapter) (nonce : Nat)
    (now : Millis) : CredentialWrite where
  provider
  credentialSchemaVersion := adapter.credentialSchemaVersion
  encryptedPayload := { payload := connected.credential, nonce }
  accessTokenExpiresAt := connected.accessTokenExpiresAt
  now

/-- One await of `reconnect`. -/
def Reconnect.next (call : Reconnect) (answer : Answer) (s : Grants) :
    ReconnectStage → Grants × ServiceNext ReconnectStage
  | .account =>
    (s,
      match s.getById answer with
      | none => .done (.error .threw)
      | some account =>
        if (providerAccountIneligibility account .reconnect).isSome then
          .done (.error .notActive)
        else if account.provider ≠ call.provider then .done (.error .providerMismatch)
        else
          match call.registry account.provider with
          | none => .done (.error .providerUnavailable)
          | some adapter =>
            if adapter.validateReconnectInputIdentity call.input account.externalAccountId then
              .await (.connecting account adapter)
            else .done (.error .identityMismatch))
  | .connecting account adapter =>
    (s,
      match answer.connection with
      | none => .done (.error .invalidConnectInput)
      | some connected =>
        if adapter.validateExternalIdentity connected.externalAccountId
            account.externalAccountId then
          .await (.credentialState account adapter connected)
        else .done (.error .identityMismatch))
  | .credentialState account adapter connected =>
    match s.readCredentialState answer account.provider with
    | none => (s, .done (.error .threw))
    | some none => (s, .done (.error .consumedCredential))
    | some (some state) =>
      (s.encrypted,
        .await (.writing (connected.write account.provider adapter s.encryptions answer.now)
          state.credentialVersion (connected.externalAccountId.or account.externalAccountId)))
  | .writing write expectedCredentialVersion externalAccountId =>
    let (s, replaced) := s.execute answer
      (·.reconnectCredentialAndAccount write expectedCredentialVersion externalAccountId)
    (s,
      match replaced with
      | some true => .await .result
      | _ => .done (.error .consumedCredential))
  | .result =>
    (s,
      match s.getById answer with
      | none => .done (.error .threw)
      | some account => .done (.ok account))

/-- An authorization that its user completed at the provider, with the account it is for: the
target it was started for, or one that holds its identity. -/
structure FinalizeReconnect where
  provider : ModelProviderId
  /-- The target's status and lifecycle version when the authorization was started, if it was
  started for this account; else it creates an account. -/
  target : Option (ModelProviderAccountStatus × Nat)
  expectedExternalAccountId : Option Text
  externalAccountId : Option Text
  adapter : ModelProviderAccountAdapter
  connected : ProviderConnectionResult

inductive FinalizeReconnectStage where
  | owned
  | snapshot
  | credentialState (account : ModelProviderAccount)
  | writing (account : ModelProviderAccount) (write : CredentialWrite) (credentialVersion : Nat)
  | lost

namespace FinalizeReconnect

/-- Whether the target is no longer the one that the authorization may reconnect. -/
def changed (call : FinalizeReconnect) (account : ModelProviderAccount) : Bool :=
  account.archivedAt.isSome || account.provider ≠ call.provider
    || account.externalAccountId ≠ call.expectedExternalAccountId
    || match call.target with
      | none => account.status = .disabled
      | some (status, lifecycleVersion) =>
        status ≠ account.status || lifecycleVersion ≠ account.lifecycleVersion

/-- One await of `finalizeDeviceAuthorizationReconnect`. -/
def next (call : FinalizeReconnect) (answer : Answer) (s : Grants) :
    FinalizeReconnectStage → Grants × ServiceNext FinalizeReconnectStage
  | .owned =>
    (s,
      if answer.write ≠ .done then .done (.error .threw)
      else if answer.authorized then .await .snapshot
      else .done (.error .claimLost))
  | .snapshot =>
    (s,
      match s.getById answer with
      | none => .done (.error .threw)
      | some account =>
        if call.changed account then .done (.error .targetChanged)
        else .await (.credentialState account))
  | .credentialState account =>
    match s.readCredentialState answer call.provider with
    | none => (s, .done (.error .threw))
    | some none => (s, .done (.error .targetChanged))
    | some (some state) =>
      (s.encrypted,
        .await (.writing account
          (call.connected.write call.provider call.adapter s.encryptions answer.now)
          state.credentialVersion))
  | .writing account write credentialVersion =>
    let target : Rows.ReconnectTarget :=
      { status := account.status
        lifecycleVersion := account.lifecycleVersion
        credentialVersion }
    let (s, connected) := s.execute answer (·.finalizeReconnect write target
      call.expectedExternalAccountId call.externalAccountId answer.authorized)
    (s,
      match connected with
      | none => .done (.error .threw)
      | some true => .done (.ok account)
      | some false => .await .lost)
  | .lost =>
    (s,
      if answer.write ≠ .done then .done (.error .threw)
      else if answer.authorized then .done (.error .targetChanged)
      else .done (.error .claimLost))

end FinalizeReconnect

/-! ## The system -/

/-- A call in progress, at one of its awaits. -/
inductive Call where
  | getAccess (call : GetAccess) (stage : GetAccessStage)
  | verify (call : Verify) (stage : VerifyStage)
  | setStatus (status : SetStatus) (stage : SetStatusStage)
  | archive
  | reconnect (call : Reconnect) (stage : ReconnectStage)
  | finalizeReconnect (call : FinalizeReconnect) (stage : FinalizeReconnectStage)
  /-- A request found a stored secret of this version expired. -/
  | requireReconnect (expectedCredentialVersion : Nat)

/-- The await of a call takes effect: the rows then, and the call unless it ended. -/
def Call.next (answer : Answer) (s : Grants) : Call → Grants × Option Call
  | .getAccess call stage =>
    let (s, next) := call.next answer s stage
    (s, next.stage?.map (.getAccess call))
  | .verify call stage =>
    let (s, next) := call.next answer s stage
    (s, next.stage?.map (.verify call))
  | .setStatus status stage =>
    let (s, next) := status.next answer s stage
    (s, next.stage?.map (.setStatus status))
  | .archive => ((s.execute answer (·.archive answer.now)).1, none)
  | .reconnect call stage =>
    let (s, next) := call.next answer s stage
    (s, next.stage?.map (.reconnect call))
  | .finalizeReconnect call stage =>
    let (s, next) := call.next answer s stage
    (s, next.stage?.map (.finalizeReconnect call))
  | .requireReconnect version =>
    ((s.execute answer (·.requireReconnectForExpiredCredential version)).1, none)

structure GrantState where
  grants : Grants
  calls : List Call

inductive GrantAct where
  | getAccess (call : GetAccess) (answer : Answer)
  | verify (call : Verify)
  | setStatus (status : SetStatus)
  | archive
  | reconnect (call : Reconnect)
  /-- A connection for a new account turned out to be of this one. -/
  | connectExisting (call : Reconnect) (account : ModelProviderAccount)
    (adapter : ModelProviderAccountAdapter) (connected : ProviderConnectionResult)
  | finalizeReconnect (call : FinalizeReconnect)
  | requireReconnect (expectedCredentialVersion : Nat)
  /-- The await of a call takes effect. -/
  | go (i : Nat) (answer : Answer)
  | crash (i : Nat)

/-- The call that an act starts. -/
def GrantAct.started : GrantAct → Option Call
  | getAccess call answer => (call.start answer).stage?.map (.getAccess call)
  | verify call => some (.verify call .account)
  | setStatus status => some (.setStatus status .account)
  | archive => some .archive
  | reconnect call => some (.reconnect call .account)
  | connectExisting call account adapter connected =>
    some (.reconnect call (.credentialState account adapter connected))
  | finalizeReconnect call => some (.finalizeReconnect call .owned)
  | requireReconnect version => some (.requireReconnect version)
  | go _ _ => none
  | crash _ => none

def grantSystem : System GrantState GrantAct where
  step s act :=
    match act with
    | .go i answer =>
      s.calls[i]?.map fun call =>
        let (grants, next) := call.next answer s.grants
        { grants, calls := advance s.calls i next }
    | .crash i => if i < s.calls.length then some { s with calls := s.calls.eraseIdx i } else none
    | act => act.started.map fun call => { s with calls := s.calls ++ [call] }

/-- An account with a credential that no one is exchanging. -/
def idleAccount (rows : Rows) : GrantState where
  grants :=
    { rows := { rows with credential := { rows.credential with lease := none } }
      encryptions := rows.credential.encryptedPayload.nonce + 1 }
  calls := []

end BackgroundAgents.ProviderAccounts

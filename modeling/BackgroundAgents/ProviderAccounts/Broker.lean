import BackgroundAgents.ProviderAccounts.Exchange

/-!
# The broker

`ModelProviderAccountBroker.getAccess` returns the access token of an account,
from its stored credential while that is fresh and otherwise by an exchange.
The lease in the row is the only coalescing of concurrent callers: a caller
that finds it taken polls until it has ended, and fences it when it is stale.

The code between two awaits is one branch of `GetAccess.next`. The polling loop
is `loop`, which each turn leaves by an await, by a result or by an error.
-/

namespace BackgroundAgents.ProviderAccounts

structure ProviderAccess where
  accessToken : Text
  credentialVersion : Nat
  expiresAt : Millis
  /-- In seconds. -/
  expiresIn : Nat
  externalAccountId : Option Text
  providerMetadata : List (Text × Text)
  deriving DecidableEq, Repr

inductive BrokerError where
  | accountInactive
  | accountArchived
  | providerMismatch
  | providerUnavailable
  | credentialNotFound
  | credentialInvalid
  | exchangeBusy
  | deadlineExceeded
  | reconnectRequired
  | upstreamRetrySafe
  /-- An error of the database, or of a row that cannot be read. -/
  | threw
  deriving DecidableEq, Repr

structure BrokerOptions where
  exchangeTimeoutMs : Millis := 15000
  maxPollAttempts : Nat := 151

structure ProviderAccessRequest where
  rejectedCredentialVersion : Option Nat := none
  deadlineAt : Option Millis := none
  deriving DecidableEq, Repr

/-- A call of `getAccess`. -/
structure GetAccess where
  options : BrokerOptions
  registry : ModelProviderId → Option ModelProviderAccountAdapter
  expectedProvider : ModelProviderId
  request : ProviderAccessRequest

/-- A turn of the polling loop. -/
structure PollTurn where
  attempt : Nat
  account : ModelProviderAccount
  adapter : ModelProviderAccountAdapter
  state : ProviderCredentialState
  waited : Bool

/-- The await that a call is at. -/
inductive GetAccessStage where
  | usableAccount
  | credentialState (account : ModelProviderAccount) (adapter : ModelProviderAccountAdapter)
  | currentEligibility (turn : PollTurn) (credential : Text) (cached : CachedProviderAccess)
  | touchLastUsed (account : ModelProviderAccount) (adapter : ModelProviderAccountAdapter)
    (credential : Text) (cached : CachedProviderAccess) (credentialVersion : Nat)
  | sleeping (turn : PollTurn)
  | polling (turn : PollTurn)
  | fencing (turn : PollTurn)
  | reconcileAccount (turn : PollTurn) (fenceError : Bool)
  | reconcileState (turn : PollTurn) (account : ModelProviderAccount) (fenceError : Bool)
  | exchanging (turn : PollTurn) (exchange : ExchangeRequest) (stage : ExchangeStage)
  | reread (turn : PollTurn)

abbrev GetAccessNext := Next GetAccessStage (Except BrokerError ProviderAccess)

/-- The error of an account that may not be used. -/
def BrokerError.ofIneligibility : ProviderAccountIneligibility → BrokerError
  | .archived => accountArchived
  | .disabled => accountInactive
  | .reconnectRequired => reconnectRequired

namespace GetAccess

variable (call : GetAccess)

def fail (code : BrokerError) : GetAccessNext := .done (.error code)

/-- `requireBudget` -/
def overBudget (now : Millis) : Bool :=
  call.request.deadlineAt.any fun deadline => deadline ≤ now

def toAccess (account : ModelProviderAccount) (adapter : ModelProviderAccountAdapter)
    (credential : Text) (cached : CachedProviderAccess) (credentialVersion : Nat)
    (now : Millis) : ProviderAccess where
  accessToken := cached.accessToken
  credentialVersion
  expiresAt := cached.accessTokenExpiresAt
  expiresIn := (cached.accessTokenExpiresAt - now) / 1000
  externalAccountId := account.externalAccountId
  providerMetadata := adapter.runtimeMetadata credential account.externalAccountId

/-- What `getAccess` does with the access it resolved. -/
def deliver (access : ProviderAccess) (now : Millis) : GetAccessNext :=
  if call.overBudget now then fail .deadlineExceeded else .done (.ok access)

/-- The cached access of an idle credential that was not rejected and is not about to expire. -/
def usable (adapter : ModelProviderAccountAdapter) (state : ProviderCredentialState)
    (credential : Text) (now : Millis) : Option CachedProviderAccess :=
  if state.lease = none ∧ some state.credentialVersion ≠ call.request.rejectedCredentialVersion then
    (adapter.cachedAccess credential).filter fun cached =>
      now + adapter.refreshBufferMs < cached.accessTokenExpiresAt
  else none

/-- The start of the loop's body, up to its first await. -/
def loop (turn : PollTurn) (answer : Answer) : GetAccessNext :=
  if call.options.maxPollAttempts ≤ turn.attempt then fail .exchangeBusy
  else if call.overBudget answer.now then fail .deadlineExceeded
  else
    match turn.adapter.parseCredential turn.state.payload turn.state.credentialSchemaVersion with
    | none => fail .credentialInvalid
    | some credential =>
      match call.usable turn.adapter turn.state credential answer.now with
      | some cached =>
        if turn.waited then .await (.currentEligibility turn credential cached)
        else
          .await (.touchLastUsed turn.account turn.adapter credential cached
            turn.state.credentialVersion)
      | none =>
        match turn.state.lease with
        | some lease =>
          if lease.startedAt + call.options.exchangeTimeoutMs ≤ answer.now then
            .await (.fencing turn)
          else .await (.sleeping turn)
        | none =>
          .await (.exchanging turn
            { account := turn.account
              state := turn.state
              adapter := turn.adapter
              owner := answer.owner
              refreshDeadlineAt := call.request.deadlineAt
              completion := .credential }
            .beginning)

def accessFromConcurrentUpdate (account : ModelProviderAccount)
    (adapter : ModelProviderAccountAdapter) (state : ProviderCredentialState)
    (now : Millis) : GetAccessNext :=
  match adapter.parseCredential state.payload state.credentialSchemaVersion with
  | none => fail .credentialInvalid
  | some credential =>
    match adapter.cachedAccess credential with
    | some cached =>
      if cached.accessTokenExpiresAt ≤ now + adapter.refreshBufferMs then fail .reconnectRequired
      else call.deliver (toAccess account adapter credential cached state.credentialVersion now) now
    | none => fail .reconnectRequired

/-- What follows the end of an exchange. -/
def afterExchange (turn : PollTurn) (exchange : ExchangeRequest) :
    ExchangeEnd → GetAccessNext
  | .claimUnavailable => .await (.sleeping turn)
  | .completed refreshed =>
    .await (.touchLastUsed turn.account turn.adapter refreshed.credential
      { accessToken := refreshed.accessToken
        accessTokenExpiresAt := refreshed.accessTokenExpiresAt }
      (exchange.state.credentialVersion + 1))
  | .failed .parse _ _ => fail .credentialInvalid
  | .failed .refresh true _ => fail .upstreamRetrySafe
  | .failed _ _ .lost => .await (.reconcileAccount turn false)
  | .failed _ _ _ => .await (.reread turn)
  | .threw => fail .threw

/-- The account and its state at `expectedProvider`, or why it is refused. -/
def requireUsable (account : ModelProviderAccount) : Option BrokerError :=
  if account.provider ≠ call.expectedProvider then some .providerMismatch
  else
    match providerAccountIneligibility account .activeUse with
    | some .archived => some .accountArchived
    | some _ => some .accountInactive
    | none => none

/-- `requireCurrentEligibility` -/
def requireCurrent (previous account : ModelProviderAccount) : Option BrokerError :=
  if account.provider ≠ previous.provider then some .providerMismatch
  else (providerAccountIneligibility account .activeUse).map BrokerError.ofIneligibility

/-- `readState`: an unreadable row throws, and a missing one is an error of its own. -/
def readState (s : Grants) (answer : Answer) (provider : ModelProviderId) :
    Except BrokerError ProviderCredentialState :=
  match s.readCredentialState answer provider with
  | some (some state) => .ok state
  | some none => .error .credentialNotFound
  | none => .error .threw

/-- The code behind the first two reads. -/
def afterState (account : ModelProviderAccount) (adapter : ModelProviderAccountAdapter)
    (state : ProviderCredentialState) (answer : Answer) : GetAccessNext :=
  if call.overBudget answer.now then fail .deadlineExceeded
  else if call.request.rejectedCredentialVersion.any fun rejected =>
      state.credentialVersion < rejected then
    fail .credentialInvalid
  else
    match adapter.parseCredential state.payload state.credentialSchemaVersion with
    | none => fail .credentialInvalid
    | some credential =>
      match call.usable adapter state credential answer.now with
      | some cached =>
        .await (.touchLastUsed account adapter credential cached state.credentialVersion)
      | none => call.loop { attempt := 0, account, adapter, state, waited := false } answer

/-- The code up to the first await. -/
def start (answer : Answer) : GetAccessNext :=
  if call.overBudget answer.now then fail .deadlineExceeded else .await .usableAccount

/-- One await of `getAccess`. -/
def next (answer : Answer) (s : Grants) : GetAccessStage → Grants × GetAccessNext
  | .usableAccount =>
    (s,
      match s.getById answer with
      | none => fail .threw
      | some account =>
        match call.requireUsable account with
        | some code => fail code
        | none =>
          match call.registry call.expectedProvider with
          | none => fail .providerUnavailable
          | some adapter => .await (.credentialState account adapter))
  | .credentialState account adapter =>
    (s,
      match readState s answer call.expectedProvider with
      | .error code => fail code
      | .ok state => call.afterState account adapter state answer)
  | .currentEligibility turn credential cached =>
    (s,
      match s.getById answer with
      | none => fail .threw
      | some account =>
        match requireCurrent turn.account account with
        | some code => fail code
        | none =>
          .await (.touchLastUsed account turn.adapter credential cached
            turn.state.credentialVersion))
  | .touchLastUsed account adapter credential cached credentialVersion =>
    (s, call.deliver (toAccess account adapter credential cached credentialVersion answer.now)
      answer.now)
  | .sleeping turn => (s, .await (.polling turn))
  | .polling turn =>
    (s,
      match readState s answer turn.account.provider with
      | .error code => fail code
      | .ok state =>
        call.loop { turn with attempt := turn.attempt + 1, state, waited := true } answer)
  | .fencing turn =>
    let claim : Claim :=
      { credentialVersion := turn.state.credentialVersion
        exchangeGeneration := turn.state.exchangeGeneration
        exchangeOwner := (turn.state.lease.map (·.owner)).getD [] }
    let (s, fenced) := s.execute answer (·.fenceExchangeAndRequireReconnect claim answer.now)
    (s,
      match fenced with
      | some true => fail .reconnectRequired
      | some false => .await (.reconcileAccount turn false)
      | none => .await (.reconcileAccount turn true))
  | .reconcileAccount turn fenceError =>
    (s,
      match s.getById answer with
      | none => fail .threw
      | some account =>
        match requireCurrent turn.account account with
        | some code => fail code
        | none => .await (.reconcileState turn account fenceError))
  | .reconcileState turn account fenceError =>
    (s,
      match readState s answer account.provider with
      | .error code => fail code
      | .ok state =>
        if state.credentialVersion ≠ turn.state.credentialVersion then
          call.accessFromConcurrentUpdate account turn.adapter state answer.now
        else if fenceError then fail .threw
        else fail .exchangeBusy)
  | .exchanging turn exchange stage =>
    let (s, next) := exchange.next answer s stage
    (s,
      match next with
      | .await stage => .await (.exchanging turn exchange stage)
      | .done result => afterExchange turn exchange result)
  | .reread turn =>
    (s,
      match readState s answer turn.account.provider with
      | .error code => fail code
      | .ok state =>
        if state.credentialVersion ≠ turn.state.credentialVersion then
          call.accessFromConcurrentUpdate turn.account turn.adapter state answer.now
        else fail .reconnectRequired)

end GetAccess

end BackgroundAgents.ProviderAccounts

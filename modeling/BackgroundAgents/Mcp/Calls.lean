import BackgroundAgents.Mcp.Connections
import BackgroundAgents.Lib.Transition
import BackgroundAgents.Lib.Workers

/-!
# Consents, callbacks and credential calls

`McpOAuthService.start`, `callback` and `credential`, one statement or one token
request at a time, with any number of each under way. A statement may fail, with
or without having taken effect; a call may crash wherever it waits. `History`
remembers what happened, for the statements about runs only: no call reads it.
-/

namespace BackgroundAgents.Mcp

open Transition

def MCP_CREDENTIAL_TIMEOUT_MS : Millis := 20000
def MCP_REFRESH_STALE_MS : Millis := 60000
def MCP_TOKEN_HEADROOM_MS : Millis := 30000
def MCP_OAUTH_TRANSACTION_TTL_MS : Millis := 600000

/-! ## The calls -/

inductive StartStage where
  | pruning
  | reserving
  /-- The row that was reserved, and how many disconnects there had been. -/
  | clearing (row : McpConnectionRow) (disconnects : Nat)
  | publishing (row : McpConnectionRow) (disconnects : Nat)
  deriving DecidableEq, Repr

/-- A `start` call in `begin`, with the digest of the state it generated. -/
structure StartCall where
  browserSessionId : String
  client : McpOAuthClient
  stateDigest : String
  verifier : String
  expiresAt : Millis
  stage : StartStage
  deriving DecidableEq, Repr

inductive CallbackStage where
  | pruning
  | claiming
  | reading (transaction : McpOAuthTransaction)
  | exchanging (transaction : McpOAuthTransaction) (connection : McpConnectionRow)
  | settling (transaction : McpOAuthTransaction) (connection : McpConnectionRow)
    (credential : McpCredential)
  | failing (transaction : McpOAuthTransaction)
  deriving DecidableEq, Repr

structure CallbackCall where
  ownerId : String
  browserSessionId : String
  stateDigest : String
  iss : Option String
  claim : Nat
  now : Millis
  stage : CallbackStage
  deriving DecidableEq, Repr

inductive CredentialStage where
  | requiring
  /-- The row it was given, which it decrypts. -/
  | deciding (row : McpConnectionRow)
  | fencingStale (row : McpConnectionRow) (owner : Nat)
  | claiming (row : McpConnectionRow) (credential : McpCredential)
  | exchanging (row : McpConnectionRow) (claim : Nat) (credential : McpCredential)
  | publishing (row : McpConnectionRow) (claim : Nat) (rotated : McpCredential)
  | fencing (row : McpConnectionRow) (claim : Nat)
  deriving DecidableEq, Repr

structure CredentialCall where
  binding : McpGrantBinding
  deadline : Millis
  stage : CredentialStage
  deriving DecidableEq, Repr

inductive Call where
  | start (call : StartCall)
  | callback (call : CallbackCall)
  | credential (call : CredentialCall)
  deriving DecidableEq, Repr

/-! ## What happened -/

/-- A transaction that was published: the client its start used, and the disconnects before the
start read the row. -/
structure Origin where
  stateDigest : String
  client : McpOAuthClient
  disconnects : Nat
  deriving DecidableEq, Repr

structure Settlement where
  stateDigest : String
  claim : Nat
  disconnects : Nat
  deriving DecidableEq, Repr

/-- A refresh token that was sent to the token endpoint, after so many consents. -/
structure Exchange where
  grant_revision : Nat
  credential_version : Nat
  consents : Nat
  deriving DecidableEq, Repr

/-- A credential that was stored on the connected row. -/
structure Granted where
  connectionId : Nat
  ownerId : String
  serverId : String
  authRevision : Nat
  grantRevision : Nat
  accessToken : String
  deriving DecidableEq, Repr

structure Returned where
  binding : McpGrantBinding
  accessToken : String
  deriving DecidableEq, Repr

structure History where
  /-- the disconnects of the connection so far -/
  disconnects : Nat
  /-- the digests of the states generated so far -/
  digests : List String
  origins : List Origin
  claims : List (String × Nat)
  settlements : List Settlement
  exchanges : List Exchange
  /-- the grant revisions and versions over which a refreshed credential was stored -/
  refreshed : List (Nat × Nat)
  granted : List Granted
  returned : List Returned
  deriving DecidableEq, Repr

def History.empty : History where
  disconnects := 0
  digests := []
  origins := []
  claims := []
  settlements := []
  exchanges := []
  refreshed := []
  granted := []
  returned := []

structure State where
  db : Db
  now : Millis
  /-- the ids and claims drawn so far -/
  drawn : Nat
  calls : List Call
  history : History

/-- What D1 answers to a statement. -/
inductive Outcome where
  | ok
  | failed
  | failedAfterEffect
  deriving DecidableEq, Repr

structure Answer where
  statement : Outcome
  /-- what the token endpoint grants, if it does -/
  credential : Option McpCredential
  deriving DecidableEq, Repr

/-- A statement executes, unless it fails without effect. -/
def State.execute (s : State) (answer : Answer) (db : Db) (history : History) : State :=
  if answer.statement = .failed then s else { s with db, history }

/-! ## Their steps -/

section Steps

-- `assertProfile` of an issuer, a resource and a token endpoint; the owner whose connection this is
variable (assertProfile : String → String → String → Bool) (ownerId : String)

def StartCall.next (s : State) (c : StartCall) (answer : Answer) : State × Option StartCall :=
  match c.stage with
  | .pruning =>
    (s.execute answer (s.db.pruneTransactions ownerId s.now) s.history,
      if answer.statement = .ok then some { c with stage := .reserving } else none)
  | .reserving =>
    let reserved := s.db.reserve s.drawn ownerId c.client s.now
    ({ s.execute answer reserved.2 s.history with drawn := s.drawn + 1 },
      if answer.statement = .ok then
        -- no row: the server changed
        reserved.1.map fun row => { c with stage := .clearing row s.history.disconnects }
      else none)
  | .clearing row disconnects =>
    (s.execute answer (s.db.clearAttempts row.id) s.history,
      if answer.statement = .ok then some { c with stage := .publishing row disconnects }
      else none)
  | .publishing row disconnects =>
    let transaction := consentTransaction row c.client ownerId c.browserSessionId c.stateDigest
      c.verifier c.expiresAt
    match s.db.publishConsent row c.client transaction s.now with
    | some (true, db) =>
      (s.execute answer db
        { s.history with
          origins :=
            { stateDigest := c.stateDigest, client := c.client, disconnects } ::
              s.history.origins },
        none)
    | some (false, db) => (s.execute answer db s.history, none)
    | none => (s, none)

def CallbackCall.next (s : State) (c : CallbackCall) (answer : Answer) :
    State × Option CallbackCall :=
  match c.stage with
  | .pruning =>
    (s.execute answer (s.db.pruneTransactions c.ownerId c.now) s.history,
      if answer.statement = .ok then some { c with stage := .claiming } else none)
  | .claiming =>
    match s.db.claimTransaction c.stateDigest c.ownerId c.browserSessionId c.claim c.now with
    | (some transaction, db) =>
      (s.execute answer db
        { s.history with claims := (c.stateDigest, c.claim) :: s.history.claims },
        if answer.statement = .ok then some { c with stage := .reading transaction } else none)
    | (none, _) => (s, none)
  | .reading transaction =>
    (s,
      if answer.statement = .ok then
        (s.db.claimedConnection transaction c.ownerId).bind fun connection =>
          (decryptMcp transaction.encrypted_verifier (transactionAad transaction)).map fun _ =>
            if assertProfile connection.issuer connection.resource connection.token_endpoint ∧
                c.iss.all (· = connection.issuer) then
              { c with stage := .exchanging transaction connection }
            else { c with stage := .failing transaction }
      else none)
  | .exchanging transaction connection =>
    (s,
      match answer.credential with
      | some credential => some { c with stage := .settling transaction connection credential }
      | none => some { c with stage := .failing transaction })
  | .settling transaction connection credential =>
    match s.db.settle transaction connection credential s.now with
    | (true, db) =>
      (s.execute answer db
        { s.history with
          settlements :=
            { stateDigest := transaction.state_digest, claim := c.claim
              disconnects := s.history.disconnects } :: s.history.settlements
          granted :=
            { connectionId := connection.id, ownerId := connection.owner_id
              serverId := connection.server_id, authRevision := connection.auth_revision
              grantRevision := connection.grant_revision + 1
              accessToken := credential.accessToken } :: s.history.granted },
        if answer.statement = .ok then none else some { c with stage := .failing transaction })
    | (false, db) =>
      (s.execute answer db s.history, some { c with stage := .failing transaction })
  | .failing transaction => (s.execute answer (s.db.deleteClaimed transaction) s.history, none)

def CredentialCall.next (s : State) (c : CredentialCall) (answer : Answer) :
    State × Option CredentialCall :=
  match c.stage with
  | .requiring =>
    (s,
      if answer.statement = .ok then
        match s.db.require c.binding with
        | .error _ => none
        | .ok row => some { c with stage := .deciding row }
      else none)
  | .deciding row =>
    if assertProfile row.issuer row.resource row.token_endpoint = false then (s, none)
    else
      match row.exchange_owner with
      | some owner =>
        if row.exchange_started_at.all fun startedAt => MCP_REFRESH_STALE_MS ≤ s.now - startedAt
        then (s, some { c with stage := .fencingStale row owner })
        else if c.deadline ≤ s.now then (s, none)
        else (s, some { c with stage := .requiring })
      | none =>
        match Db.decrypt row with
        | none => (s, none)
        | some credential =>
          if credential.expiresAt.all (s.now + MCP_TOKEN_HEADROOM_MS < ·) then
            ({ s with
              history :=
                { s.history with
                  returned :=
                    { binding := c.binding, accessToken := credential.accessToken } ::
                      s.history.returned } },
              none)
          else (s, some { c with stage := .claiming row credential })
  | .fencingStale row owner =>
    (s.execute answer (s.db.fenceRefresh row owner s.now) s.history, none)
  | .claiming row credential =>
    match s.db.claimRefresh row s.drawn s.now with
    | (false, _) =>
      ({ s with drawn := s.drawn + 1 },
        if answer.statement = .ok then some { c with stage := .requiring } else none)
    | (true, db) =>
      -- without a refresh token the claim is fenced; with one, the token request follows at once
      match credential.refreshToken with
      | none =>
        ({ s.execute answer db s.history with drawn := s.drawn + 1 },
          if answer.statement = .ok then some { c with stage := .fencing row s.drawn } else none)
      | some _ =>
        if answer.statement = .ok then
          ({ s with
            db
            drawn := s.drawn + 1
            history :=
              { s.history with
                exchanges :=
                  { grant_revision := row.grant_revision
                    credential_version := row.credential_version
                    consents := s.history.settlements.length } :: s.history.exchanges } },
            some { c with stage := .exchanging row s.drawn credential })
        else ({ s.execute answer db s.history with drawn := s.drawn + 1 }, none)
  | .exchanging row claim credential =>
    (s,
      match answer.credential with
      | some rotated =>
        some
          { c with
            stage := .publishing row claim
              { rotated with refreshToken := rotated.refreshToken.or credential.refreshToken } }
      | none => some { c with stage := .fencing row claim })
  | .publishing row claim rotated =>
    match s.db.publishRefresh row claim rotated s.now with
    | (true, db) =>
      let stored :=
        { s.history with
          refreshed := (row.grant_revision, row.credential_version) :: s.history.refreshed
          granted :=
            { connectionId := row.id, ownerId := row.owner_id, serverId := row.server_id
              authRevision := row.auth_revision, grantRevision := row.grant_revision
              accessToken := rotated.accessToken } :: s.history.granted }
      if answer.statement = .ok then
        ({ s with
          db
          history :=
            { stored with
              returned :=
                { binding := c.binding, accessToken := rotated.accessToken } ::
                  stored.returned } },
          none)
      else (s.execute answer db stored, some { c with stage := .fencing row claim })
    | (false, _) => (s, some { c with stage := .fencing row claim })
  | .fencing row claim => (s.execute answer (s.db.fenceRefresh row claim s.now) s.history, none)

def Call.next (s : State) (answer : Answer) : Call → State × Option Call
  | .start c => ((c.next ownerId s answer).1, (c.next ownerId s answer).2.map .start)
  | .callback c =>
    ((c.next assertProfile s answer).1, (c.next assertProfile s answer).2.map .callback)
  | .credential c =>
    ((c.next assertProfile s answer).1, (c.next assertProfile s answer).2.map .credential)

/-! ## The system -/

inductive Act where
  | start (browserSessionId : String) (client : McpOAuthClient) (stateDigest verifier : String)
  | callback (ownerId browserSessionId stateDigest : String) (iss : Option String)
  | credential (binding : McpGrantBinding)
  | next (call : Nat) (answer : Answer)
  | crash (call : Nat)
  | disconnect
  | disconnectServer
  /-- An edit of the server, which raises its `auth_revision` or not. -/
  | editServer (bump enabled : Bool)
  | signIn (session : AuthSession)
  | signOut (sessionId : String)
  | suspend (userId : String)
  | unsuspend (userId : String)
  | tick (now : Millis)
  deriving DecidableEq, Repr

/-- `disconnectMatching`, counted when it meets the connection. -/
def State.disconnect (s : State) (owner : Option String) : State :=
  { s with
    db := s.db.disconnectMatching owner s.now
    history :=
      { s.history with
        disconnects :=
          if s.db.connection.any (s.db.disconnects owner) then s.history.disconnects + 1
          else s.history.disconnects } }

def State.step (s : State) : Act → Option State
  | .start browserSessionId client stateDigest verifier =>
    if stateDigest ∈ s.history.digests ∨
        assertProfile client.issuer client.resource client.token_endpoint = false then none
    else
      some
        { s with
          calls := s.calls ++
            [.start
              { browserSessionId, client, stateDigest, verifier
                expiresAt := s.now + MCP_OAUTH_TRANSACTION_TTL_MS
                stage := .pruning }]
          history := { s.history with digests := stateDigest :: s.history.digests } }
  | .callback owner browserSessionId stateDigest iss =>
    some
      { s with
        calls := s.calls ++
          [.callback
            { ownerId := owner, browserSessionId, stateDigest, iss, claim := s.drawn
              now := s.now, stage := .pruning }]
        drawn := s.drawn + 1 }
  | .credential binding =>
    some
      { s with
        calls := s.calls ++
          [.credential
            { binding, deadline := s.now + MCP_CREDENTIAL_TIMEOUT_MS, stage := .requiring }] }
  | .next i answer =>
    (s.calls[i]?).map fun call =>
      let moved := call.next assertProfile ownerId s answer
      { moved.1 with calls := advance s.calls i moved.2 }
  | .crash i => (s.calls[i]?).map fun _ => { s with calls := advance s.calls i none }
  | .disconnect => some (s.disconnect (some ownerId))
  | .disconnectServer => some (s.disconnect none)
  | .editServer bump enabled =>
    some
      { s with
        db :=
          { s.db with
            server :=
              { s.db.server with
                auth_revision := s.db.server.auth_revision + if bump then 1 else 0
                enabled } } }
  | .signIn session =>
    (s.db.sessions.insert? session).map fun sessions => { s with db := { s.db with sessions } }
  | .signOut sessionId =>
    some { s with db := { s.db with sessions := s.db.sessions.delete (·.id = sessionId) } }
  | .suspend userId => some { s with db := { s.db with suspended := userId :: s.db.suspended } }
  | .unsuspend userId =>
    some { s with db := { s.db with suspended := s.db.suspended.filter (· ≠ userId) } }
  | .tick now => if s.now ≤ now then some { s with now } else none

def oauthSystem : System State Act where
  step := State.step assertProfile ownerId

end Steps

/-- A server that the owner has no connection to. -/
def State.initial (server : McpServer) (sessions : Table AuthSession.id) (suspended : List String)
    (now : Millis) : State where
  db := { server, connection := none, transactions := Table.empty, sessions, suspended }
  now
  drawn := 0
  calls := []
  history := History.empty

end BackgroundAgents.Mcp

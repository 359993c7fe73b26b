import BackgroundAgents.Lib.Table

/-!
# The MCP connection store

`McpConnectionStore` for one owner and one server, which share at most one row
of `mcp_connections`. Every method here is one statement or one batch, as D1
executes it; what stands between them is in the calls. Ciphertexts are sealed
to the row they were made for (`Sealed`): opening one under another binding
fails.
-/

namespace BackgroundAgents.Mcp

/-- Milliseconds since the epoch. -/
abbrev Millis := Int

/-- A ciphertext with the additional data it was made with. -/
structure Sealed (aad payload : Type) where
  aad : aad
  payload : payload
  deriving DecidableEq, Repr

def encryptMcp {aad payload : Type} (value : payload) (binding : aad) : Sealed aad payload :=
  { aad := binding, payload := value }

def decryptMcp {aad payload : Type} [DecidableEq aad] (value : Sealed aad payload)
    (binding : aad) : Option payload :=
  if value.aad = binding then some value.payload else none

/-! ## Rows -/

/-- The columns of `mcp_servers` that the store reads. -/
structure McpServer where
  id : String
  auth_revision : Nat
  enabled : Bool
  deriving DecidableEq, Repr

/-- An OAuth client; its authorization endpoint is only navigated to. -/
structure McpOAuthClient where
  server_id : String
  auth_revision : Nat
  issuer : String
  resource : String
  client_id : String
  redirect_uri : String
  token_endpoint : String
  deriving DecidableEq, Repr

inductive McpConnectionStatus where
  | connected
  | disconnected
  | reconnect_required
  deriving DecidableEq, Repr

structure McpCredential where
  accessToken : String
  refreshToken : Option String
  expiresAt : Option Millis
  deriving DecidableEq, Repr

/-- What `aad` binds a grant to. -/
structure GrantAad where
  id : Nat
  owner_id : String
  server_id : String
  auth_revision : Nat
  issuer : String
  resource : String
  client_id : String
  grant_revision : Nat
  deriving DecidableEq, Repr

/-- A row of `mcp_connections`; ids and claims are drawn from a counter. -/
structure McpConnectionRow where
  id : Nat
  owner_id : String
  server_id : String
  auth_revision : Nat
  issuer : String
  resource : String
  client_id : String
  token_endpoint : String
  status : McpConnectionStatus
  grant_revision : Nat
  credential_version : Nat
  encrypted_payload : Option (Sealed GrantAad McpCredential)
  expires_at : Option Millis
  exchange_owner : Option Nat
  exchange_started_at : Option Millis
  updated_at : Millis
  deriving DecidableEq, Repr

inductive McpTransactionStatus where
  | pending
  | claimed
  | settled
  | invalidated
  deriving DecidableEq, Repr

/-- What `transactionAad` binds a verifier to. -/
structure TransactionAad where
  state_digest : String
  owner_id : String
  browser_session_id : String
  connection_id : Nat
  grant_revision : Nat
  auth_revision : Nat
  redirect_uri : String
  deriving DecidableEq, Repr

/-- A row of `mcp_oauth_transactions`. -/
structure McpOAuthTransaction where
  state_digest : String
  owner_id : String
  browser_session_id : String
  connection_id : Nat
  grant_revision : Nat
  auth_revision : Nat
  redirect_uri : String
  encrypted_verifier : Sealed TransactionAad String
  expires_at : Millis
  status : McpTransactionStatus
  claim_owner : Option Nat
  deriving DecidableEq, Repr

/-- A row of `auth_sessions`. -/
structure AuthSession where
  id : String
  userId : String
  expiresAt : Millis
  deriving DecidableEq, Repr

structure Db where
  server : McpServer
  /-- the row of the owner and the server -/
  connection : Option McpConnectionRow
  transactions : Table McpOAuthTransaction.state_digest
  sessions : Table AuthSession.id
  /-- the users whose `suspended_at` is set -/
  suspended : List String

structure McpGrantBinding where
  connectionId : Nat
  grantRevision : Nat
  serverId : String
  serverAuthRevision : Nat
  canonicalUserId : String
  deriving DecidableEq, Repr

inductive McpError where
  | mcp_connection_required
  | mcp_context_changed
  | mcp_disconnected
  | mcp_reconnect_required
  | mcp_denied
  | mcp_unavailable
  deriving DecidableEq, Repr

def aad (row : McpConnectionRow) : GrantAad where
  id := row.id
  owner_id := row.owner_id
  server_id := row.server_id
  auth_revision := row.auth_revision
  issuer := row.issuer
  resource := row.resource
  client_id := row.client_id
  grant_revision := row.grant_revision

def transactionAad (row : McpOAuthTransaction) : TransactionAad where
  state_digest := row.state_digest
  owner_id := row.owner_id
  browser_session_id := row.browser_session_id
  connection_id := row.connection_id
  grant_revision := row.grant_revision
  auth_revision := row.auth_revision
  redirect_uri := row.redirect_uri

namespace Db

/-- `SELECT 1 FROM auth_sessions a WHERE a.id = … AND a.userId = … AND a.expiresAt > now` -/
def sessionLive (db : Db) (sessionId userId : String) (now : Millis) : Bool :=
  (db.sessions.get? sessionId).any fun a => a.userId = userId ∧ now < a.expiresAt

/-- `u.suspended_at IS NULL` -/
def userActive (db : Db) (userId : String) : Bool := !db.suspended.contains userId

/-- The server has this revision and is enabled. -/
def serverAt (db : Db) (serverId : String) (authRevision : Nat) : Bool :=
  db.server.id = serverId ∧ db.server.auth_revision = authRevision ∧ db.server.enabled

/-! ## Consent -/

/-- `pruneTransactions` -/
def pruneTransactions (db : Db) (ownerId : String) (now : Millis) : Db :=
  { db with
    transactions := db.transactions.delete fun t =>
      t.owner_id = ownerId ∧
        ((t.status ≠ .pending ∧ t.status ≠ .claimed) ∨ t.expires_at ≤ now ∨
          db.sessionLive t.browser_session_id t.owner_id now = false ∨
          db.connection.all fun c =>
            ¬ (c.id = t.connection_id ∧ c.grant_revision = t.grant_revision)) }

/-- The first write of `begin`: reserve the row of the owner and the server, and return it. -/
def reserve (db : Db) (connectionId : Nat) (ownerId : String) (client : McpOAuthClient)
    (now : Millis) : Option McpConnectionRow × Db :=
  if db.serverAt client.server_id client.auth_revision then
    let row : McpConnectionRow :=
      match db.connection with
      | none =>
        { id := connectionId
          owner_id := ownerId
          server_id := client.server_id
          auth_revision := client.auth_revision
          issuer := client.issuer
          resource := client.resource
          client_id := client.client_id
          token_endpoint := client.token_endpoint
          status := .reconnect_required
          grant_revision := 1
          credential_version := 0
          encrypted_payload := none
          expires_at := none
          exchange_owner := none
          exchange_started_at := none
          updated_at := now }
      | some row =>
        -- a connected grant is left usable
        if row.status = .connected then row
        else { row with status := .reconnect_required, updated_at := now }
    (some row, { db with connection := some row })
  else (none, db)

/-- The second write of `begin`: earlier attempts are superseded. -/
def clearAttempts (db : Db) (connectionId : Nat) : Db :=
  { db with transactions := db.transactions.delete fun t => t.connection_id = connectionId }

end Db

/-- The row is the client's. -/
def sameClient (row : McpConnectionRow) (client : McpOAuthClient) : Bool :=
  row.auth_revision = client.auth_revision ∧ row.issuer = client.issuer ∧
    row.resource = client.resource ∧ row.client_id = client.client_id ∧
    row.token_endpoint = client.token_endpoint

/-- Whether `begin` replaces what the row holds. -/
def needsReset (row : McpConnectionRow) (client : McpOAuthClient) : Bool :=
  let keep := row.status = .connected ∧ sameClient row client
  ¬ keep ∧ (¬ sameClient row client ∨ row.encrypted_payload ≠ none ∨ row.exchange_owner ≠ none)

/-- The revision a consent is published at, computed from the row that was read. -/
def consentRevision (row : McpConnectionRow) (client : McpOAuthClient) : Nat :=
  if needsReset row client then row.grant_revision + 1 else row.grant_revision

def consentTransaction (row : McpConnectionRow) (client : McpOAuthClient)
    (ownerId browserSessionId stateDigest verifier : String) (expiresAt : Millis) :
    McpOAuthTransaction :=
  { state_digest := stateDigest
    owner_id := ownerId
    browser_session_id := browserSessionId
    connection_id := row.id
    grant_revision := consentRevision row client
    auth_revision := client.auth_revision
    redirect_uri := client.redirect_uri
    encrypted_verifier := encryptMcp verifier
      { state_digest := stateDigest
        owner_id := ownerId
        browser_session_id := browserSessionId
        connection_id := row.id
        grant_revision := consentRevision row client
        auth_revision := client.auth_revision
        redirect_uri := client.redirect_uri }
    expires_at := expiresAt
    status := .pending
    claim_owner := none }

def resetRow (current : McpConnectionRow) (client : McpOAuthClient) (grantRevision : Nat)
    (now : Millis) : McpConnectionRow :=
  { current with
    auth_revision := client.auth_revision
    issuer := client.issuer
    resource := client.resource
    client_id := client.client_id
    token_endpoint := client.token_endpoint
    status := .reconnect_required
    grant_revision := grantRevision
    encrypted_payload := none
    expires_at := none
    exchange_owner := none
    exchange_started_at := none
    updated_at := now }

namespace Db

/-- `NOT EXISTS (SELECT 1 FROM mcp_oauth_transactions WHERE connection_id = ?)` -/
def noOtherAttempt (db : Db) (connectionId : Nat) : Bool :=
  db.transactions.rows.all fun t => t.connection_id ≠ connectionId

/-- The first statement of `begin`'s batch, for a consent that resets. -/
def resetConnection (db : Db) (row : McpConnectionRow) (client : McpOAuthClient) (now : Millis) :
    Db :=
  { db with
    connection := db.connection.map fun current =>
      if current.id = row.id ∧ current.grant_revision = row.grant_revision ∧
          db.noOtherAttempt row.id then
        resetRow current client (consentRevision row client) now
      else current }

/-- The reset of `begin`'s batch, when there is one. -/
def prepareConsent (db : Db) (row : McpConnectionRow) (client : McpOAuthClient) (now : Millis) :
    Db :=
  if needsReset row client then db.resetConnection row client now else db

/-- `begin`'s batch, with the transaction that follows the reset. The flag is whether the
transaction was inserted. -/
def publishConsent (db : Db) (row : McpConnectionRow) (client : McpOAuthClient)
    (transaction : McpOAuthTransaction) (now : Millis) : Option (Bool × Db) :=
  let db := db.prepareConsent row client now
  if (db.connection.any fun current =>
      current.id = row.id ∧ current.grant_revision = transaction.grant_revision) ∧
      db.noOtherAttempt row.id then
    (db.transactions.insert? transaction).map fun transactions => (true, { db with transactions })
  else some (false, db)

/-- What `claimTransaction` asks of a transaction. -/
def claimable (db : Db) (t : McpOAuthTransaction) (ownerId sessionId : String) (now : Millis) :
    Bool :=
  t.owner_id = ownerId ∧ t.browser_session_id = sessionId ∧ t.status = .pending ∧
    now < t.expires_at ∧ db.sessionLive t.browser_session_id t.owner_id now ∧
    db.userActive t.owner_id ∧
    db.connection.any fun c =>
      c.id = t.connection_id ∧ c.grant_revision = t.grant_revision ∧
        db.serverAt c.server_id c.auth_revision

/-- The update of `claimTransaction`, and the row it returns. -/
def claimTransaction (db : Db) (stateDigest ownerId sessionId : String) (claim : Nat)
    (now : Millis) : Option McpOAuthTransaction × Db :=
  match (db.transactions.get? stateDigest).filter (db.claimable · ownerId sessionId now) with
  | some t =>
    (some { t with status := .claimed, claim_owner := some claim },
      { db with
        transactions := db.transactions.update (fun x => x.state_digest = stateDigest)
          fun x => { x with status := .claimed, claim_owner := some claim } })
  | none => (none, db)

/-- The read of `claimTransaction`. -/
def claimedConnection (db : Db) (transaction : McpOAuthTransaction) (ownerId : String) :
    Option McpConnectionRow :=
  db.connection.filter fun c =>
    c.id = transaction.connection_id ∧ c.owner_id = ownerId ∧
      c.grant_revision = transaction.grant_revision

/-- The transaction that `settle` still finds. -/
def settleable (db : Db) (transaction : McpOAuthTransaction) (now : Millis) : Bool :=
  (db.transactions.get? transaction.state_digest).any fun t =>
    t.status = .claimed ∧ t.claim_owner.isSome ∧ t.claim_owner = transaction.claim_owner ∧
      now < t.expires_at ∧ db.sessionLive t.browser_session_id t.owner_id now ∧
      db.userActive t.owner_id

/-- `DELETE … WHERE state_digest = ? AND status = 'claimed' AND claim_owner = ?` -/
def deleteClaimed (db : Db) (transaction : McpOAuthTransaction) : Db :=
  { db with
    transactions := db.transactions.delete fun t =>
      t.state_digest = transaction.state_digest ∧ t.status = .claimed ∧ t.claim_owner.isSome ∧
        t.claim_owner = transaction.claim_owner }

/-- The row that `settle` writes over. -/
def settles (db : Db) (transaction : McpOAuthTransaction) (connection current : McpConnectionRow)
    (now : Millis) : Bool :=
  current.id = connection.id ∧ current.owner_id = connection.owner_id ∧
    current.grant_revision = connection.grant_revision ∧
    current.auth_revision = connection.auth_revision ∧ db.settleable transaction now ∧
    db.serverAt current.server_id current.auth_revision

def settledRow (connection current : McpConnectionRow) (credential : McpCredential)
    (now : Millis) : McpConnectionRow :=
  { current with
    status := .connected
    grant_revision := connection.grant_revision + 1
    encrypted_payload := some (encryptMcp credential
      (aad { connection with grant_revision := connection.grant_revision + 1 }))
    expires_at := credential.expiresAt
    credential_version := current.credential_version + 1
    exchange_owner := none
    exchange_started_at := none
    updated_at := now }

/-- `settle`'s batch, and whether the connection was written. -/
def settle (db : Db) (transaction : McpOAuthTransaction) (connection : McpConnectionRow)
    (credential : McpCredential) (now : Millis) : Bool × Db :=
  let changed := db.connection.any (db.settles transaction connection · now)
  let db :=
    { db with
      connection := db.connection.map fun current =>
        if db.settles transaction connection current now then
          settledRow connection current credential now
        else current }
  (changed, db.deleteClaimed transaction)

def disconnectedRow (current : McpConnectionRow) (now : Millis) : McpConnectionRow :=
  { current with
    status := .disconnected
    grant_revision := current.grant_revision + 1
    encrypted_payload := none
    expires_at := none
    exchange_owner := none
    exchange_started_at := none
    updated_at := now }

/-- The connections that `disconnectMatching` is for. -/
def disconnects (db : Db) (ownerId : Option String) (current : McpConnectionRow) : Bool :=
  decide (current.server_id = db.server.id) &&
    match ownerId with
    | some owner => decide (current.owner_id = owner)
    | none => !db.server.enabled

/-- `disconnectMatching`'s batch: `disconnect` names the owner, `disconnectServer` does not. -/
def disconnectMatching (db : Db) (ownerId : Option String) (now : Millis) : Db :=
  { db with
    transactions := db.transactions.delete fun t =>
      db.connection.any fun c => c.id = t.connection_id ∧ db.disconnects ownerId c
    connection := db.connection.map fun current =>
      if db.disconnects ownerId current then disconnectedRow current now else current }

/-! ## Credentials -/

/-- `require` -/
def require (db : Db) (binding : McpGrantBinding) : Except McpError McpConnectionRow :=
  match db.connection.filter fun c =>
      c.owner_id = binding.canonicalUserId ∧ c.server_id = binding.serverId ∧
        db.server.id = c.server_id with
  | none => .error .mcp_connection_required
  | some row =>
    if row.id ≠ binding.connectionId ∨ row.grant_revision ≠ binding.grantRevision ∨
        row.auth_revision ≠ binding.serverAuthRevision ∨
        row.auth_revision ≠ db.server.auth_revision ∨ db.server.enabled = false then
      .error .mcp_context_changed
    else if row.status = .disconnected then .error .mcp_disconnected
    else if row.status ≠ .connected then .error .mcp_reconnect_required
    else .ok row

/-- `decrypt` -/
def decrypt (row : McpConnectionRow) : Option McpCredential :=
  row.encrypted_payload.bind fun payload => decryptMcp payload (aad row)

/-- The row is still at the grant and version that were read, and connected. -/
def sameGrant (row current : McpConnectionRow) : Bool :=
  current.id = row.id ∧ current.grant_revision = row.grant_revision ∧
    current.credential_version = row.credential_version ∧ current.status = .connected

/-- An update of the one connection, and whether it was made. -/
def updateConnection (db : Db) (p : McpConnectionRow → Bool)
    (f : McpConnectionRow → McpConnectionRow) : Bool × Db :=
  (db.connection.any p,
    { db with connection := db.connection.map fun c => if p c then f c else c })

def claimRefresh (db : Db) (row : McpConnectionRow) (claim : Nat) (now : Millis) : Bool × Db :=
  db.updateConnection (fun c => sameGrant row c ∧ c.exchange_owner = none)
    fun c => { c with exchange_owner := some claim, exchange_started_at := some now }

def refreshedRow (row current : McpConnectionRow) (credential : McpCredential) (now : Millis) :
    McpConnectionRow :=
  { current with
    encrypted_payload := some (encryptMcp credential (aad row))
    expires_at := credential.expiresAt
    credential_version := current.credential_version + 1
    exchange_owner := none
    exchange_started_at := none
    updated_at := now }

def publishRefresh (db : Db) (row : McpConnectionRow) (claim : Nat) (credential : McpCredential)
    (now : Millis) : Bool × Db :=
  db.updateConnection
    (fun c => sameGrant row c ∧ c.exchange_owner = some claim ∧ db.userActive c.owner_id ∧
      db.serverAt c.server_id c.auth_revision)
    (refreshedRow row · credential now)

def fencedRow (current : McpConnectionRow) (now : Millis) : McpConnectionRow :=
  { current with
    status := .reconnect_required
    exchange_owner := none
    exchange_started_at := none
    updated_at := now }

def fenceRefresh (db : Db) (row : McpConnectionRow) (claim : Nat) (now : Millis) : Db :=
  (db.updateConnection (fun c => sameGrant row c ∧ c.exchange_owner = some claim)
    (fencedRow · now)).2

end Db

end BackgroundAgents.Mcp

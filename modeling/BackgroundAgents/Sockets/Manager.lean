import BackgroundAgents.Lib.Table

/-!
# The session's socket registry

`SessionWebSocketManager` over its host. A socket keeps its tags for the whole
life of the connection; the manager's own fields (`Memory`) are lost whenever
the session hibernates. Which bridge is authoritative stands in the sandbox row,
which client is authorized in `ws_client_mapping`.

Closing a socket is a request: whether the socket still appears open afterwards,
and whether `close` throws, is the host's choice (`CloseOutcome`).
-/

namespace BackgroundAgents.Sockets

/-- Texts are lists of characters. -/
abbrev Text := List Char

inductive SandboxStatus where
  | pending
  | spawning
  | connecting
  | warming
  | ready
  | stale
  | snapshotting
  | stopped
  | failed
  deriving DecidableEq, Repr

/-- `isDeadSandboxStatus` -/
def SandboxStatus.isDead : SandboxStatus → Bool
  | .stopped => true
  | .stale => true
  | .failed => true
  | _ => false

inductive SandboxCommandAvailability where
  | dispatch
  | booting
  | unavailable
  deriving DecidableEq, Repr

def evaluateSandboxCommandAvailability (status : SandboxStatus) : SandboxCommandAvailability :=
  if status.isDead then .unavailable
  else if status = .ready ∨ status = .snapshotting then .dispatch
  else .booting

/-- The columns of the sandbox row that the manager reads; `boot_phase` as it is parsed. -/
structure SandboxRow where
  status : SandboxStatus
  modal_sandbox_id : Option Text
  active_socket_id : Option Text
  boot_phase : Option Text
  deriving DecidableEq, Repr

/-! ## The host -/

/-- A socket that was adopted: its tags, whether its `readyState` is open, and whether the host
still lists it. -/
structure Socket where
  id : Nat
  tags : List Text
  isOpen : Bool
  listed : Bool
  deriving DecidableEq, Repr

/-- What `close` does to an open socket. -/
inductive CloseOutcome where
  | closing
  /-- The close handshake has not completed: the socket still appears open. -/
  | lingering
  | threw
  deriving DecidableEq, Repr

abbrev SocketTable := Table Socket.id

def SocketTable.isOpen (sockets : SocketTable) (ws : Nat) : Bool :=
  (sockets.get? ws).any (·.isOpen)

/-- The tags a socket was adopted with. -/
def SocketTable.tags (sockets : SocketTable) (ws : Nat) : List Text :=
  ((sockets.get? ws).map (·.tags)).getD []

/-- `host.sockets()` -/
def SocketTable.listedIds (sockets : SocketTable) : List Nat :=
  (sockets.rows.filter (·.listed)).map (·.id)

/-- `ws.close(code, reason)` -/
def SocketTable.close (sockets : SocketTable) (ws : Nat) (outcome : CloseOutcome) : SocketTable :=
  sockets.update (fun s => s.id = ws)
    fun s => { s with isOpen := s.isOpen && outcome ≠ .closing }

/-! ## Clients -/

/-- `ClientInfo`, as far as the manager uses it -/
structure ClientInfo where
  participantId : Text
  clientId : Text
  authorizationExpiresAt : Int
  deriving DecidableEq, Repr

/-- An entry of `clients : Map<SessionWebSocket, ClientInfo>`. -/
structure ClientEntry where
  ws : Nat
  info : ClientInfo
  deriving DecidableEq, Repr

/-- A row of `ws_client_mapping`. -/
structure WsClientMapping where
  ws_id : Text
  participant_id : Text
  client_id : Text
  created_at : Int
  authorization_expires_at : Int
  deriving DecidableEq, Repr

/-- The fields of the manager. -/
structure Memory where
  clients : Table ClientEntry.ws
  synchronizingClients : List Nat
  sandboxWs : Option Nat

/-- A new manager, over the same host and tables. -/
def Memory.fresh : Memory :=
  { clients := Table.empty, synchronizingClients := [], sandboxWs := none }

structure World where
  sockets : SocketTable
  memory : Memory
  row : Option SandboxRow
  mappings : Table WsClientMapping.ws_id
  /-- the ids of the `participants` rows, which the mapping is joined with -/
  participants : List Text
  now : Int

/-! ## Accept and classification -/

def sandboxTag : Text := ['s', 'a', 'n', 'd', 'b', 'o', 'x']
def sidPrefix : Text := ['s', 'i', 'd', ':']
def socketPrefix : Text := ['s', 'o', 'c', 'k', 'e', 't', ':']
def wsidPrefix : Text := ['w', 's', 'i', 'd', ':']

/-- The rest of the first tag with a prefix. -/
def taggedWith (tags : List Text) (tagPrefix : Text) : Option Text :=
  (tags.find? fun t => tagPrefix.isPrefixOf t).map (·.drop tagPrefix.length)

/-- `ConnectionClassification` -/
inductive Classification where
  | sandbox (sandboxId socketId : Option Text)
  | client (wsId : Option Text)
  deriving DecidableEq, Repr

def classifyTags (tags : List Text) : Classification :=
  if tags.contains sandboxTag then
    .sandbox (taggedWith tags sidPrefix) (taggedWith tags socketPrefix)
  else .client (taggedWith tags wsidPrefix)

def classify (w : World) (ws : Nat) : Classification := classifyTags (w.sockets.tags ws)

def Classification.isSandbox : Classification → Bool
  | .sandbox _ _ => true
  | .client _ => false

/-- `host.adopt(ws, tags)`; a socket is adopted once. -/
def adopt (w : World) (ws : Nat) (tags : List Text) : Option World :=
  (w.sockets.insert? { id := ws, tags, isOpen := true, listed := true }).map
    fun sockets => { w with sockets }

def acceptClientSocket (w : World) (ws : Nat) (wsId : Text) : Option World :=
  adopt w ws [wsidPrefix ++ wsId]

/-- `sbws-${Date.now()}-${random}` -/
def newSocketId (suffix : Text) : Text := ['s', 'b', 'w', 's', '-'] ++ suffix

def sandboxTags (sandboxId : Option Text) (socketId : Text) : List Text :=
  sandboxTag :: ((sandboxId.filter (· ≠ [])).map (sidPrefix ++ ·)).toList ++
    [socketPrefix ++ socketId]

/-- Closes sockets one after the other; an error of `close` is ignored. -/
def closeAll (w : World) (sockets : List Nat) (host : Nat → CloseOutcome) : World :=
  sockets.foldl (fun w ws => { w with sockets := w.sockets.close ws (host ws) }) w

/-- `acceptAndSetSandboxSocket`, with the suffix drawn for its socket id: the world afterwards and
`replaced`. -/
def acceptAndSetSandboxSocket (w : World) (ws : Nat) (sandboxId : Option Text) (suffix : Text)
    (host : Nat → CloseOutcome) : Option (World × Bool) :=
  let socketId := newSocketId suffix
  (adopt w ws (sandboxTags sandboxId socketId)).map fun w =>
    -- the persisted identity advances before anything else observes the new socket
    let w := { w with row := w.row.map fun row => { row with active_socket_id := some socketId } }
    let existing := (w.sockets.listedIds.filter (fun s => (w.sockets.tags s).contains sandboxTag) ++
      w.memory.sandboxWs.toList).dedup
    let closing := existing.filter fun s => s ≠ ws ∧ w.sockets.isOpen s
    let replaced := closing.any fun s => host s ≠ .threw
    let w := closeAll w closing host
    ({ w with memory := { w.memory with sandboxWs := some ws } }, replaced)

/-! ## The sandbox socket -/

/-- Whether a sandbox socket is the one the row names. NULL stands for a row that predates
persisted identities, `''` for a revoked one. -/
def isAuthoritative (parsed : Classification) (sandbox : Option SandboxRow) : Bool :=
  match parsed, sandbox with
  | .sandbox sandboxId socketId, some row =>
    if row.modal_sandbox_id.any (fun id => id ≠ [] ∧ sandboxId ≠ some id) then false
    else
      match row.active_socket_id with
      | none => socketId = none
      | some active => socketId = some active
  | _, _ => false

def isActiveSandboxSocket (w : World) (ws : Nat) : Bool :=
  isAuthoritative (classify w ws) w.row

/-- A socket tagged for another sandbox than the row's. -/
def wrongSandbox (parsed : Classification) (sandbox : Option SandboxRow) : Bool :=
  match parsed, sandbox with
  | .sandbox sandboxId _, some row =>
    row.modal_sandbox_id.any fun id => id ≠ [] ∧ sandboxId ≠ some id
  | _, _ => false

/-- The recovery loop over the host's sockets. -/
def recoverSandboxSocket (sandbox : Option SandboxRow) (host : Nat → CloseOutcome) :
    List Nat → World → Option Nat × World
  | [], w => (none, w)
  | ws :: rest, w =>
    let parsed := classify w ws
    if ¬ parsed.isSandbox ∨ ¬ w.sockets.isOpen ws then recoverSandboxSocket sandbox host rest w
    else if wrongSandbox parsed sandbox then
      recoverSandboxSocket sandbox host rest
        { w with sockets := w.sockets.close ws (host ws) }
    else if ¬ isAuthoritative parsed sandbox then recoverSandboxSocket sandbox host rest w
    else (some ws, { w with memory := { w.memory with sandboxWs := some ws } })

def getSandboxSocketForRow (w : World) (sandbox : Option SandboxRow)
    (host : Nat → CloseOutcome) : Option Nat × World :=
  if sandbox.any (·.status.isDead) then
    -- a dead sandbox has no socket: whatever still appears open is closed
    let w := { w with memory := { w.memory with sandboxWs := none } }
    (none, closeAll w (w.sockets.listedIds.filter fun s => (classify w s).isSandbox) host)
  else
    match w.memory.sandboxWs with
    | some ws =>
      if w.sockets.isOpen ws then
        if isAuthoritative (classify w ws) sandbox then (some ws, w)
        else
          let w :=
            { w with
              sockets := w.sockets.close ws (host ws)
              memory := { w.memory with sandboxWs := none } }
          recoverSandboxSocket sandbox host w.sockets.listedIds w
      else recoverSandboxSocket sandbox host w.sockets.listedIds w
    | none => recoverSandboxSocket sandbox host w.sockets.listedIds w

def getSandboxSocket (w : World) (host : Nat → CloseOutcome) : Option Nat × World :=
  getSandboxSocketForRow w w.row host

inductive SandboxCommandTarget where
  | dispatch (socket : Nat)
  | booting (phase : Option Text)
  | unavailable
  deriving DecidableEq, Repr

def getSandboxCommandTarget (w : World) (host : Nat → CloseOutcome) :
    SandboxCommandTarget × World :=
  let found := getSandboxSocketForRow w w.row host
  match found.1, w.row with
  | some ws, some row =>
    match evaluateSandboxCommandAvailability row.status with
    | .dispatch => (.dispatch ws, found.2)
    | .booting => (.booting row.boot_phase, found.2)
    | .unavailable => (.unavailable, found.2)
  | _, _ => (.unavailable, found.2)

def clearSandboxSocket (w : World) : World :=
  { w with memory := { w.memory with sandboxWs := none } }

def detachSandboxSocket (w : World) (host : Nat → CloseOutcome) : World :=
  let sockets := (w.memory.sandboxWs.toList ++
    w.sockets.listedIds.filter fun s => (classify w s).isSandbox).dedup
  -- revoked before the sockets are closed
  let w :=
    { w with
      row := w.row.map fun row => { row with active_socket_id := some [] }
      memory := { w.memory with sandboxWs := none } }
  closeAll w sockets host

/-- `clearSandboxSocketIfMatch`: whether the closing socket was the active one. -/
def clearSandboxSocketIfMatch (w : World) (ws : Nat) : Bool × World :=
  let active := isActiveSandboxSocket w ws
  if active ∨ w.memory.sandboxWs = some ws then (active, clearSandboxSocket w) else (active, w)

/-! ## Client leases -/

/-- `getWsClientMapping`: joined with `participants`. -/
def getWsClientMapping (w : World) (wsId : Text) : Option WsClientMapping :=
  (w.mappings.get? wsId).filter fun m => w.participants.contains m.participant_id

/-- The `wsId` of a client socket; an empty one counts as none. -/
def clientWsId (w : World) (ws : Nat) : Option Text :=
  match classify w ws with
  | .client wsId => wsId.filter (· ≠ [])
  | .sandbox _ _ => none

/-- `teardownClient` -/
def teardownClient (w : World) (ws : Nat) : World :=
  { w with
    memory :=
      { w.memory with
        clients := w.memory.clients.delete fun c => c.ws = ws
        synchronizingClients := w.memory.synchronizingClients.filter (· ≠ ws) }
    mappings :=
      match clientWsId w ws with
      | some wsId => w.mappings.delete fun m => m.ws_id = wsId
      | none => w.mappings }

/-- `removeClient` -/
def removeClient (w : World) (ws : Nat) : Option ClientInfo × World :=
  ((w.memory.clients.get? ws).map (·.info), teardownClient w ws)

def rejectExpiredAuthorization (w : World) (ws : Nat) (host : Nat → CloseOutcome) : World :=
  let w := teardownClient w ws
  { w with sockets := w.sockets.close ws (host ws) }

def setClient (w : World) (ws : Nat) (info : ClientInfo) : World :=
  { w with
    memory :=
      { w.memory with
        clients := w.memory.clients.upsert { ws, info } fun c => { c with info } } }

def setClientSynchronizing (w : World) (ws : Nat) (synchronizing : Bool) : World :=
  { w with
    memory :=
      { w.memory with
        synchronizingClients :=
          if synchronizing then (ws :: w.memory.synchronizingClients).dedup
          else w.memory.synchronizingClients.filter (· ≠ ws) } }

inductive ClientLookup where
  | cached (client : ClientInfo)
  | recovered (mapping : WsClientMapping)
  | authorizationRejected
  | missing
  deriving DecidableEq, Repr

def lookupClient (w : World) (ws : Nat) (host : Nat → CloseOutcome) : ClientLookup × World :=
  match w.memory.clients.get? ws with
  | some entry =>
    if entry.info.authorizationExpiresAt ≤ w.now then
      (.authorizationRejected, rejectExpiredAuthorization w ws host)
    else (.cached entry.info, w)
  | none =>
    match (clientWsId w ws).bind (getWsClientMapping w) with
    | none => (.missing, w)
    | some mapping =>
      if mapping.authorization_expires_at ≤ w.now then
        (.authorizationRejected, rejectExpiredAuthorization w ws host)
      else (.recovered mapping, w)

/-- `getClientInfo` of the authenticator: a recovered client is put back into the registry. -/
def getClientInfo (w : World) (ws : Nat) (host : Nat → CloseOutcome) : Option ClientInfo × World :=
  match lookupClient w ws host with
  | (.cached client, w) => (some client, w)
  | (.recovered mapping, w) =>
    let info :=
      { participantId := mapping.participant_id
        clientId := mapping.client_id
        authorizationExpiresAt := mapping.authorization_expires_at }
    (some info, setClient w ws info)
  | (.authorizationRejected, w) => (none, w)
  | (.missing, w) => (none, { w with sockets := w.sockets.close ws (host ws) })

/-- `activateClient` after its await: `none` where it throws, and whether it published. -/
def activateClient (w : World) (ws : Nat) (info : ClientInfo) (synchronized : Bool) :
    Option (Bool × World) :=
  match clientWsId w ws with
  | none => none
  | some wsId =>
    if ¬ w.sockets.isOpen ws ∨ info.authorizationExpiresAt ≤ w.now then none
    else if ¬ synchronized then some (false, w)
    else
      let mapping : WsClientMapping :=
        { ws_id := wsId
          participant_id := info.participantId
          client_id := info.clientId
          created_at := w.now
          authorization_expires_at := info.authorizationExpiresAt }
      let w :=
        { w with
          mappings := w.mappings.upsert mapping fun old =>
            { mapping with ws_id := old.ws_id } }
      some (true, setClient w ws info)

/-- `authorizationExpiry`: the cached lease, or the persisted one. -/
def authorizationExpiry (w : World) (ws : Nat) : Option Int :=
  match w.memory.clients.get? ws with
  | some entry => some entry.info.authorizationExpiresAt
  | none => ((clientWsId w ws).bind (getWsClientMapping w)).map (·.authorization_expires_at)

/-- `isAuthenticated`: an expired lease is retired on the way. -/
def isAuthenticated (w : World) (ws : Nat) (host : Nat → CloseOutcome) : Bool × World :=
  match authorizationExpiry w ws with
  | none => (false, w)
  | some expiresAt =>
    if w.now < expiresAt then (true, w) else (false, rejectExpiredAuthorization w ws host)

/-- `forEachClientSocket("authenticated_only", …)`: the sockets it visits. -/
def authenticatedClientSockets (host : Nat → CloseOutcome) : List Nat → World → List Nat × World
  | [], w => ([], w)
  | ws :: rest, w =>
    if (classify w ws).isSandbox then authenticatedClientSockets host rest w
    else
      let checked := isAuthenticated w ws host
      let visited := authenticatedClientSockets host rest checked.2
      (if checked.1 then ws :: visited.1 else visited.1, visited.2)

/-- `expireAuthorizationLeases` -/
def expireAuthorizationLeases (w : World) (host : Nat → CloseOutcome) : World :=
  let w := w.sockets.listedIds.foldl
    (fun w ws =>
      if (classify w ws).isSandbox then w
      else if (authorizationExpiry w ws).any (· ≤ w.now) then rejectExpiredAuthorization w ws host
      else w) w
  { w with mappings := w.mappings.delete fun m => m.authorization_expires_at ≤ w.now }

/-- `getConnectedClientCount` -/
def getConnectedClientCount (w : World) : Nat :=
  w.sockets.listedIds.countP fun ws =>
    ¬ (classify w ws).isSandbox ∧ w.sockets.isOpen ws ∧
      (authorizationExpiry w ws).any (w.now < ·)

end BackgroundAgents.Sockets

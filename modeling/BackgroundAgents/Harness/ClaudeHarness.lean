import BackgroundAgents.Harness.ClaudeTranslate
import BackgroundAgents.Lib.Transition

/-!
# Running prompts on a Claude client

`ClaudeHarness` keeps one SDK client from prompt to prompt and connects again when the
model or the effort changes, when the client was disposed of, or when the last turn did
not end with its own result. A step of `claudeSystem` is one message of the SDK or one
other thing that can happen to the harness; the transcript keeps what was delivered and
what `run_prompt` returned, the latest first.
-/

namespace BackgroundAgents.Harness.Claude

open BackgroundAgents.Transition

variable {κ ρ ε : Type}

def maxReconnectsPerSession : ℕ := 3

structure ClaudeHarness where
  translator : ClaudeTranslator
  /-- Whether a client is held. -/
  client : Bool
  connectedModel : Option String
  connectedEffort : Option String
  needsReconnect : Bool
  reconnects : ℕ
  interrupted : Bool
  deriving DecidableEq, Repr

def ClaudeHarness.initial : ClaudeHarness := ⟨.initial, false, none, none, false, 0, false⟩

/-- How replacing the client goes. -/
inductive Connect where
  | connected
  /-- The previous client could not be disconnected. -/
  | disconnectFailed
  /-- The options cannot be built, for a reason that no retry changes. -/
  | startError
  /-- Building the options or connecting raised; whether the new client was held by then. -/
  | failed (client : Bool)
  /-- The deadline passed; whether a client is held after the cleanup. -/
  | timedOut (client : Bool)
  /-- The bridge stopped the prompt, which sets `needsReconnect` too. -/
  | stopped
  deriving DecidableEq, Repr

/-- Whether there is a client to query, and whether it is a new one. -/
inductive Ensured where
  | reused
  | connected
  | failed
  deriving DecidableEq, Repr

/-- `same_shape`: the client can take this prompt too. -/
def ClaudeHarness.SameShape (harness : ClaudeHarness) (model : String) (effort : Option String) :
    Prop :=
  harness.client = true ∧ harness.connectedModel = some model ∧ harness.connectedEffort = effort ∧
    harness.needsReconnect = false

instance (harness : ClaudeHarness) (model : String) (effort : Option String) :
    Decidable (harness.SameShape model effort) := by
  unfold ClaudeHarness.SameShape
  infer_instance

/-- The client is disconnected and another one connected. -/
def ClaudeHarness.replaceClient (harness : ClaudeHarness) (model : String) (effort : Option String) :
    Connect → ClaudeHarness × Ensured
  | .disconnectFailed => ({ harness with needsReconnect := true }, .failed)
  | .startError => ({ harness with client := false }, .failed)
  | .failed client => ({ harness with client, needsReconnect := true }, .failed)
  | .timedOut client => ({ harness with client, needsReconnect := true }, .failed)
  | .stopped => ({ harness with client := true, needsReconnect := true }, .failed)
  | .connected =>
    -- A fresh child starts its running total at zero.
    ({ harness with
        client := true
        connectedModel := some model
        connectedEffort := effort
        needsReconnect := false
        translator := { harness.translator with costBaseline := some 0 } }, .connected)

/-- `_ensure_client` with the handlers of `_run_prompt` around it. -/
def ClaudeHarness.ensureClient (harness : ClaudeHarness) (model : String) (effort : Option String)
    (connect : Connect) : ClaudeHarness × Ensured :=
  if harness.SameShape model effort then (harness, .reused)
  else
    -- The budget is spent whether or not the attempt produces a client.
    let reconnects := harness.reconnects + harness.needsReconnect.toNat
    let harness := { harness with reconnects }
    if harness.needsReconnect ∧ maxReconnectsPerSession < reconnects then (harness, .failed)
    else harness.replaceClient model effort connect

/-- The prompt in flight, by its place among all prompts. -/
structure Turn (ρ : Type) where
  number : ℕ
  state : ClaudeTurnState ρ
  deriving DecidableEq, Repr

inductive Entry (κ ε : Type) where
  | connected
  /-- What a message of a prompt was translated to. -/
  | delivered (prompt : ℕ) (message : Message κ) (translation : Translation ε)
  /-- The outcome that ended a prompt with its own result. -/
  | returned (prompt : ℕ) (outcome : TurnOutcome)
  deriving DecidableEq, Repr

structure Session (κ ρ ε : Type) where
  harness : ClaudeHarness
  turn : Option (Turn ρ)
  prompts : ℕ
  transcript : List (Entry κ ε)
  deriving DecidableEq, Repr

def Session.opened : Session κ ρ ε := ⟨.initial, none, 0, []⟩

inductive Action (κ : Type) where
  /-- A prompt starts; without a model when its id is malformed. -/
  | prompt (messageId : String) (model effort : Option String) (connect : Connect)
  /-- The SDK delivers a message; `emitted` when every event of it reaches the bridge. -/
  | message (message : Message κ) (uuid : String) (emitted : Bool)
  /-- The stream ends, a deadline passes, the transport fails or the prompt is cancelled;
  whether the client is still held after the cleanup. -/
  | broken (client : Bool)
  /-- The bridge asks the agent to stop; an interrupt that hangs disposes of the client. -/
  | abort (client : Bool)
  /-- Shutdown stops the execution; whether the client could be disposed of. -/
  | stopExecution (stopped : Bool)
  /-- The client is disposed of between prompts: other connectors, or the end of the session. -/
  | disconnect
  /-- The session takes an id that it creates or resumes. -/
  | sessionId (id : String)
  deriving DecidableEq, Repr

/-- A prompt that starts, up to its query. -/
def Session.start (contents : Contents κ ρ ε) (s : Session κ ρ ε) (messageId model : String)
    (effort : Option String) (connect : Connect) : Session κ ρ ε :=
  let (harness, ensured) := s.harness.ensureClient model effort connect
  let turn : Turn ρ :=
    ⟨s.prompts, .started messageId harness.translator.costBaseline contents.fresh⟩
  let s := { s with prompts := s.prompts + 1 }
  match ensured with
  | .failed => { s with harness }
  | .reused => { s with harness := { harness with interrupted := false }, turn := some turn }
  | .connected =>
    { s with
      harness := { harness with interrupted := false }
      turn := some turn
      transcript := .connected :: s.transcript }

/-- A message for the prompt in flight, and the return of an outcome once all is emitted. -/
def Session.deliver (contents : Contents κ ρ ε) (s : Session κ ρ ε) (turn : Turn ρ)
    (message : Message κ) (uuid : String) (emitted : Bool) : Session κ ρ ε :=
  let (translation, translator, state) := s.harness.translator.translate contents turn.state message
    s.harness.interrupted uuid
  let transcript := .delivered turn.number message translation :: s.transcript
  let harness := { s.harness with translator }
  if emitted then
    match translation.outcome with
    | none => { s with harness, turn := some { turn with state }, transcript }
    | some outcome =>
      { s with harness, turn := none, transcript := .returned turn.number outcome :: transcript }
  else
    { s with harness := { harness with needsReconnect := true }, turn := none, transcript }

def step (contents : Contents κ ρ ε) (s : Session κ ρ ε) : Action κ → Option (Session κ ρ ε)
  | .prompt messageId model effort connect =>
    if s.turn.isSome then none
    else
      match model with
      | none => some { s with prompts := s.prompts + 1 }
      | some model => some (s.start contents messageId model effort connect)
  | .message message uuid emitted =>
    match s.turn with
    | none => none
    | some turn => some (s.deliver contents turn message uuid emitted)
  | .broken client =>
    if s.turn.isSome then
      some
        { s with
          harness :=
            { s.harness with client := s.harness.client && client, needsReconnect := true }
          turn := none }
    else none
  | .abort client =>
    if s.harness.client then
      some { s with harness := { s.harness with client, interrupted := true, needsReconnect := true } }
    else some s
  | .stopExecution stopped =>
    some
      { s with
        harness :=
          { s.harness with
            client := s.harness.client && !stopped
            interrupted := true
            needsReconnect := true } }
  | .disconnect =>
    if s.turn.isSome then none else some { s with harness := { s.harness with client := false } }
  | .sessionId id =>
    some
      { s with
        harness := { s.harness with translator := { s.harness.translator with sessionId := some id } } }

def claudeSystem (contents : Contents κ ρ ε) : System (Session κ ρ ε) (Action κ) :=
  ⟨step contents⟩

end BackgroundAgents.Harness.Claude

import BackgroundAgents.Lib.Programs

/-!
# The callbacks of a Slack message

One message that came from Slack. While it is processing, tool calls
(`notifyToolCall`) and heartbeats (`refreshSlackActivity`) have the bot show that
the agent is working; once it is terminal, `notifyComplete` has the bot post the
reply. The bodies await authorization reads, signing and the requests themselves.

A request is noted with the step in which it started and the one in which it was
answered, failed or was aborted; what it carries is left out, as are the logs. The
timeout of a delivery attempt is an awaited operation that throws. The race of a
refresh with its deadline, and what follows it, is one step.
-/

namespace BackgroundAgents.Session.SlackActivity

open Programs

/-- The callback context of a message, as JSON. -/
structure Context where
  channel : Option String
  threadTs : Option String

/-- What the callbacks of the message go by. -/
structure Setup where
  /-- `some none` is a context that is not JSON -/
  callback_context : Option (Option Context)
  secret : Bool
  binding : Bool

structure SlackPostSession where
  ownerTeamId : Option String
  visibility : String

inductive SlackPostDenial where
  | missingSession
  | privateSession
  | channelTeamMismatch
  | invalidCallbackContext
  deriving DecidableEq

def slackPostGate (session : Option SlackPostSession) (binding : Option String) :
    Option SlackPostDenial :=
  match session with
  | none => some .missingSession
  | some session =>
    if session.visibility = "private" then some .privateSession
    else if binding ≠ session.ownerTeamId then some .channelTeamMismatch
    else none

inductive Endpoint where
  | toolCall
  | activity
  | complete
  | threadClosed
  deriving DecidableEq

/-- The bot turns these into a working indicator. -/
def Endpoint.working (endpoint : Endpoint) : Bool :=
  endpoint = .toolCall || endpoint = .activity

structure Request where
  call : Nat
  endpoint : Endpoint
  startedAt : Nat
  endedAt : Option Nat
  deriving DecidableEq

structure State where
  /-- the message is the processing one -/
  processing : Bool
  /-- the pending refresh of the message, by its call -/
  slackActivityRefreshes : Option Nat
  /-- the refreshes whose signal is aborted -/
  aborted : List Nat
  lastToolCallCallbackTs : Int
  lastSlackActivityAt : Int
  notifiedCallIds : List String
  now : Nat
  -- what happened so far
  calls : Nat
  completing : Bool
  /-- the tool calls under way, unless they were denied -/
  toolCalls : List Nat
  /-- the refreshes under way; a call that finds one pending is none of its own -/
  refreshing : List Nat
  requests : List Request

def State.initial : State where
  processing := true
  slackActivityRefreshes := none
  aborted := []
  lastToolCallCallbackTs := 0
  lastSlackActivityAt := 0
  notifiedCallIds := []
  now := 0
  calls := 0
  completing := false
  toolCalls := []
  refreshing := []
  requests := []

inductive CallbackOp where
  | yield
  | readPostScope
  | sign (endpoint : Endpoint)
  | fetch
  | sleep
  /-- `Promise.allSettled([refresh])` -/
  | refreshSettled (refresh : Nat)
  deriving DecidableEq

def CallbackOp.Answer : CallbackOp → Type
  | .readPostScope => Option SlackPostSession × Option String
  | .fetch => Bool
  | _ => Unit

inductive CallbackError where
  | aborted
  | failed

abbrev Callback := Program State CallbackOp CallbackOp.Answer CallbackError

/-! ## Requests -/

namespace State

def start (s : State) (call : Nat) (endpoint : Endpoint) : State :=
  { s with requests := s.requests ++ [{ call, endpoint, startedAt := s.now, endedAt := none }] }

/-- The open request of a call ends. -/
def finish (s : State) (call : Nat) : State :=
  { s with
    requests := s.requests.map fun r =>
      if r.call = call ∧ r.endedAt = none then { r with endedAt := some s.now } else r }

end State

def await (o : CallbackOp) : Callback o.Answer := Program.perform o

/-- `binding.fetch`; answers `response.ok`. -/
def fetch (call : Nat) (endpoint : Endpoint) : Callback Bool := do
  Program.modify (·.start call endpoint)
  await .fetch

/-- `signal.throwIfAborted()`. Only refreshes have a signal that is aborted from outside. -/
def throwIfAborted (call : Nat) : Callback Unit := do
  let aborted ← Program.gets fun s => s.aborted.contains call
  if aborted then Program.raise .aborted else return ()

def slackPostDenial (context : Context) : Callback (Option SlackPostDenial) :=
  match context.channel.filter (· ≠ "") with
  | none => do await .yield; return some .invalidCallbackContext
  | some _ => do
    let scope : Option SlackPostSession × Option String ← await .readPostScope
    return slackPostGate scope.1 scope.2

def hasSlackThreadCoordinates (context : Context) : Bool :=
  (context.channel.filter (· ≠ "")).isSome && (context.threadTs.filter (· ≠ "")).isSome

/-! ## Deliveries -/

def sendSlackThreadClosed (call : Nat) : Callback Bool := do
  await (.sign .threadClosed)
  throwIfAborted call
  fetch call .threadClosed

def deliverWithRetry (send : Callback Bool) : Nat → Callback Bool
  | 0 => return false
  | attempts + 1 => do
    let delivered ← Program.handle send fun _ => return false
    if delivered then return true
    else if attempts = 0 then return false
    else
      await .sleep
      deliverWithRetry send attempts

def notifySlackThreadClosed (call : Nat) (context : Context) : Callback Unit :=
  if hasSlackThreadCoordinates context then do
    let _ ← deliverWithRetry (sendSlackThreadClosed call) 2
    return ()
  else return ()

/-! ## Refreshes -/

/-- The authorization of a refresh; `false` where it goes no further. -/
def authorizeRefresh (call : Nat) (context : Context) : Callback Bool :=
  Program.handle
    (do
      let denial ← slackPostDenial context
      throwIfAborted call
      if denial.isSome then
        notifySlackThreadClosed call context
        return false
      else return true)
    fun _ => return false

def sendSlackActivityRefresh (setup : Setup) (call : Nat) (now : Int) : Callback Unit := do
  let last ← Program.gets (·.lastSlackActivityAt)
  if now - last < 60000 then return ()
  else
    match setup.callback_context with
    | some (some context) =>
      if setup.secret && setup.binding then
        let authorized ← authorizeRefresh call context
        if authorized then
          await (.sign .activity)
          throwIfAborted call
          let processing ← Program.gets (·.processing)
          if processing then
            Program.handle
              (do
                let ok ← fetch call .activity
                throwIfAborted call
                if ok then
                  Program.modify fun s =>
                    { s with lastSlackActivityAt := max s.lastSlackActivityAt now }
                else return ())
              fun _ => return ()
          else return ()
        else return ()
      else return ()
    | _ => return ()

/-- What follows the race: the deadline is cleared and the refresh forgotten. -/
def State.settleRefresh (s : State) (call : Nat) : State :=
  if s.slackActivityRefreshes = some call then { s with slackActivityRefreshes := none } else s

/-- The deadline fires: the signal is aborted, and with it the open request. -/
def State.deadline (s : State) (call : Nat) : State :=
  { s.finish call with aborted := s.aborted ++ [call], slackActivityRefreshes := none }

def refreshSlackActivity (setup : Setup) (call : Nat) (now : Int) : Callback Unit := do
  let pending ← Program.gets (·.slackActivityRefreshes.isSome)
  if pending then return ()
  else
    Program.modify fun s => { s with slackActivityRefreshes := some call }
    Program.handle (sendSlackActivityRefresh setup call now) fun _ => return ()
    Program.modify (·.settleRefresh call)

/-! ## Tool calls -/

def State.markCallIdNotified (s : State) (callId : String) : State :=
  let notified :=
    if s.notifiedCallIds.contains callId then s.notifiedCallIds else s.notifiedCallIds ++ [callId]
  { s with notifiedCallIds := if 500 < notified.length then notified.tail else notified }

/-- The authorization of a tool call; `false` where it goes no further. -/
def authorizeToolCall (call : Nat) (context : Context) : Callback Bool :=
  Program.handle
    (do
      let denial ← slackPostDenial context
      if denial.isSome then
        notifySlackThreadClosed call context
        return false
      else return true)
    fun _ => return false

def notifyToolCall (setup : Setup) (call : Nat) (callId : String) (now : Int) : Callback Unit := do
  let notified ← Program.gets fun s => callId ≠ "" && s.notifiedCallIds.contains callId
  if notified then return ()
  else
    match setup.callback_context with
    | none => return ()
    | some parsed =>
      if setup.secret && setup.binding then
        match parsed with
        | none => Program.raise .failed
        | some context =>
          let last ← Program.gets (·.lastToolCallCallbackTs)
          if now - last < 3000 then return ()
          else
            Program.modify fun s => { s with lastToolCallCallbackTs := now }
            let authorized ← authorizeToolCall call context
            if authorized then
              await (.sign .toolCall)
              Program.handle
                (do
                  let ok ← fetch call .toolCall
                  if ok then
                    Program.modify fun s =>
                      let s := if callId ≠ "" then s.markCallIdNotified callId else s
                      { s with lastSlackActivityAt := max s.lastSlackActivityAt now }
                  else return ())
                fun _ => return ()
            else return ()
      else return ()

/-! ## Completion -/

def sendComplete (call : Nat) : Callback Bool := do
  await (.sign .complete)
  fetch call .complete

/-- A denial that has no thread to close counts as delivered. -/
def sendDenied (call : Nat) (context : Context) : Callback Bool :=
  if hasSlackThreadCoordinates context then sendSlackThreadClosed call else return true

/-- The attempts that are left. `rejectReason` is kept from one to the next. -/
def deliverCompletion (call : Nat) (context : Context) :
    Nat → Option SlackPostDenial → Callback Unit
  | 0, _ => return ()
  | attempts + 1, rejectReason => do
    let read : Option (Option SlackPostDenial) ←
      match rejectReason with
      | some reason => pure (some (some reason))
      | none => Program.handle (do return some (← slackPostDenial context)) fun _ => return none
    let delivered ←
      match read with
      | none => pure false
      | some (some _) => Program.handle (sendDenied call context) fun _ => return false
      | some none => Program.handle (sendComplete call) fun _ => return false
    if delivered then return ()
    else if attempts = 0 then return ()
    else
      await .sleep
      deliverCompletion call context attempts read.join

def notifyComplete (setup : Setup) (call : Nat) : Callback Unit :=
  match setup.callback_context with
  | some (some context) => do
    let refresh ← Program.gets (·.slackActivityRefreshes)
    match refresh with
    | some refresh => await (.refreshSettled refresh)
    | none => pure ()
    if setup.secret && setup.binding then deliverCompletion call context 2 none
    else return ()
  | _ => return ()

/-! ## Calls in progress -/

inductive Call where
  | toolCall (callId : String) (now : Int)
  | refresh (now : Int)
  | deadline (refresh : Nat)
  /-- the message becomes terminal -/
  | finish
  | complete
  deriving DecidableEq

def Call.body (setup : Setup) (id : Nat) : Call → Callback Unit
  | .toolCall callId now => notifyToolCall setup id callId now
  | .refresh now => refreshSlackActivity setup id now
  | .deadline pending => Program.modify (·.deadline pending)
  | .finish => Program.modify fun s => { s with processing := false }
  | .complete => notifyComplete setup id

def State.tick (s : State) : State := { s with now := s.now + 1 }

/-- Tool calls and refreshes are made while the message is processing, the single `notifyComplete`
once it is terminal. -/
def Call.enter (id : Nat) (s : State) : Call → Option State
  | .toolCall _ _ => if s.processing then some { s with toolCalls := s.toolCalls ++ [id] } else none
  | .refresh _ =>
    if s.processing then
      some (if s.slackActivityRefreshes.isSome then s
        else { s with refreshing := s.refreshing ++ [id] })
    else none
  | .deadline pending => if s.slackActivityRefreshes = some pending then some s else none
  | .finish => some s
  | .complete => if !s.processing && !s.completing then some { s with completing := true } else none

inductive Choice where
  | done
  | scope (session : Option SlackPostSession) (binding : Option String)
  | response (ok : Bool)
  | throws

/-- A tool call that is denied goes no further. -/
def State.denied (s : State) (id : Nat) (denial : Option SlackPostDenial) : State :=
  if denial.isSome then { s with toolCalls := s.toolCalls.filter (· ≠ id) } else s

def CallbackOp.answer (id : Nat) (s : State) :
    (o : CallbackOp) → Choice → Option (Except CallbackError o.Answer × State)
  | .yield, .done => some (.ok (), s.denied id (some .invalidCallbackContext))
  | .readPostScope, .scope session binding =>
    some (.ok (session, binding), s.denied id (slackPostGate session binding))
  | .readPostScope, .throws => some (.error .failed, s)
  | .sign _, .done => some (.ok (), s)
  | .sign _, .throws => some (.error .failed, s)
  | .fetch, .response ok => if s.aborted.contains id then none else some (.ok ok, s.finish id)
  | .fetch, .throws => some (.error .failed, s.finish id)
  | .sleep, .done => some (.ok (), s)
  | .refreshSettled refresh, .done =>
    if s.slackActivityRefreshes = some refresh then none else some (.ok (), s)
  | _, _ => none

def callbackServer (setup : Setup) :
    Server State Call CallbackOp Choice CallbackOp.Answer CallbackError Unit where
  enter id call s := if s.calls ≤ id then call.enter id { s.tick with calls := id + 1 } else none
  body id call := call.body setup id
  answer id _ o choice s := o.answer id s.tick choice
  leave id _ _ s :=
    { s with
      toolCalls := s.toolCalls.filter (· ≠ id)
      refreshing := s.refreshing.filter (· ≠ id) }

end BackgroundAgents.Session.SlackActivity

import BackgroundAgents.Lib.Programs
import BackgroundAgents.Lib.Strings

/-!
# Pushing a branch through the sandbox

`SandboxPushService` sends the sandbox a push command and waits for the event
that answers it. The table of pending resolvers makes the two a promise; its key
is the repository and the branch, and there is no request id.

A promise is `unsettled`, or settled with its continuation queued (`settled`).
The continuation runs before the next timer or message does. What the sandbox
does with a command, and how often and how late its event arrives, is up to the
outside: an event that was emitted may arrive at any time, any number of times.

`toLowerCase` and `strip` are JavaScript's and Python's.
-/

namespace BackgroundAgents.Session.SandboxPush

open Programs

/-- What the service and the sandbox read of it. -/
structure GitPushSpec where
  repoOwner : String
  repoName : String
  targetBranch : String
  deriving DecidableEq

inductive PushOutcome where
  | complete
  | error (text : String)
  deriving DecidableEq

/-- `push_complete` or `push_error`. -/
structure PushTerminalEvent where
  outcome : PushOutcome
  branchName : Option String
  repoOwner : Option String
  repoName : Option String
  deriving DecidableEq

inductive Admission where
  | ready
  | unmanaged
  | held
  | notStarted
  deriving DecidableEq

inductive CommandTarget where
  | dispatch
  | booting
  | unavailable
  deriving DecidableEq

inductive PushFailure where
  | held
  | notStarted
  | inFlight (spec : GitPushSpec)
  | booting
  | disconnected
  /-- what the promise was rejected with -/
  | pushError (text : String)
  deriving DecidableEq

def PushFailure.message : PushFailure → String
  | .held => "Sandbox graceful shutdown is in progress; push is held"
  | .notStarted => "Sandbox must be started before pushing; retry once ready"
  | .inFlight spec =>
    "Push already in flight for " ++ spec.repoOwner ++ "/" ++ spec.repoName ++ " on branch " ++
      spec.targetBranch ++ "; retry once it completes"
  | .booting => "Sandbox is still starting; retry once it is ready"
  | .disconnected => "Sandbox is disconnected; retry once it is ready"
  | .pushError text => "Failed to push branch: Error: " ++ text

inductive PushResult where
  | success
  | failure (reason : PushFailure)
  deriving DecidableEq

/-! ## The state -/

/-- A command the sandbox was sent, by the call that sent it. -/
structure Command where
  call : Nat
  spec : GitPushSpec
  deriving DecidableEq

/-- The event of a command. -/
structure Emitted where
  command : Nat
  event : PushTerminalEvent
  deriving DecidableEq

inductive Cause where
  | event (e : Emitted)
  | timeout
  | undelivered
  deriving DecidableEq

structure Settlement where
  call : Nat
  result : Except String Unit

structure Returned where
  call : Nat
  result : PushResult
  deriving DecidableEq

structure State where
  /-- in insertion order; a resolver by the call that waits -/
  pendingPushResolvers : List (String × Nat)
  unsettled : List Nat
  settled : List Settlement
  /-- the armed timers, with their `resolverKey` -/
  timers : List (Nat × String)
  emitted : List Emitted
  -- what happened so far
  calls : Nat
  commands : List Command
  causes : List (Nat × Cause)
  returned : List Returned

def State.initial : State where
  pendingPushResolvers := []
  unsettled := []
  settled := []
  timers := []
  emitted := []
  calls := 0
  commands := []
  causes := []
  returned := []

variable (toLowerCase strip : String → String)

def pushResolverKey (repoOwner repoName branchName : String) : String :=
  toLowerCase repoOwner ++ "/" ++ toLowerCase repoName ++ "::" ++
    toLowerCase (String.ofList (Strings.trim branchName.toList))

def GitPushSpec.key (spec : GitPushSpec) : String :=
  pushResolverKey toLowerCase spec.repoOwner spec.repoName spec.targetBranch

/-- The texts JavaScript takes for true. -/
def truthy (text : Option String) : Option String := text.filter (· ≠ "")

/-- The key of an event that carries its full identity. -/
def PushTerminalEvent.key (event : PushTerminalEvent) : Option String := do
  let repoOwner ← truthy event.repoOwner
  let repoName ← truthy event.repoName
  let branchName ← truthy event.branchName
  return pushResolverKey toLowerCase repoOwner repoName branchName

/-- The event that answers a command; the sandbox echoes the fields it was given. -/
def GitPushSpec.answered (spec : GitPushSpec) (outcome : PushOutcome) : PushTerminalEvent where
  outcome
  branchName := some (strip spec.targetBranch)
  repoOwner := some (strip spec.repoOwner)
  repoName := some (strip spec.repoName)

def PushOutcome.result : PushOutcome → Except String Unit
  | .complete => .ok ()
  | .error text => .error (if text = "" then "Push failed" else text)

/-! ## Promises -/

namespace State

/-- `resolve` or `reject`; only the first one counts. -/
def settle (s : State) (call : Nat) (result : Except String Unit) (cause : Cause) : State :=
  if s.unsettled.contains call then
    { s with
      unsettled := s.unsettled.filter (· ≠ call)
      settled := s.settled ++ [{ call, result }]
      causes := s.causes ++ [(call, cause)] }
  else s

def resolver (s : State) (key : String) : Option (String × Nat) :=
  s.pendingPushResolvers.find? (·.1 = key)

def deleteResolver (s : State) (key : String) : State :=
  { s with pendingPushResolvers := s.pendingPushResolvers.filter (·.1 ≠ key) }

def clearTimeout (s : State) (call : Nat) : State :=
  { s with timers := s.timers.filter (·.1 ≠ call) }

/-- A new promise, with its resolver in the table and its timer armed. -/
def openPromise (s : State) (call : Nat) (key : String) : State :=
  { s with
    pendingPushResolvers := s.pendingPushResolvers ++ [(key, call)]
    unsettled := s.unsettled ++ [call]
    timers := s.timers ++ [(call, key)] }

/-- The timer's callback. -/
def timedOut (s : State) (call : Nat) (key : String) : State :=
  let s := s.clearTimeout call
  if (s.resolver key).isSome then
    (s.deleteResolver key).settle call (.error "Push operation timed out after 360 seconds")
      .timeout
  else s

end State

def findPushResolver (s : State) (event : PushTerminalEvent) : Option (String × Nat) :=
  match event.key toLowerCase with
  | some key => s.resolver key
  | none =>
    match s.pendingPushResolvers with
    | [sole] => some sole
    | _ => none

def settlePush (s : State) (e : Emitted) : State :=
  match findPushResolver toLowerCase s e.event with
  | none => s
  | some (key, call) => (s.settle call e.event.outcome.result (.event e)).deleteResolver key

/-! ## The call -/

inductive PushOp where
  /-- `await pushPromise` -/
  | settlement

abbrev Push := Program State PushOp (fun _ => Unit) String

/-- What the call finds: the admission, the socket, and whether the command was delivered. -/
structure Outside where
  admission : Admission
  target : CommandTarget
  delivered : Bool

/-- The command could not be delivered. -/
def undelivered (call : Nat) (key : String) (s : State) : State :=
  let resolver := s.resolver key
  let s := (s.deleteResolver key).clearTimeout call
  match resolver with
  | some (_, waiting) => s.settle waiting (.error "Failed to deliver push command to sandbox")
      .undelivered
  | none => s

/-- `try { await pushPromise; … } catch { … } finally { clearTimeout(timeoutId); }`. -/
def awaitPush (call : Nat) : Push PushResult := do
  let result ←
    Program.handle (do (Program.perform .settlement : Push Unit); return .success)
      fun text => return .failure (.pushError text)
  Program.modify (·.clearTimeout call)
  return result

def pushBranchToRemote (call : Nat) (spec : GitPushSpec) (outside : Outside) : Push PushResult :=
  match outside.admission with
  | .held => return .failure .held
  | .notStarted => return .failure .notStarted
  | _ => do
    let key := spec.key toLowerCase
    let pending ← Program.gets fun s => (s.resolver key).isSome
    if pending then
      return .failure (.inFlight spec)
    else
      match outside.target with
      | .booting => return .failure .booting
      | .unavailable =>
        return if outside.admission = .unmanaged then .success else .failure .disconnected
      | .dispatch =>
        Program.modify (·.openPromise call key)
        if outside.delivered then
          Program.modify fun s => { s with commands := s.commands ++ [{ call, spec }] }
        else
          Program.modify (undelivered call key)
        awaitPush call

/-! ## Calls in progress -/

inductive Call where
  | push (spec : GitPushSpec) (outside : Outside)
  /-- a timer fires -/
  | timeout (call : Nat) (key : String)
  /-- the sandbox ends a push -/
  | execute (command : Command) (outcome : PushOutcome)
  /-- `processSandboxEvent` of an event that arrives -/
  | event (e : Emitted)

def Call.body (call : Nat) : Call → Push (Option PushResult)
  | .push spec outside => do return some (← pushBranchToRemote toLowerCase call spec outside)
  | .timeout waiting key => do Program.modify (·.timedOut waiting key); return none
  | .execute command outcome => do
    Program.modify fun s => { s with
      emitted := s.emitted ++
        [{ command := command.call, event := command.spec.answered strip outcome }] }
    return none
  | .event e => do Program.modify (settlePush toLowerCase · e); return none

/-- Timers and messages run once no continuation is queued. The sandbox ends a push once, and an
event that arrives carries the repository and the branch. -/
def Call.possible (s : State) : Call → Bool
  | .push _ _ => true
  | .timeout waiting key => s.settled.isEmpty && s.timers.contains (waiting, key)
  | .execute command _ =>
    s.commands.contains command && !s.emitted.any (·.command = command.call)
  | .event e => s.settled.isEmpty && s.emitted.contains e && (e.event.key toLowerCase).isSome

def pushServer : Server State Call PushOp Unit (fun _ => Unit) String (Option PushResult) where
  enter id call s :=
    if s.calls ≤ id ∧ call.possible toLowerCase s then some { s with calls := id + 1 }
    else none
  body id call := call.body toLowerCase strip id
  answer id _ _ _ s :=
    (s.settled.find? (·.call = id)).map fun settlement =>
      (settlement.result, { s with settled := s.settled.filter (·.call ≠ id) })
  leave id _ result s :=
    match result with
    | .ok (some result) => { s with returned := s.returned ++ [{ call := id, result }] }
    | _ => s

end BackgroundAgents.Session.SandboxPush

import Mathlib.Data.Rat.Defs
import Mathlib.Algebra.Order.Ring.Unbundled.Rat

/-!
# Translating the messages of the Claude SDK

`ClaudeTranslator.translate` turns one message of the SDK into events of the bridge and,
for the result of the prompt, into its outcome. The CLI also starts turns on its own; they
are filtered out, but what they spend is charged to the prompt in flight. The SDK reports
a running total, so that two baselines say what of it was charged before: the
translator's, for the next prompt, and the turn's.

What assistant messages, stream events, tool results and notices emit is the parameter
`Contents`: those branches neither read nor write a baseline, and none of them has an
outcome. Trajectory records are left out.
-/

namespace BackgroundAgents.Harness.Claude

structure MessageOrigin where
  kind : String
  deriving DecidableEq, Repr

/-- Token counts that a result reported; `none` where it reported none. -/
structure ClaudeUsage where
  input : Option ℕ
  output : Option ℕ
  cacheRead : Option ℕ
  cacheWrite : Option ℕ
  deriving DecidableEq, Repr

namespace ClaudeUsage

def empty : ClaudeUsage := ⟨none, none, none, none⟩

def addCount (a b : Option ℕ) : Option ℕ :=
  match a, b with
  | none, b => b
  | a, none => a
  | some a, some b => some (a + b)

def add (a b : ClaudeUsage) : ClaudeUsage where
  input := addCount a.input b.input
  output := addCount a.output b.output
  cacheRead := addCount a.cacheRead b.cacheRead
  cacheWrite := addCount a.cacheWrite b.cacheWrite

/-- What the bridge is told: nothing when no count is known. -/
def tokens (usage : ClaudeUsage) : Option ClaudeUsage :=
  if usage = empty then none else some usage

end ClaudeUsage

structure ResultMessage where
  subtype : String
  isError : Bool
  totalCostUsd : Option ℚ
  origin : Option MessageOrigin
  usage : ClaudeUsage
  result : Option String
  errors : List String
  sessionId : String
  deriving DecidableEq, Repr

/-- A message of the SDK; `κ` is the content that has no say in costs. -/
inductive Message (κ : Type) where
  | conversationReset
  | user (origin : Option MessageOrigin) (content : κ)
  | result (message : ResultMessage)
  | other (content : κ)
  deriving DecidableEq, Repr

inductive Event (ε : Type) where
  | content (event : ε)
  | warning (scope message : String)
  | error (error messageId : String)
  | stepFinish (messageId stepId : String) (cost messageCostUsd : ℚ) (reason : String)
      (tokens : Option ClaudeUsage)
  deriving DecidableEq, Repr

structure TurnOutcome where
  success : Bool
  error : Option String
  cancelled : Bool
  messageCostUsd : Option ℚ
  deriving DecidableEq, Repr

def TurnOutcome.ok (cost : ℚ) : TurnOutcome := ⟨true, none, false, some cost⟩

def TurnOutcome.failed (error : String) (cost : ℚ) : TurnOutcome :=
  ⟨false, some error, false, some cost⟩

structure Translation (ε : Type) where
  events : List (Event ε)
  outcome : Option TurnOutcome
  deriving DecidableEq, Repr

/-- What the content of a turn leaves behind; `ρ` are its texts, tools and tasks. -/
structure Progress (ρ : Type) where
  stepId : Option String
  emittedError : Bool
  rest : ρ
  deriving DecidableEq, Repr

/-- How the content of a message is translated. -/
structure Contents (κ ρ ε : Type) where
  fresh : ρ
  translate : Progress ρ → κ → Progress ρ × List ε

structure ClaudeTurnState (ρ : Type) where
  messageId : String
  /-- `none`: no known running total to split the next result's cost from earlier turns. -/
  costBaseline : Option ℚ
  progress : Progress ρ
  /-- A turn that the session started is skipped until its result. -/
  injected : Bool
  /-- What such turns spent; it survives resets, which zero the running total. -/
  injectedCost : ℚ
  injectedUsage : ClaudeUsage
  deriving DecidableEq, Repr

/-- The state of a prompt that starts. -/
def ClaudeTurnState.started {ρ : Type} (messageId : String) (costBaseline : Option ℚ) (fresh : ρ) :
    ClaudeTurnState ρ :=
  ⟨messageId, costBaseline, ⟨none, false, fresh⟩, false, 0, .empty⟩

/-- The origin when it names a turn that the session started on its own. -/
def injectedOrigin : Option MessageOrigin → Option MessageOrigin
  | none => none
  | some origin => if origin.kind = "human" then none else some origin

structure ClaudeTranslator where
  sessionId : Option String
  costBaseline : Option ℚ
  sessionRotated : Bool
  deriving DecidableEq, Repr

def ClaudeTranslator.initial : ClaudeTranslator := ⟨none, some 0, false⟩

variable {κ ρ ε : Type}

/-- Whether a message belongs to an injected turn, and whether one is open after it. A result
without origin closes the injected turn that is open. -/
def belongsToInjectedTurn (state : ClaudeTurnState ρ) (message : Message κ) :
    Bool × ClaudeTurnState ρ :=
  match message with
  | .user origin _ =>
    let injected := state.injected || (injectedOrigin origin).isSome
    (injected, { state with injected })
  | .result message =>
    ((injectedOrigin message.origin).isSome || (state.injected && message.origin.isNone),
      { state with injected := false })
  | .conversationReset | .other _ => (state.injected, state)

/-- The spend of an injected turn, kept for the prompt in flight. -/
def ClaudeTurnState.accountInjected (state : ClaudeTurnState ρ) (message : ResultMessage) :
    ClaudeTurnState ρ :=
  let state := { state with injectedUsage := state.injectedUsage.add message.usage }
  match message.totalCostUsd with
  | none => state
  | some total =>
    let state :=
      match state.costBaseline with
      | none => state
      | some baseline => { state with injectedCost := state.injectedCost + max (total - baseline) 0 }
    { state with costBaseline := some total }

/-- The cost of the prompt, the baseline of the next one, and what cannot be told. -/
def messageCost (state : ClaudeTurnState ρ) (message : ResultMessage) :
    ℚ × Option ℚ × List (Event ε) :=
  match message.totalCostUsd with
  | none =>
    (state.injectedCost, none, [.warning "provider"
      "The Claude agent reported no cost for this turn; it is recorded as 0."])
  | some total =>
    match state.costBaseline with
    | none =>
      (state.injectedCost, some total, [.warning "provider"
        ("The Claude agent reported no cost for the previous turn, so this " ++
          "turn's cost cannot be separated from it; it is recorded as 0.")])
    | some baseline => (state.injectedCost + max (total - baseline) 0, some total, [])

/-- The first text that is not empty. -/
def errorDetail (message : ResultMessage) : String :=
  match message.result with
  | some text => if text ≠ "" then text else listed
  | none => listed
where
  listed : String :=
    let joined := "; ".intercalate message.errors
    if joined ≠ "" then joined else message.subtype

/-- The outcome of the prompt, and the error that nothing has told yet. -/
def resultOutcome (state : ClaudeTurnState ρ) (message : ResultMessage) (interrupted : Bool)
    (cost : ℚ) : TurnOutcome × List (Event ε) :=
  if interrupted then (⟨false, some "Task was cancelled", true, some cost⟩, [])
  else if message.isError || message.subtype ≠ "success" then
    let detail := errorDetail message
    (.failed detail cost,
      if state.progress.emittedError then [] else [.error detail state.messageId])
  else (.ok cost, [])

/-- The result of the prompt itself; `uuid` names a step that nothing started. -/
def ClaudeTranslator.translateResult (translator : ClaudeTranslator) (state : ClaudeTurnState ρ)
    (message : ResultMessage) (interrupted : Bool) (uuid : String) :
    Translation ε × ClaudeTranslator × ClaudeTurnState ρ :=
  let (cost, baseline, warnings) := messageCost state message
  let finish : Event ε := .stepFinish state.messageId (state.progress.stepId.getD uuid) cost cost
    message.subtype (state.injectedUsage.add message.usage).tokens
  let (outcome, errors) := resultOutcome state message interrupted cost
  (⟨warnings ++ [finish] ++ errors, some outcome⟩, { translator with costBaseline := baseline }, state)

/-- The result after a reset carries the id that the session is resumed by. -/
def ClaudeTranslator.rotate (translator : ClaudeTranslator) (message : ResultMessage) :
    ClaudeTranslator :=
  if translator.sessionRotated ∧ message.sessionId ≠ "" ∧
      some message.sessionId ≠ translator.sessionId then
    { translator with sessionId := some message.sessionId, sessionRotated := false }
  else translator

/-- What the content of a message emits, unless an injected turn hides it. -/
def ClaudeTurnState.translateContent (contents : Contents κ ρ ε) (state : ClaudeTurnState ρ)
    (content : κ) : Translation ε × ClaudeTurnState ρ :=
  let (progress, events) := contents.translate state.progress content
  (⟨events.map .content, none⟩, { state with progress })

/-- One message of the SDK. -/
def ClaudeTranslator.translate (contents : Contents κ ρ ε) (translator : ClaudeTranslator)
    (state : ClaudeTurnState ρ) (message : Message κ) (interrupted : Bool) (uuid : String) :
    Translation ε × ClaudeTranslator × ClaudeTurnState ρ :=
  match message with
  | .conversationReset =>
    -- A reset counts even inside a turn that is filtered out.
    (⟨[], none⟩, { translator with costBaseline := some 0, sessionRotated := true },
      { state with costBaseline := some 0 })
  | .result result =>
    let translator := translator.rotate result
    let (injected, state) := belongsToInjectedTurn state message
    if injected then (⟨[], none⟩, translator, state.accountInjected result)
    else translator.translateResult state result interrupted uuid
  | .user _ content | .other content =>
    let (injected, state) := belongsToInjectedTurn state message
    if injected then (⟨[], none⟩, translator, state)
    else
      let (translation, state) := state.translateContent contents content
      (translation, translator, state)

end BackgroundAgents.Harness.Claude

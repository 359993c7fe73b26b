import BackgroundAgents.Lib.Transition
import Mathlib.Data.List.Basic

/-!
# The event forwarder

`BufferedEventForwarder` of the sandbox runtime. Its coroutines suspend at two
places only: at `ws.send` (`_write`) and at the recovery lock. `State` keeps the
forwarder's own fields together with the coroutines that are suspended: the direct
sends parked on a write, the one coroutine that holds the recovery lock (parked on
a write of its flush or of its resend), and the queue of the lock. A `Step` is one
call from outside, or the end of one suspension with everything the coroutine does
up to its next one; the event loop runs nothing else in between.

Events are told apart by the call of `send` that made them (`Event.call`), which is
Python's identity `is` for them and the order in which they were sent. The texts
that `send` does not look at are left out, and every event serialises and fits the
size limit.

A write is numbered by its call of `ws.send`, which is the order in which a
connection carries what it is given. The fields of `Forwarder` from `called` on note
what happened. No step reads them, except that numbers for calls and writes are
taken from there.
-/

namespace BackgroundAgents.Sandbox

open BackgroundAgents.Transition

abbrev AckId := String

/-- A connection, by identity. -/
abbrev Ws := Nat

inductive EventType where
  | executionComplete
  | error
  | snapshotReady
  | pushComplete
  | pushError
  | preservationPrepared
  | sandboxGenerationReady
  | other (name : String)
  deriving DecidableEq, Repr

def EventType.text : EventType → String
  | .executionComplete => "execution_complete"
  | .error => "error"
  | .snapshotReady => "snapshot_ready"
  | .pushComplete => "push_complete"
  | .pushError => "push_error"
  | .preservationPrepared => "preservation_prepared"
  | .sandboxGenerationReady => "sandbox_generation_ready"
  | .other name => name

/-- `CRITICAL_EVENT_TYPES`. -/
def criticalEventTypes : List EventType :=
  [.executionComplete, .error, .snapshotReady, .pushComplete, .pushError,
    .preservationPrepared, .sandboxGenerationReady]

/-- The event that a caller passes to `send`. -/
structure SandboxEvent where
  type : EventType
  messageId : Option String := none
  operationId : Option String := none
  /-- `generation.sandboxId` and `generation.createdAt`. -/
  generation : Option (String × Nat) := none
  ackId : Option AckId := none
  deriving DecidableEq, Repr

/-- An event as the forwarder holds it. -/
structure Event where
  call : Nat
  type : EventType
  messageId : Option String
  ackId : Option AckId
  deriving DecidableEq, Repr

def Event.isCritical (e : Event) : Bool := e.type ∈ criticalEventTypes

/-- `ack_id`: only a critical event is waited for. -/
def Event.ackKey (e : Event) : Option AckId := if e.isCritical then e.ackId else none

/-- The texts Python takes for true. -/
def truthy (text : Option String) : Option String := text.filter (· ≠ "")

/-- `_make_ack_id`; `token` is what `secrets.token_hex` returns. -/
def makeAckId (event : SandboxEvent) (token : String) : AckId :=
  match truthy event.operationId with
  | some operationId => event.type.text ++ ":" ++ operationId
  | none =>
    match event.type, event.generation with
    | .sandboxGenerationReady, some (sandboxId, createdAt) =>
      event.type.text ++ ":" ++ sandboxId ++ ":" ++ toString createdAt
    | _, _ =>
      match truthy event.messageId with
      | some messageId => event.type.text ++ ":" ++ messageId
      | none => event.type.text ++ ":" ++ token

/-- The event that call number `call` of `send` goes on with. -/
def SandboxEvent.prepared (event : SandboxEvent) (call : Nat) (token : String) : Event where
  call
  type := event.type
  messageId := event.messageId
  ackId :=
    if event.type ∈ criticalEventTypes ∧ event.ackId = none then some (makeAckId event token)
    else event.ackId

/-- One call of `ws.send`. -/
structure Write where
  seq : Nat
  event : Event
  ws : Ws
  deriving DecidableEq, Repr

/-! ## Events by ackId -/

/-- `acks.get(ack_id)`. -/
def lookup (acks : List Event) (ackId : AckId) : Option Event :=
  acks.find? (·.ackKey = some ackId)

/-- `acks.pop(ack_id, None)`. -/
def without (acks : List Event) (ackId : AckId) : List Event :=
  acks.filter (·.ackKey ≠ some ackId)

/-- `acks[ack_id] = event`. -/
def putAck (acks : List Event) (ackId : AckId) (event : Event) : List Event :=
  without acks ackId ++ [event]

/-! ## The forwarder -/

/-- An event that overflow dropped, with the buffer it was dropped from. -/
structure Eviction where
  event : Event
  buffer : List Event
  deriving DecidableEq, Repr

/-- A `bind` under way. `owed` notes what was held, unacknowledged and not in flight
when it began. -/
structure Bind where
  ws : Ws
  pendingBeforeBind : List AckId
  owed : List Event
  deriving DecidableEq, Repr

/-- A `bind` that returned; `clean` when its connection was still open then, with no
write on it that did not succeed. -/
structure Recovered where
  ws : Ws
  owed : List Event
  clean : Bool
  deriving DecidableEq, Repr

structure Forwarder where
  ws : Option Ws := none
  eventBuffer : List Event := []
  pendingAcks : List Event := []
  inFlightAcks : List Event := []
  cancelledWriteWs : Option Ws := none
  /-- Connections whose state is no longer `OPEN`. -/
  closing : List Ws := []
  /-- Connections that are gone: no write on them succeeds any more. -/
  ended : List Ws := []
  /-- Every event of a `send`, with `buffered`. -/
  called : List (Event × Bool) := []
  acknowledged : List Event := []
  evictions : List Eviction := []
  bound : List Ws := []
  /-- How many times `ws.send` was called. -/
  writes : Nat := 0
  written : List Write := []
  /-- Connections with a write that failed, timed out or was cancelled. -/
  unwritten : List Ws := []
  recovered : List Recovered := []
  deriving DecidableEq, Repr

/-- The forwarder's setting. -/
structure Settings where
  maxBufferSize : Nat
  positive : 0 < maxBufferSize

namespace Forwarder

variable (f : Forwarder)

/-- `ws.state == State.OPEN`. -/
def isOpen (ws : Ws) : Bool := ws ∉ f.closing ∧ ws ∉ f.ended

/-- The bound connection, if it is open. -/
def openWs : Option Ws := f.ws.filter f.isOpen

/-- `_retire_timed_out_connection` -/
def retireTimedOutConnection (ws : Ws) : Forwarder :=
  { f with ws := if f.ws = some ws then none else f.ws, ended := ws :: f.ended }

/-- `self._pending_acks.get(ack_id) is event`. -/
def isPending (event : Event) (ackId : AckId) : Bool := lookup f.pendingAcks ackId = some event

/-- The event becomes visible to acknowledgements before its write. -/
def claim (event : Event) : Forwarder :=
  match event.ackKey with
  | none => f
  | some ackId =>
    { f with
      pendingAcks := putAck f.pendingAcks ackId event
      inFlightAcks := putAck f.inFlightAcks ackId event }

/-- `_clear_in_flight` -/
def clearInFlight (event : Event) : Forwarder :=
  match event.ackKey with
  | none => f
  | some ackId =>
    if lookup f.inFlightAcks ackId = some event then
      { f with inFlightAcks := without f.inFlightAcks ackId }
    else f

/-- What overflow drops, and what it leaves: the oldest non-critical event, or the
oldest of all. -/
def evict (buffer : List Event) : Option (Event × List Event) :=
  match buffer.find? (!·.isCritical) with
  | some event => some (event, buffer.eraseP (!·.isCritical))
  | none => match buffer with
    | [] => none
    | event :: rest => some (event, rest)

/-- `_buffer_event` -/
def bufferEvent (cfg : Settings) (event : Event) : Forwarder :=
  if cfg.maxBufferSize ≤ f.eventBuffer.length then
    match evict f.eventBuffer with
    | none => f
    | some (evicted, rest) =>
      { f with
        eventBuffer := rest ++ [event]
        evictions := ⟨evicted, f.eventBuffer⟩ :: f.evictions }
  else { f with eventBuffer := f.eventBuffer ++ [event] }

/-- `acknowledge` -/
def acknowledge (ackId : AckId) : Forwarder :=
  match lookup f.pendingAcks ackId with
  | none => f
  | some event =>
    { f with
      pendingAcks := without f.pendingAcks ackId
      acknowledged := event :: f.acknowledged }

/-! ### One write -/

inductive Outcome where
  | ok
  | failed
  | timedOut
  | cancelled
  /-- The deadline of `_drain_if_rebound` cancelled it. -/
  | deadline
  deriving DecidableEq, Repr

/-- `ws.send` is called. -/
def beginWrite : Forwarder := { f with writes := f.writes + 1 }

/-- What a finished `_write` leaves behind: the transport verdict. -/
def endWrite (w : Write) : Outcome → Forwarder
  | .ok => { f with written := w :: f.written }
  | .timedOut =>
    { f.retireTimedOutConnection w.ws with unwritten := w.ws :: f.unwritten }
  | .failed | .cancelled | .deadline => { f with unwritten := w.ws :: f.unwritten }

/-! ### After an attempt that did not succeed -/

/-- Neither acknowledged nor without an owner: the attempt may be repeated. -/
def replayable (event : Event) : Bool :=
  match event.ackKey with
  | none => true
  | some ackId => f.isPending event ackId

/-- The attempt takes its event back out of the pending ones. -/
def unclaim (event : Event) : Forwarder :=
  match event.ackKey with
  | none => f
  | some ackId =>
    if f.isPending event ackId then { f with pendingAcks := without f.pendingAcks ackId } else f

/-- A direct send puts its event into the buffer, unless it was acknowledged or is
not to be buffered. -/
def rebuffer (cfg : Settings) (event : Event) (buffered : Bool) : Forwarder :=
  if buffered ∧ f.replayable event then (f.unclaim event).bufferEvent cfg event
  else f.unclaim event

/-- `self._event_buffer.pop(0)` where the head is still this event. -/
def popHead (event : Event) : Forwarder :=
  if f.eventBuffer.head? = some event then { f with eventBuffer := f.eventBuffer.tail } else f

/-- A flush leaves its event in the buffer, unless it was acknowledged. -/
def unclaimHead (event : Event) : Forwarder :=
  if f.replayable event then f.unclaim event else f.popHead event

/-- The deadline of a drain has passed: the connection its cancelled write was parked
on is retired. -/
def rebindDeadline : Forwarder :=
  match f.cancelledWriteWs with
  | none => f
  | some stalled => { f with cancelledWriteWs := none }.retireTimedOutConnection stalled

/-- `bind` returns. -/
def bindDone (b : Bind) : Forwarder :=
  { f with recovered := ⟨b.ws, b.owed, f.isOpen b.ws && b.ws ∉ f.unwritten⟩ :: f.recovered }

end Forwarder

open Forwarder (Outcome)

/-! ## Suspended coroutines -/

/-- A direct send parked on its write. -/
structure Sending where
  write : Write
  buffered : Bool
  deriving DecidableEq, Repr

/-- Who walks the buffer: the drain of a failed direct send, or a `bind`. -/
inductive Owner where
  | drain (event : Event)
  | bind (b : Bind)
  deriving DecidableEq, Repr

def Owner.bind? : Owner → Option Bind
  | .drain _ => none
  | .bind b => some b

/-- The holder of the recovery lock, parked on a write. -/
inductive Recovery where
  | flushing (owner : Owner) (write : Write)
  | resending (b : Bind) (rest : List AckId) (write : Write)
  deriving DecidableEq, Repr

structure State where
  f : Forwarder := {}
  sends : List Sending := []
  holder : Option Recovery := none
  /-- Waiting for the lock, in the order they asked for it. -/
  waiters : List Owner := []
  deriving DecidableEq, Repr

namespace State

/-- `_resend_pending` from `ackIds` on, to its next write or to the end of the bind. -/
def resendPending (s : State) (b : Bind) : List AckId → State
  | [] => { s with f := s.f.bindDone b }
  | ackId :: rest =>
    match lookup s.f.pendingAcks ackId with
    | none => s.resendPending b rest
    | some event =>
      match s.f.openWs with
      | none => { s with f := s.f.bindDone b }
      | some ws =>
        { s with
          f := s.f.beginWrite
          holder := some (.resending b rest ⟨s.f.writes, event, ws⟩) }

/-- `to_resend`: what was pending before the flush and still is. -/
def toResend (s : State) (b : Bind) : List AckId :=
  b.pendingBeforeBind.filter fun ackId => (lookup s.f.pendingAcks ackId).isSome

/-- `_flush_buffer` has returned: a drain's `send` ends, a bind resends. -/
def flushed (s : State) : Owner → State
  | .drain event => { s with f := s.f.clearInFlight event }
  | .bind b => s.resendPending b (s.toResend b)

/-- The head of the loop of `_flush_buffer`. -/
def flushBuffer (s : State) (owner : Owner) : State :=
  match s.f.eventBuffer, s.f.openWs with
  | event :: _, some ws =>
    { s with
      f := (s.f.claim event).beginWrite
      holder := some (.flushing owner ⟨s.f.writes, event, ws⟩) }
  | _, _ => s.flushed owner

/-- `async with self._recovery_lock`. -/
def acquire (s : State) (owner : Owner) : State :=
  if s.holder = none ∧ s.waiters = [] then s.flushBuffer owner
  else { s with waiters := s.waiters ++ [owner] }

/-- `_drain_if_rebound`, to its first suspension. -/
def drainIfRebound (s : State) (event : Event) (failedWs : Ws) : State :=
  if s.f.openWs = none ∨ s.f.openWs = some failedWs then
    { s with f := s.f.clearInFlight event }
  else { s with f := { s.f with cancelledWriteWs := none } }.acquire (.drain event)

/-- The rest of `send` once its own write is over. -/
def settleSend (cfg : Settings) (s : State) (p : Sending) (outcome : Outcome) : State :=
  let event := p.write.event
  let f := s.f.endWrite p.write outcome
  match outcome with
  | .ok => { s with f := f.clearInFlight event }
  | .cancelled | .deadline =>
    { s with f := (f.rebuffer cfg event p.buffered).clearInFlight event }
  | .failed | .timedOut =>
    let cleared := f.clearInFlight event
    let s := { s with f := cleared.rebuffer cfg event p.buffered }
    if p.buffered ∧ cleared.replayable event then s.drainIfRebound event p.write.ws
    else { s with f := s.f.clearInFlight event }

/-- A cancelled recovery: `send` clears its mark, `bind` has nothing to clear. -/
def abandon (s : State) : Owner → State
  | .drain event => { s with f := s.f.clearInFlight event }
  | .bind _ => s

/-- The head of the buffer was written. -/
def headWritten (s : State) (w : Write) : State :=
  { s with
    f := ((s.f.endWrite w .ok).clearInFlight w.event).popHead w.event
    holder := none }

/-- The head of the buffer was not written; a cancelled write leaves its connection to
whoever has the deadline. -/
def headKept (s : State) (w : Write) (outcome : Outcome) : State :=
  let f := (s.f.endWrite w outcome).unclaimHead w.event
  let f := match outcome with
    | .cancelled | .deadline => { f with cancelledWriteWs := some w.ws }
    | .ok | .failed | .timedOut => f
  { s with f := f.clearInFlight w.event, holder := none }

/-- A write of `_flush_buffer` is over. -/
def settleFlush (s : State) (owner : Owner) (w : Write) (outcome : Outcome) : State :=
  match outcome with
  | .ok => (s.headWritten w).flushBuffer owner
  | .failed | .timedOut => (s.headKept w outcome).flushed owner
  | .cancelled => (s.headKept w outcome).abandon owner
  | .deadline =>
    let s := s.headKept w outcome
    { s with f := s.f.rebindDeadline }.abandon owner

/-- A write of `_resend_pending` is over. -/
def settleResend (s : State) (b : Bind) (rest : List AckId) (w : Write) (outcome : Outcome) :
    State :=
  let s := { s with f := s.f.endWrite w outcome, holder := none }
  match outcome with
  | .ok => s.resendPending b rest
  | .failed | .timedOut => { s with f := s.f.bindDone b }
  | .cancelled | .deadline => s

/-- The binds that wait for the lock. -/
def waitingBinds (s : State) : List Bind := s.waiters.filterMap Owner.bind?

/-- The binds under way. -/
def binds (s : State) : List Bind :=
  match s.holder with
  | some (.flushing (.bind b) _) | some (.resending b _ _) => b :: s.waitingBinds
  | _ => s.waitingBinds

end State

/-! ## Steps -/

inductive Step where
  | send (event : SandboxEvent) (buffered : Bool) (token : String)
  | bind (ws : Ws)
  | unbind
  | acknowledge (ackId : AckId)
  /-- The connection leaves the state `OPEN`. -/
  | closing (ws : Ws)
  /-- The connection is gone. -/
  | ended (ws : Ws)
  /-- The write of a direct send ends. -/
  | sent (i : Nat) (outcome : Outcome)
  /-- The write of the holder of the lock ends. -/
  | recovered (outcome : Outcome)
  /-- The lock goes to the first waiter. -/
  | grant
  /-- A waiter is cancelled, or its drain's deadline passes. -/
  | leave (i : Nat) (outcome : Outcome)
  deriving DecidableEq, Repr

namespace State

/-- The event that the next call of `send` makes. -/
def nextEvent (s : State) (event : SandboxEvent) (token : String) : Event :=
  event.prepared s.f.called.length token

/-- `send`, to its write. -/
def send (cfg : Settings) (s : State) (event : Event) (buffered : Bool) : State :=
  let f := { s.f with called := (event, buffered) :: s.f.called }
  match f.openWs with
  | none => if buffered then { s with f := f.bufferEvent cfg event } else { s with f }
  | some ws =>
    { s with
      f := (f.claim event).beginWrite
      sends := s.sends ++ [⟨⟨f.writes, event, ws⟩, buffered⟩] }

/-- `pending_before_bind`. -/
def pendingBeforeBind (s : State) : List AckId :=
  (s.f.pendingAcks.filterMap (·.ackKey)).filter fun ackId =>
    (lookup s.f.inFlightAcks ackId).isNone

/-- What a bind that begins now owes its connection. -/
def owed (s : State) : List Event :=
  (s.f.eventBuffer ++ s.f.pendingAcks).filter fun e =>
    e.isCritical ∧ e ∉ s.f.inFlightAcks ∧ e ∉ s.f.acknowledged

/-- `bind`, to its first suspension. -/
def bind (s : State) (ws : Ws) : State :=
  { s with f := { s.f with ws := some ws, bound := ws :: s.f.bound } }.acquire
    (.bind ⟨ws, s.pendingBeforeBind, s.owed⟩)

def leave (s : State) (i : Nat) : Owner → Outcome → Option State
  | owner, .cancelled => some ({ s with waiters := s.waiters.eraseIdx i }.abandon owner)
  | .drain event, .deadline =>
    some ({ s with waiters := s.waiters.eraseIdx i, f := s.f.rebindDeadline }.abandon
      (.drain event))
  | _, _ => none

/-- The holder's write ends; only a drain has a deadline of its own. -/
def recover (s : State) : Recovery → Outcome → Option State
  | .flushing (.bind _) _, .deadline | .resending _ _ _, .deadline => none
  | .flushing owner w, outcome => some (s.settleFlush owner w outcome)
  | .resending b rest w, outcome => some (s.settleResend b rest w outcome)

def step (cfg : Settings) (s : State) : Step → Option State
  | .send event buffered token => some (s.send cfg (s.nextEvent event token) buffered)
  | .bind ws => some (s.bind ws)
  | .unbind => some { s with f := { s.f with ws := none } }
  | .acknowledge ackId => some { s with f := s.f.acknowledge ackId }
  | .closing ws => some { s with f := { s.f with closing := ws :: s.f.closing } }
  | .ended ws => some { s with f := { s.f with ended := ws :: s.f.ended } }
  | .sent i outcome =>
    if outcome = .deadline then none
    else s.sends[i]?.map fun p =>
      { s with sends := s.sends.eraseIdx i }.settleSend cfg p outcome
  | .recovered outcome => s.holder.bind (s.recover · outcome)
  | .grant =>
    match s.holder, s.waiters with
    | none, owner :: waiters => some ({ s with waiters }.flushBuffer owner)
    | _, _ => none
  | .leave i outcome => s.waiters[i]?.bind (s.leave i · outcome)

end State

/-- The forwarder with its coroutines. -/
def forwarder (cfg : Settings) : System State Step := ⟨State.step cfg⟩

/-- A write succeeds only while its connection has not ended. -/
def State.answers (s : State) (w : Write) : Outcome → Prop
  | .ok => w.ws ∉ s.f.ended
  | _ => True

/-- The write that the holder of the lock is parked on. -/
def State.holderWrite (s : State) : Option Write :=
  s.holder.map fun
    | .flushing _ w => w
    | .resending _ _ w => w

/-- What the forwarder is promised: distinct ackIds; one owner, who binds each
connection once and neither binds nor unbinds while a bind of his is under way; and a
write never reports success after its connection has ended. -/
def Assumed (s : State) : Step → Prop
  | .send event _ token =>
    ∀ p ∈ s.f.called, p.1.ackKey ≠ none → p.1.ackKey ≠ (s.nextEvent event token).ackKey
  | .bind ws => ws ∉ s.f.bound ∧ s.binds = []
  | .unbind => s.binds = []
  | .sent i outcome => ∀ p ∈ s.sends[i]?, s.answers p.write outcome
  | .recovered outcome => ∀ w ∈ s.holderWrite, s.answers w outcome
  | .acknowledge _ | .closing _ | .ended _ | .grant | .leave _ _ => True

instance (s : State) (w : Write) : ∀ outcome, Decidable (s.answers w outcome)
  | .ok => inferInstanceAs (Decidable (w.ws ∉ s.f.ended))
  | .failed | .timedOut | .cancelled | .deadline => inferInstanceAs (Decidable True)

instance (s : State) : ∀ a, Decidable (Assumed s a)
  | .send event _ token =>
    inferInstanceAs (Decidable (∀ p ∈ s.f.called,
      p.1.ackKey ≠ none → p.1.ackKey ≠ (s.nextEvent event token).ackKey))
  | .bind ws => inferInstanceAs (Decidable (ws ∉ s.f.bound ∧ s.binds = []))
  | .unbind => inferInstanceAs (Decidable (s.binds = []))
  | .sent i outcome =>
    inferInstanceAs (Decidable (∀ p ∈ s.sends[i]?, s.answers p.write outcome))
  | .recovered outcome =>
    inferInstanceAs (Decidable (∀ w ∈ s.holderWrite, s.answers w outcome))
  | .acknowledge _ | .closing _ | .ended _ | .grant | .leave _ _ =>
    inferInstanceAs (Decidable True)

end BackgroundAgents.Sandbox

import BackgroundAgents.Lib.Transition
import BackgroundAgents.Session.Types

/-!
# The session's alarm

`PersistedAlarmDeadlineStore`, `createEarliestAlarmScheduler` and
`handleAlarmDelivery`: one row of storage and the runtime's single alarm slot,
kept together by operations that await the runtime in between.

`AlarmState` is both of them with whatever is suspended. The operations go
through `serialize`, so one of them runs at a time, and one that waits for its
turn has done nothing yet: a step `start` is its turn. From there `perform` is
the moment the runtime's call takes effect and `resume` the code after the
await. A delivery runs beside them: `fire` empties the slot, `beginDelivery` is
the first turn of `handleAlarmDelivery`, and `handled`, `threw`, `rearm` and
`complete` are its later ones. What the handler does is any of the other steps.
The runtime delivers one alarm at a time, and a delivery that threw, or that a
restart cut off, is delivered again: the slot is armed at a time the runtime
picks, or sooner if it is armed already.

The results are `no_deadline_lost` and, next to it, the run in which the code
does lose one.
-/

namespace BackgroundAgents.Session

open BackgroundAgents.Transition

/-! ## `PersistedAlarmDeadlineStore` -/

/-- The row of `session_alarm_state`. -/
structure AlarmStateRow where
  pendingDeadline : Option Millis := none
  inFlightDeadline : Option Millis := none
  cancelled : Bool := false
  deriving DecidableEq, Repr

/-- `session_alarm_state`: its single row, once something has been written. -/
abbrev AlarmDeadlines := Option AlarmStateRow

namespace AlarmDeadlines

def pending (d : AlarmDeadlines) : Option Millis :=
  d.bind AlarmStateRow.pendingDeadline

def cancelled (d : AlarmDeadlines) : Bool :=
  (d.map AlarmStateRow.cancelled).getD false

def inFlight (d : AlarmDeadlines) : Option Millis :=
  d.bind AlarmStateRow.inFlightDeadline

def earliest (d : AlarmDeadlines) : Option Millis :=
  match d with
  | none => none
  | some state =>
    if state.cancelled then none
    else
      match state.pendingDeadline, state.inFlightDeadline with
      | some p, some f => some (min p f)
      | some p, none => some p
      | none, f => f

def setPending (d : AlarmDeadlines) (deadline : Millis) : AlarmDeadlines :=
  match d with
  | none => some { pendingDeadline := some deadline }
  | some state => some { state with pendingDeadline := some deadline }

def setPendingEarliest (d : AlarmDeadlines) (deadline : Millis) : AlarmDeadlines :=
  match d with
  | none => some { pendingDeadline := some deadline }
  | some state =>
    some { state with
      pendingDeadline :=
        match state.pendingDeadline with
        | none => some deadline
        | some p => some (min p deadline) }

def activate (d : AlarmDeadlines) : AlarmDeadlines :=
  d.map fun state => { state with cancelled := false }

def clear (_ : AlarmDeadlines) : AlarmDeadlines :=
  some { pendingDeadline := none, inFlightDeadline := none, cancelled := true }

/-- What `beginDelivery` answers. -/
inductive Begun where
  | cancelled
  | delivered (deadline : Option Millis)
  deriving DecidableEq, Repr

def beginDelivery (d : AlarmDeadlines) : Begun × AlarmDeadlines :=
  match d with
  | none => (.delivered none, none)
  | some state =>
    if state.cancelled then (.cancelled, some state)
    else
      let begun :=
        { state with
          inFlightDeadline := state.inFlightDeadline <|> state.pendingDeadline
          pendingDeadline :=
            match state.inFlightDeadline with
            | none => none
            | some _ => state.pendingDeadline }
      (.delivered begun.inFlightDeadline, some begun)

def completeDelivery (d : AlarmDeadlines) : AlarmDeadlines :=
  d.map fun state => { state with inFlightDeadline := none }

end AlarmDeadlines

/-! ## The scheduler and the delivery -/

/-- The operations that `serialize` runs one at a time. -/
inductive SchedulerOp where
  | schedule (timestamp : Millis)
  | cancel
  | rehydrate
  | rearmPending
  deriving DecidableEq, Repr

/-- The runtime call an operation awaits, with what it does afterwards. -/
inductive RuntimeCall where
  /-- `getAlarm`, to arm `deadline` unless the alarm is as early. -/
  | getAlarm (deadline : Millis)
  /-- `setAlarm`, then `activate` for an operation that found the row cancelled. -/
  | setAlarm (deadline : Millis) (activates : Bool)
  /-- `deleteAlarm`, then `setAlarm` and `activate`, or nothing for `cancel`. -/
  | deleteAlarm (deadline : Option Millis) (activates : Bool)
  deriving DecidableEq, Repr

/-- What a call does to the alarm. -/
def RuntimeCall.effect (call : RuntimeCall) (alarm : Option Millis) : Option Millis :=
  match call with
  | .getAlarm _ => alarm
  | .setAlarm deadline _ => some deadline
  | .deleteAlarm _ _ => none

inductive CallAnswer where
  | resolved (alarm : Option Millis)
  | rejected
  deriving DecidableEq, Repr

/-- How a call ends; one that fails may have taken effect all the same. -/
inductive CallOutcome where
  | succeeds
  | fails (applied : Bool)
  deriving DecidableEq, Repr

def CallOutcome.tookEffect : CallOutcome → Bool
  | .succeeds => true
  | .fails applied => applied

def CallOutcome.answer (outcome : CallOutcome) (alarm : Option Millis) : CallAnswer :=
  match outcome with
  | .succeeds => .resolved alarm
  | .fails _ => .rejected

/-- The operation in progress: the call it awaits, and its answer once there is one. -/
structure RunningOp where
  call : RuntimeCall
  answer : Option CallAnswer := none
  deriving DecidableEq, Repr

/-- Where `handleAlarmDelivery` is. -/
inductive Delivery where
  | idle
  /-- The alarm has fired and `beginDelivery` has not run. -/
  | fired
  /-- At `handle()`. -/
  | handling (delivered : Option Millis)
  /-- `handle()` has returned and `rearm()` waits for its turn. -/
  | handled (delivered : Millis)
  /-- At `rearm()`, which is the operation in progress. -/
  | rearming (delivered : Millis)
  /-- `rearm()` has returned. -/
  | rearmed (delivered : Millis)
  /-- `rearm()` has thrown. -/
  | rearmFailed (delivered : Millis)
  deriving DecidableEq, Repr

structure AlarmState where
  deadlines : AlarmDeadlines
  /-- The runtime's alarm. -/
  alarm : Option Millis
  running : Option RunningOp := none
  delivery : Delivery := .idle
  /-- The last operation has succeeded. -/
  succeeded : Bool := false
  /-- `setPendingEarliest` has been called directly since the last operation began. -/
  written : Bool := false
  /-- Since the last operation began, the runtime has armed the empty slot itself, to
  repeat a delivery that has not succeeded. -/
  redelivering : Bool := false
  deriving DecidableEq, Repr

inductive AlarmAct where
  | start (op : SchedulerOp)
  | perform (outcome : CallOutcome)
  | resume
  | setPendingEarliest (deadline : Millis)
  | fire
  | beginDelivery
  | handled
  | threw (retryAt : Millis)
  | rearm
  | complete
  | restart (retryAt : Millis)
  deriving DecidableEq, Repr

namespace AlarmState

abbrev pending (s : AlarmState) : Option Millis := s.deadlines.pending

abbrev cancelled (s : AlarmState) : Bool := s.deadlines.cancelled

/-- The operation in progress suspends at `call`. -/
def await (s : AlarmState) (call : RuntimeCall) : AlarmState :=
  { s with running := some { call := call } }

/-- The operation in progress ends, and `rearm()` with it if it was that. -/
def finish (s : AlarmState) (success : Bool) : AlarmState :=
  { s with
    running := none
    succeeded := success
    delivery :=
      match s.delivery with
      | .rearming delivered => if success then .rearmed delivered else .rearmFailed delivered
      | stage => stage }

/-- The deadline `schedule` keeps. -/
def sooner (persisted : Option Millis) (timestamp : Millis) : Millis :=
  match persisted with
  | none => timestamp
  | some p => if timestamp < p then timestamp else p

/-- The first turn of an operation. -/
def startOp (s : AlarmState) : SchedulerOp → AlarmState
  | .schedule timestamp =>
    let cancelled := s.deadlines.cancelled
    let persisted := s.deadlines.pending
    let next := sooner persisted timestamp
    let stored :=
      if some next ≠ persisted then { s with deadlines := s.deadlines.setPending next } else s
    if cancelled then stored.await (.deleteAlarm (some next) true)
    else stored.await (.getAlarm next)
  | .cancel => { s with deadlines := s.deadlines.clear }.await (.deleteAlarm none false)
  | .rehydrate =>
    if s.deadlines.cancelled then s.await (.deleteAlarm s.deadlines.pending true)
    else
      match s.deadlines.earliest with
      | none => s.finish true
      | some deadline => s.await (.getAlarm deadline)
  | .rearmPending =>
    match s.deadlines.pending with
    | none => s.finish true
    | some pending => s.await (.getAlarm pending)

/-- An operation gets its turn. -/
def begin (s : AlarmState) (op : SchedulerOp) : AlarmState :=
  { s with succeeded := false, written := false, redelivering := false }.startOp op

/-- The moment a call takes effect, or fails. -/
def perform (s : AlarmState) (call : RuntimeCall) (outcome : CallOutcome) : AlarmState :=
  { s with
    alarm := if outcome.tookEffect then call.effect s.alarm else s.alarm
    running := some ⟨call, some (outcome.answer s.alarm)⟩ }

/-- The end of an operation that found the row cancelled. -/
def reactivated (s : AlarmState) (activates : Bool) : AlarmState :=
  if activates then { s with deadlines := s.deadlines.activate }.finish true else s.finish true

/-- The code after an await. -/
def resume (s : AlarmState) (call : RuntimeCall) : CallAnswer → AlarmState
  | .rejected => s.finish false
  | .resolved runtime =>
    match call with
    | .getAlarm deadline =>
      if runtime.all (deadline < ·) then s.await (.setAlarm deadline false) else s.finish true
    | .setAlarm _ activates => s.reactivated activates
    | .deleteAlarm (some deadline) activates => s.await (.setAlarm deadline activates)
    | .deleteAlarm none activates => s.reactivated activates

/-- The runtime repeats a delivery that did not succeed. -/
def redeliver (s : AlarmState) (retryAt : Millis) : AlarmState :=
  { s with
    delivery := .idle
    alarm :=
      match s.alarm with
      | none => some retryAt
      | some armed => some (min armed retryAt)
    redelivering := s.redelivering || s.alarm.isNone }

/-- The first turn of `handleAlarmDelivery`. -/
def beginDelivery (s : AlarmState) : AlarmState :=
  match s.deadlines.beginDelivery with
  | (.cancelled, deadlines) => { s with deadlines := deadlines, delivery := .idle }
  | (.delivered delivered, deadlines) =>
    { s with deadlines := deadlines, delivery := .handling delivered }

/-- `handle()` has returned. -/
def handled (s : AlarmState) : Option Millis → AlarmState
  | none => { s with delivery := .idle }
  | some delivered => { s with delivery := .handled delivered }

end AlarmState

def alarmStep (s : AlarmState) : AlarmAct → Option AlarmState
  | .start op =>
    match s.running with
    | none => some (s.begin op)
    | some _ => none
  | .perform outcome =>
    match s.running with
    | some ⟨call, none⟩ => some (s.perform call outcome)
    | _ => none
  | .resume =>
    match s.running with
    | some ⟨call, some answer⟩ => some (s.resume call answer)
    | _ => none
  | .setPendingEarliest deadline =>
    some { s with deadlines := s.deadlines.setPendingEarliest deadline, written := true }
  | .fire =>
    match s.delivery, s.alarm with
    | .idle, some _ => some { s with alarm := none, delivery := .fired, redelivering := false }
    | _, _ => none
  | .beginDelivery =>
    match s.delivery with
    | .fired => some s.beginDelivery
    | _ => none
  | .handled =>
    match s.delivery with
    | .handling delivered => some (s.handled delivered)
    | _ => none
  | .threw retryAt =>
    match s.delivery with
    | .handling _ | .rearmFailed _ => some (s.redeliver retryAt)
    | _ => none
  | .rearm =>
    match s.delivery, s.running with
    | .handled delivered, none =>
      some ({ s with delivery := .rearming delivered }.begin .rearmPending)
    | _, _ => none
  | .complete =>
    match s.delivery with
    | .rearmed _ =>
      some { s with deadlines := s.deadlines.completeDelivery, delivery := .idle }
    | _ => none
  | .restart retryAt =>
    let stopped := { s with running := none, succeeded := s.succeeded && s.running.isNone }
    match s.delivery with
    | .idle => some stopped
    | _ => some (stopped.redeliver retryAt)

def alarmSystem : System AlarmState AlarmAct where
  step := alarmStep

end BackgroundAgents.Session

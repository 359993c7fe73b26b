import BackgroundAgents.Lib.Programs
import Mathlib.Logic.Function.Basic

/-!
# The Slack bot's thread sessions

One thread of one channel. Its session is kept in a key-value store that has
nothing but single reads and writes: a record under the thread's key, and for
each session a tombstone that says it is closed and a marker that the thread was
told. Entries do not expire here.

Every function is a `Program` that awaits the store, so that the calls below may
overlap at every access. `State` notes what a reader of the store cannot see: the
closures that found or wrote their tombstone, the reopenings that deleted it, and
the answers given.
-/

namespace BackgroundAgents.SlackBot

open Programs

/-! ## Slack timestamps -/

/-- `replace(/^0+(?=\d)/, "")`. -/
def stripZeros (digits : List Char) : List Char :=
  match digits.dropWhile (· = '0') with
  | [] => digits.take 1
  | rest => rest

/-- The two groups of `/^(\d+)\.(\d+)$/`. -/
def timestampParts (ts : String) : Option (List Char × List Char) :=
  let seconds := ts.toList.takeWhile Char.isDigit
  match ts.toList.dropWhile Char.isDigit with
  | '.' :: fraction =>
    if seconds ≠ [] ∧ fraction ≠ [] ∧ fraction.all Char.isDigit then
      some (stripZeros seconds, fraction)
    else none
  | _ => none

def padEnd (digits : List Char) (length : Nat) : List Char :=
  digits ++ List.replicate (length - digits.length) '0'

/-- `none` is the `TypeError` of an invalid timestamp. -/
def compareSlackTimestamps (left right : String) : Option Int := do
  let (leftSeconds, leftFraction) ← timestampParts left
  let (rightSeconds, rightFraction) ← timestampParts right
  if leftSeconds.length ≠ rightSeconds.length then
    return if leftSeconds.length < rightSeconds.length then -1 else 1
  if leftSeconds ≠ rightSeconds then
    return if leftSeconds < rightSeconds then -1 else 1
  let fractionLength := max leftFraction.length rightFraction.length
  let normalizedLeft := padEnd leftFraction fractionLength
  let normalizedRight := padEnd rightFraction fractionLength
  if normalizedLeft = normalizedRight then
    return 0
  return if normalizedLeft < normalizedRight then -1 else 1

example : compareSlackTimestamps "00010.100" "10.1" = some 0 := by decide

/-! ## Records -/

structure ThreadSession where
  sessionId : String
  /-- absent on records from before channel bindings; `some none` is `null` -/
  teamId : Option (Option String)
  closed : Bool
  repoId : String
  repoFullName : String
  model : String
  reasoningEffort : Option String
  createdAt : Int
  lastPromptTs : Option String
  deriving DecidableEq

/-- What `threadSessionSchema` asks of a record beyond its types. -/
def ThreadSession.parses (session : ThreadSession) : Bool :=
  session.sessionId ≠ "" ∧ (∀ team ∈ session.teamId, team ≠ some "") ∧ session.repoId ≠ "" ∧
    session.repoFullName ≠ "" ∧ session.model ≠ "" ∧ session.reasoningEffort ≠ some "" ∧
    0 ≤ session.createdAt ∧ session.lastPromptTs ≠ some ""

def withoutClosure (session : ThreadSession) : ThreadSession := { session with closed := false }

/-! ## The store -/

/-- A single access; a tombstone or a marker that is there holds `"1"`. -/
inductive KvOp where
  | getThread
  | putThread (session : ThreadSession)
  | deleteThread
  | getClosure (sessionId : String)
  | putClosure (sessionId : String)
  | deleteClosure (sessionId : String)
  | getNotice (sessionId : String)
  | putNotice (sessionId : String)
  | deleteNotice (sessionId : String)

def KvOp.Answer : KvOp → Type
  | .getThread => Option ThreadSession
  | .getClosure _ | .getNotice _ => Bool
  | _ => Unit

/-- A closure that found or wrote its tombstone. -/
structure Marked where
  sessionId : String
  calledAt : Nat

/-- A tombstone deleted by a reopening, whose access check was made at `checkedAt`. -/
structure Lifted where
  sessionId : String
  checkedAt : Nat
  liftedAt : Nat

/-- A closure that returned. -/
structure Returned where
  sessionId : String
  calledAt : Nat
  returnedAt : Nat

/-- An answer about a session, by `isThreadSessionClosed` or with the record looked up. -/
structure Answered where
  sessionId : String
  closed : Bool
  askedAt : Nat
  answeredAt : Nat

structure State where
  thread : Option ThreadSession
  closures : String → Bool
  notices : String → Bool
  now : Nat
  -- what happened so far
  closing : List String
  marked : List Marked
  lifted : List Lifted
  returned : List Returned
  records : List ThreadSession
  answered : List Answered

inductive KvError where
  | unavailable
  | invalidTimestamp (left right : String)

abbrev Kv := Program State KvOp KvOp.Answer KvError

/-! ## The functions -/

def kv (o : KvOp) : Kv o.Answer := Program.perform o

def hasThreadClosure (sessionId : String) : Kv Bool := kv (.getClosure sessionId)

/-- `!session.closed && (await hasThreadClosure(…))`. -/
def findsClosure (session : ThreadSession) : Kv Bool :=
  if session.closed then pure false else hasThreadClosure session.sessionId

def lookupThreadSession : Kv (Option ThreadSession) :=
  Program.handle
    (do
      let data : Option ThreadSession ← kv .getThread
      match data.filter ThreadSession.parses with
      | none => return none
      | some session =>
        let found ← findsClosure session
        return some (if found then { session with closed := true } else session))
    fun _ => return none

def storeThreadSession (session : ThreadSession) : Kv Unit :=
  Program.handle
    (do
      let found ← findsClosure session
      let stored := if found then { session with closed := true } else session
      kv (.putThread stored))
    fun _ => return ()

def isThreadSessionClosed (sessionId : String) : Kv Bool := do
  let mapping ← lookupThreadSession
  match mapping.filter (·.sessionId = sessionId) with
  | some session => return session.closed
  | none => hasThreadClosure sessionId

def closeThreadSession (sessionId : String) : Kv Unit := do
  let found ← hasThreadClosure sessionId
  if found then
    return ()
  else
    kv (.putClosure sessionId)
    let mapping ← lookupThreadSession
    match mapping.filter (·.sessionId = sessionId) with
    | some session => storeThreadSession { session with closed := true }
    | none => return ()

def reopenThreadSession (session : ThreadSession) : Kv ThreadSession := do
  kv (.deleteClosure session.sessionId)
  kv (.deleteNotice session.sessionId)
  let mapping ← lookupThreadSession
  match mapping.filter fun mapping => mapping.sessionId = session.sessionId ∧ mapping.closed with
  | some closed =>
    storeThreadSession (withoutClosure closed)
    return withoutClosure session
  | none => return withoutClosure session

def isThreadClosureNoticeSent (sessionId : String) : Kv Bool :=
  kv (.getNotice sessionId)

def markThreadClosureNoticeSent (sessionId : String) : Kv Unit :=
  kv (.putNotice sessionId)

def clearThreadSession : Kv Unit :=
  Program.handle (kv .deleteThread) fun _ => return ()

/-- A record that was looked up has no empty `lastPromptTs`. -/
def advanceLastPromptTs (promptTs : String) : Kv Unit := do
  let current ← lookupThreadSession
  match current.filter (!·.closed) with
  | none => return ()
  | some current =>
    match current.lastPromptTs with
    | none => storeThreadSession { current with lastPromptTs := some promptTs }
    | some last =>
      match compareSlackTimestamps last promptTs with
      | none => Program.raise (.invalidTimestamp last promptTs)
      | some order =>
        if 0 ≤ order then return ()
        else storeThreadSession { current with lastPromptTs := some promptTs }

/-! ## Calls in progress -/

inductive Request where
  | lookup
  | isClosed (sessionId : String)
  | store (session : ThreadSession)
  | advance (promptTs : String)
  | clear
  | close (sessionId : String)
  /-- after an access check that was made at `checkedAt` -/
  | reopen (session : ThreadSession) (checkedAt : Nat)
  | isNoticeSent (sessionId : String)
  | markNoticeSent (sessionId : String)
  deriving DecidableEq

structure Call where
  request : Request
  calledAt : Nat

inductive Result where
  | record (session : Option ThreadSession)
  | flag (value : Bool)
  | unit

def Call.body (call : Call) : Kv Result :=
  match call.request with
  | .lookup => do return .record (← lookupThreadSession)
  | .isClosed sessionId => do return .flag (← isThreadSessionClosed sessionId)
  | .store session => do storeThreadSession session; return .unit
  | .advance promptTs => do advanceLastPromptTs promptTs; return .unit
  | .clear => do clearThreadSession; return .unit
  | .close sessionId => do closeThreadSession sessionId; return .unit
  | .reopen session _ => do return .record (some (← reopenThreadSession session))
  | .isNoticeSent sessionId => do return .flag (← isThreadClosureNoticeSent sessionId)
  | .markNoticeSent sessionId => do markThreadClosureNoticeSent sessionId; return .unit

/-- How an access ends. One that failed may have landed. -/
inductive KvEnd where
  | done
  | failed (landed : Bool)
  deriving DecidableEq

def KvOp.read (s : State) : (o : KvOp) → o.Answer
  | .getThread => s.thread
  | .getClosure sessionId => s.closures sessionId
  | .getNotice sessionId => s.notices sessionId
  | .putThread _ | .deleteThread | .putClosure _ | .deleteClosure _ | .putNotice _
  | .deleteNotice _ => ()

def KvOp.effect (s : State) : KvOp → State
  | .getThread | .getClosure _ | .getNotice _ => s
  | .putThread session => { s with thread := some session }
  | .deleteThread => { s with thread := none }
  | .putClosure sessionId => { s with closures := Function.update s.closures sessionId true }
  | .deleteClosure sessionId => { s with closures := Function.update s.closures sessionId false }
  | .putNotice sessionId => { s with notices := Function.update s.notices sessionId true }
  | .deleteNotice sessionId => { s with notices := Function.update s.notices sessionId false }

/-- The access by `call`, in the notes. Only closures put a tombstone. -/
def Call.note (call : Call) (o : KvOp) (s : State) : State :=
  match o with
  | .getClosure sessionId =>
    if call.request = .close sessionId ∧ s.closures sessionId then
      { s with marked := s.marked ++ [{ sessionId, calledAt := call.calledAt }] }
    else s
  | .putClosure sessionId =>
    { s with marked := s.marked ++ [{ sessionId, calledAt := call.calledAt }] }
  | .deleteClosure sessionId =>
    match call.request with
    | .reopen _ checkedAt =>
      { s with lifted := s.lifted ++ [{ sessionId, checkedAt, liftedAt := s.now }] }
    | _ => s
  | _ => s

def State.tick (s : State) : State := { s with now := s.now + 1 }

/-- An answer is noted where it is given. -/
def Call.leave (call : Call) (result : Except KvError Result) (s : State) : State :=
  match call.request, result with
  | .lookup, .ok (.record (some session)) =>
    { s with
      records := s.records ++ [session]
      answered := s.answered ++
        [{ sessionId := session.sessionId, closed := session.closed,
           askedAt := call.calledAt, answeredAt := s.now }] }
  | .isClosed sessionId, .ok (.flag closed) =>
    { s with
      answered := s.answered ++
        [{ sessionId, closed, askedAt := call.calledAt, answeredAt := s.now }] }
  | .close sessionId, .ok _ =>
    { s with
      returned := s.returned ++ [{ sessionId, calledAt := call.calledAt, returnedAt := s.now }] }
  | _, _ => s

/-- A record that is stored was looked up before or is open. -/
def Call.enter (call : Call) (s : State) : Option State :=
  if call.calledAt = s.now + 1 then
    match call.request with
    | .store session =>
      if session.closed = false ∨ session ∈ s.records then some s.tick else none
    | .close sessionId => some { s.tick with closing := s.closing ++ [sessionId] }
    | .reopen _ checkedAt => if checkedAt ≤ s.now then some s.tick else none
    | _ => some s.tick
  else none

def Call.answer (call : Call) (o : KvOp) (kvEnd : KvEnd) (s : State) :
    Except KvError o.Answer × State :=
  match kvEnd with
  | .done => (.ok (o.read s), call.note o (o.effect s.tick))
  | .failed true => (.error .unavailable, call.note o (o.effect s.tick))
  | .failed false => (.error .unavailable, s.tick)

def threadServer : Server State Call KvOp KvEnd KvOp.Answer KvError Result where
  enter _ call s := call.enter s
  body _ call := call.body
  answer _ call o kvEnd s := some (call.answer o kvEnd s)
  leave _ call result s := call.leave result s

def State.initial : State where
  thread := none
  closures := fun _ => false
  notices := fun _ => false
  now := 0
  closing := []
  marked := []
  lifted := []
  returned := []
  records := []
  answered := []

end BackgroundAgents.SlackBot

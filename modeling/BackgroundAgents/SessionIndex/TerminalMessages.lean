import BackgroundAgents.SessionIndex.Rows
import BackgroundAgents.Lib.Transition
import BackgroundAgents.Lib.Workers
import Mathlib.Data.Prod.Lex

/-!
# Latest terminal messages

The index keeps the latest terminal message of each session, by its creation
time and then its id; the inbox and the read states are computed from it. A
session's runtime records each message that ends there
(`recordTerminalMessage`): two attempts, and then one pending entry in its own
store, which the alarm retries (`flushPending`) until the index took it or
eight deferred attempts failed.

`TerminalMessages` is the system of these calls. A write that was issued takes
effect at any time, as often as it likes, also after its call failed or the
runtime restarted; a call that is told of success finds it in effect.

Messages are compared by `TerminalMessage.key`, to which the comparisons of
the statements are taken back once (`newer_iff`, `through_iff`). The invariant
is that each message whose recording ended is `Covered`: the row, the pending
entry or an abandoned one is at or after it.
-/

namespace BackgroundAgents.SessionIndex

open Transition

/-- The order of terminal messages. -/
def TerminalMessage.key (m : TerminalMessage) : Millis ×ₗ MessageId := toLex (m.createdAt, m.id)

/-! ## The index -/

/-- Whether the statement of `recordLatestTerminalMessage` rewrites a row. -/
def recordsOver (sessionId : SessionId) (m : TerminalMessage) (r : SessionRow) : Bool :=
  r.id = sessionId &&
    match r.latestTerminalMessage with
    | none => true
    | some latest =>
      latest.createdAt < m.createdAt || (latest.createdAt = m.createdAt && latest.id < m.id)

/-- `SessionIndexStore.recordLatestTerminalMessage`; the statement fails where a rewritten row
would not meet the table's `CHECK`, that a message completes no earlier than it was created. -/
def recordLatestTerminalMessage (index : SessionTable) (sessionId : SessionId)
    (m : TerminalMessage) : Option SessionTable :=
  if index.rows.any (recordsOver sessionId m) && m.completedAt < m.createdAt then none
  else
    some (index.update (recordsOver sessionId m) fun r =>
      { r with latestTerminalMessage := some m })

/-! ## The pending entry -/

structure PendingTerminalMessageProjection extends TerminalMessage where
  /-- Alarm-driven attempts so far; the inline attempts are not counted. -/
  attempts : Nat
  nextAttemptAt : Millis
  deriving DecidableEq, Repr

abbrev PendingSlot := Option PendingTerminalMessageProjection

/-- Whether `setPending` replaces an entry. -/
def newer (m entry : TerminalMessage) : Bool :=
  entry.createdAt < m.createdAt || (m.createdAt = entry.createdAt && entry.id < m.id)

/-- Keeps whichever message is newer; the same message keeps its retry metadata. -/
def setPending (slot : PendingSlot) (entry : PendingTerminalMessageProjection) : PendingSlot :=
  match slot with
  | none => some entry
  | some p => if newer entry.toTerminalMessage p.toTerminalMessage then some entry else some p

/-- Applies only while the named message is still the pending one. -/
def recordFailedAttempt (slot : PendingSlot) (m : TerminalMessage) (attempts : Nat)
    (nextAttemptAt : Millis) : PendingSlot :=
  slot.map fun p =>
    if p.id = m.id ∧ p.createdAt = m.createdAt then { p with attempts, nextAttemptAt } else p

/-- Whether `clearThrough` drops an entry. -/
def through (m entry : TerminalMessage) : Bool :=
  entry.createdAt < m.createdAt || (entry.createdAt = m.createdAt && entry.id ≤ m.id)

/-- Drops the pending entry unless it is newer than the message that landed. -/
def clearThrough (slot : PendingSlot) (m : TerminalMessage) : PendingSlot :=
  slot.filter fun p => !through m p.toTerminalMessage

def deferredRetryBaseMs : Millis := 5000
def deferredRetryMaxMs : Millis := 5 * 60000
def deferredRetryMaxAttempts : Nat := 8

def deferredRetryDelayMs (attempts : Nat) : Millis :=
  min (deferredRetryBaseMs * 2 ^ attempts) deferredRetryMaxMs

/-! ## The calls -/

/-- The await that a call of `SessionTerminalMessageProjection` is at. -/
inductive ProjectionCall where
  /-- The first and the second write of `recordTerminalMessage`. -/
  | recording (m : TerminalMessage)
  | retrying (m : TerminalMessage)
  /-- `armRetry` of the message that was deferred. -/
  | deferring (m : TerminalMessage)
  /-- The write of `flushPending`, with the entry and the time it read. -/
  | flushing (p : PendingTerminalMessageProjection) (now : Millis)
  /-- `armRetry` of `flushPending` or `rearm`. -/
  | arming
  deriving DecidableEq, Repr

/-- The write to the index that the call awaits. -/
def ProjectionCall.write : ProjectionCall → Option TerminalMessage
  | .recording m | .retrying m => some m
  | .flushing p _ => some p.toTerminalMessage
  | .deferring _ | .arming => none

structure TerminalState where
  /-- The public id of the session, which has a row in its own store as it has messages. -/
  sessionId : SessionId
  index : SessionTable
  pending : PendingSlot := none
  calls : List ProjectionCall := []
  /-- Every write that was issued to the index. -/
  writes : List TerminalMessage := []
  /-- The deadlines that `alarmScheduler.schedule` was called with. -/
  armed : List Millis := []
  /-- The messages whose recording ended, and was not interrupted by a restart. -/
  recorded : List TerminalMessage := []
  /-- The entries of which a deferred attempt failed, once for each attempt. -/
  failed : List (Millis ×ₗ MessageId) := []
  /-- The entries that were given up. -/
  abandoned : List TerminalMessage := []

inductive TerminalStep where
  | recordTerminalMessage (m : TerminalMessage)
  | flushPending (now : Millis)
  | rearm
  /-- The `k`-th write that was issued takes effect. -/
  | land (k : Nat)
  /-- Call `i` is told that what it awaits succeeded, or failed; `now` is the clock then. -/
  | answered (i : Nat) (now : Millis)
  | refused (i : Nat) (now : Millis)
  | restart
  deriving DecidableEq, Repr

namespace TerminalState

/-- A call begins at an await. -/
def begin (s : TerminalState) (c : ProjectionCall) : TerminalState :=
  { s with
    calls := s.calls ++ [c]
    writes := c.write.toList ++ s.writes }

/-- The write took effect, where the statement does not fail. -/
def landed (s : TerminalState) (m : TerminalMessage) : Option TerminalState :=
  (recordLatestTerminalMessage s.index s.sessionId m).map fun index => { s with index }

def next (s : TerminalState) (i : Nat) (c : Option ProjectionCall) : TerminalState :=
  { s with
    calls := advance s.calls i c
    writes := (c.bind ProjectionCall.write).toList ++ s.writes }

/-- A call goes on after the success of what it awaits. -/
def succeed (s : TerminalState) (i : Nat) : ProjectionCall → Option TerminalState
  | .recording m | .retrying m =>
    (s.landed m).map fun s =>
      { s.next i none with
        pending := clearThrough s.pending m
        recorded := m :: s.recorded }
  | .flushing p _ =>
    (s.landed p.toTerminalMessage).map fun s =>
      { s.next i none with pending := clearThrough s.pending p.toTerminalMessage }
  | .deferring m => some { s.next i none with recorded := m :: s.recorded }
  | .arming => some (s.next i none)

/-- A call goes on after the failure of what it awaits. -/
def fail (s : TerminalState) (i : Nat) (now : Millis) : ProjectionCall → TerminalState
  | .recording m => s.next i (some (.retrying m))
  | .retrying m =>
    let nextAttemptAt := now + deferredRetryDelayMs 0
    { s.next i (some (.deferring m)) with
      pending := setPending s.pending { m with attempts := 0, nextAttemptAt }
      armed := nextAttemptAt :: s.armed }
  | .flushing p readAt =>
    let attempts := p.attempts + 1
    if deferredRetryMaxAttempts ≤ attempts then
      { s.next i none with
        pending := clearThrough s.pending p.toTerminalMessage
        failed := p.key :: s.failed
        abandoned := p.toTerminalMessage :: s.abandoned }
    else
      let nextAttemptAt := readAt + deferredRetryDelayMs attempts
      -- a newer message may have replaced the entry during the await
      { s.next i (some .arming) with
        pending := recordFailedAttempt s.pending p.toTerminalMessage attempts nextAttemptAt
        failed := p.key :: s.failed
        armed := nextAttemptAt :: s.armed }
  -- `armRetry` never fails its caller
  | .deferring m => { s.next i none with recorded := m :: s.recorded }
  | .arming => s.next i none

def step (s : TerminalState) : TerminalStep → Option TerminalState
  | .recordTerminalMessage m => some (s.begin (.recording m))
  | .flushPending now =>
    match s.pending with
    | none => some s
    | some p =>
      if now < p.nextAttemptAt then
        some { s.begin .arming with armed := p.nextAttemptAt :: s.armed }
      else some (s.begin (.flushing p now))
  | .rearm =>
    match s.pending with
    | none => some s
    | some p => some { s.begin .arming with armed := p.nextAttemptAt :: s.armed }
  | .land k => s.writes[k]?.bind s.landed
  | .answered i _ => s.calls[i]?.bind (s.succeed i)
  | .refused i now => s.calls[i]?.map (s.fail i now)
  | .restart => some { s with calls := [] }

end TerminalState

/-- One session's projection of its terminal messages. -/
def terminalMessages : System TerminalState TerminalStep where
  step := TerminalState.step

/-! ## The statements, by the key -/

section Statements

variable {m entry : TerminalMessage}

theorem key_lt_iff :
    m.key < entry.key ↔
      m.createdAt < entry.createdAt ∨ (m.createdAt = entry.createdAt ∧ m.id < entry.id) :=
  Prod.Lex.toLex_lt_toLex

theorem key_le_iff :
    m.key ≤ entry.key ↔
      m.createdAt < entry.createdAt ∨ (m.createdAt = entry.createdAt ∧ m.id ≤ entry.id) :=
  Prod.Lex.toLex_le_toLex

theorem newer_iff : newer m entry = true ↔ entry.key < m.key := by
  rw [newer, Bool.or_eq_true, Bool.and_eq_true, decide_eq_true_eq, decide_eq_true_eq,
    decide_eq_true_eq, key_lt_iff, eq_comm (a := m.createdAt)]

theorem through_iff : through m entry = true ↔ entry.key ≤ m.key := by
  rw [through, Bool.or_eq_true, Bool.and_eq_true, decide_eq_true_eq, decide_eq_true_eq,
    decide_eq_true_eq, key_le_iff]

/-- What `clearThrough` does to an entry. -/
theorem clearThrough_cases (e : PendingTerminalMessageProjection) (m : TerminalMessage) :
    clearThrough (some e) m = some e ∨ (clearThrough (some e) m = none ∧ e.key ≤ m.key) := by
  rw [clearThrough, Option.filter_some]
  cases ht : through m e.toTerminalMessage with
  | false => exact .inl rfl
  | true => exact .inr ⟨rfl, through_iff.mp ht⟩

/-- What `setPending` leaves is at or after both entries, and one of them. -/
theorem setPending_spec (slot : PendingSlot) (entry : PendingTerminalMessageProjection) :
    ∃ q, setPending slot entry = some q ∧ entry.key ≤ q.key ∧
      (∀ e, slot = some e → e.key ≤ q.key) ∧ (q = entry ∨ slot = some q) := by
  cases slot with
  | none => exact ⟨entry, rfl, le_rfl, fun _ h => absurd h.symm (Option.some_ne_none _), .inl rfl⟩
  | some p =>
    rw [setPending]
    split
    next hnew =>
      refine ⟨entry, rfl, le_rfl, ?_, .inl rfl⟩
      intro e he
      cases he
      exact le_of_lt (newer_iff.mp hnew)
    next hold =>
      refine ⟨p, rfl, ?_, ?_, .inr rfl⟩
      · exact not_lt.mp fun hlt => hold (newer_iff.mpr hlt)
      · intro e he
        cases he
        exact le_rfl

/-- `recordFailedAttempt` keeps the entry's message, and re-dates only the one it names. -/
theorem recordFailedAttempt_spec (e : PendingTerminalMessageProjection) (m : TerminalMessage)
    (attempts : Nat) (nextAttemptAt : Millis) :
    ∃ q, recordFailedAttempt (some e) m attempts nextAttemptAt = some q ∧ q.key = e.key ∧
      (q = e ∨ (q.key = m.key ∧ q.attempts = attempts)) := by
  rw [recordFailedAttempt, Option.map_some]
  split
  next h => exact ⟨_, rfl, rfl, .inr ⟨by rw [TerminalMessage.key, h.1, h.2]; rfl, rfl⟩⟩
  next => exact ⟨e, rfl, rfl, .inl rfl⟩

end Statements

/-- The session's row is at or after `k`. -/
def RowAt (index : SessionTable) (sessionId : SessionId) (k : Millis ×ₗ MessageId) : Prop :=
  ∃ r latest, index.get? sessionId = some r ∧ r.latestTerminalMessage = some latest ∧
    k ≤ latest.key

theorem RowAt.earlier {index : SessionTable} {id : SessionId} {k k' : Millis ×ₗ MessageId}
    (h : RowAt index id k) (hle : k' ≤ k) : RowAt index id k' := by
  obtain ⟨r, latest, hr, hl, hk⟩ := h
  exact ⟨r, latest, hr, hl, hle.trans hk⟩

variable {m : TerminalMessage}

/-- **A write only moves the row forward**, up to its message at least. -/
theorem recordLatestTerminalMessage_spec {index index' : SessionTable} {id : SessionId}
    (h : recordLatestTerminalMessage index id m = some index') {r : SessionRow}
    (hr : index.get? id = some r) :
    ∃ r' latest, index'.get? id = some r' ∧ r'.latestTerminalMessage = some latest ∧
      m.key ≤ latest.key ∧ ∀ l, r.latestTerminalMessage = some l → l.key ≤ latest.key := by
  unfold recordLatestTerminalMessage at h
  split at h
  next => cases h
  next =>
    cases h
    have hid : r.id = id := Table.key_of_get? hr
    rw [Table.get?_update, hr, Option.map_some]
    split
    next hrec =>
      refine ⟨_, m, rfl, rfl, le_rfl, ?_⟩
      intro l hl
      simp only [recordsOver, hid, hl, decide_true, Bool.true_and, Bool.or_eq_true,
        Bool.and_eq_true, decide_eq_true_eq] at hrec
      exact le_of_lt (key_lt_iff.mpr hrec)
    next hrec =>
      cases hl : r.latestTerminalMessage with
      | none => exact absurd (by simp [recordsOver, hid, hl]) hrec
      | some l =>
        refine ⟨r, l, rfl, hl, ?_, ?_⟩
        · refine not_lt.mp fun hlt => hrec ?_
          simp only [recordsOver, hid, hl, decide_true, Bool.true_and, Bool.or_eq_true,
            Bool.and_eq_true, decide_eq_true_eq]
          exact key_lt_iff.mp hlt
        · intro l' hl'
          cases hl'
          exact le_rfl

namespace TerminalState

variable {s t : TerminalState} {k : Millis ×ₗ MessageId}

/-- The row, the pending entry or an abandoned one is at or after `k`. -/
def Covered (s : TerminalState) (k : Millis ×ₗ MessageId) : Prop :=
  RowAt s.index s.sessionId k ∨ (∃ p, s.pending = some p ∧ k ≤ p.key) ∨
    ∃ a ∈ s.abandoned, k ≤ a.key

/-- What a step keeps: the row goes forward only, the pending entry is replaced by a newer
one or goes when something at or after it is in the row or was given up. -/
structure Keeps (s t : TerminalState) : Prop where
  sessionId : t.sessionId = s.sessionId
  row : (∃ r, s.index.get? s.sessionId = some r) → ∃ r, t.index.get? t.sessionId = some r
  rowAt : ∀ k, RowAt s.index s.sessionId k → RowAt t.index t.sessionId k
  pending : ∀ p, s.pending = some p →
    (∃ q, t.pending = some q ∧ p.key ≤ q.key) ∨
      RowAt t.index t.sessionId p.key ∨ ∃ a ∈ t.abandoned, p.key ≤ a.key
  abandoned : s.abandoned ⊆ t.abandoned
  failed : ∀ k, s.failed.count k ≤ t.failed.count k

theorem Covered.kept (h : s.Covered k) (hk : Keeps s t) : t.Covered k := by
  rcases h with h | ⟨p, hp, hle⟩ | ⟨a, ha, hle⟩
  · exact .inl (hk.rowAt k h)
  · rcases hk.pending p hp with ⟨q, hq, hpq⟩ | hrow | ⟨a, ha, hpa⟩
    · exact .inr (.inl ⟨q, hq, hle.trans hpq⟩)
    · exact .inl (hrow.earlier hle)
    · exact .inr (.inr ⟨a, ha, hle.trans hpa⟩)
  · exact .inr (.inr ⟨a, hk.abandoned ha, hle⟩)

/-- A step that leaves the index and the entries alone. -/
theorem Keeps.of_same (hid : t.sessionId = s.sessionId) (hindex : t.index = s.index)
    (hpending : t.pending = s.pending) (habandoned : t.abandoned = s.abandoned)
    (hfailed : t.failed = s.failed) : Keeps s t where
  sessionId := hid
  row h := by rwa [hid, hindex]
  rowAt k h := by rwa [hid, hindex]
  pending p hp := .inl ⟨p, hpending.trans hp, le_rfl⟩
  abandoned := by rw [habandoned]; exact List.Subset.refl _
  failed k := by rw [hfailed]

variable {s' : TerminalState}

theorem Keeps.landed (h : s.landed m = some s') :
    Keeps s s' ∧ ((∃ r, s.index.get? s.sessionId = some r) →
      RowAt s'.index s'.sessionId m.key) := by
  obtain ⟨index, hindex, rfl⟩ := Option.map_eq_some_iff.mp h
  refine ⟨⟨rfl, ?_, ?_, fun p hp => .inl ⟨p, hp, le_rfl⟩, List.Subset.refl _, fun _ => le_rfl⟩, ?_⟩
  · rintro ⟨r, hr⟩
    obtain ⟨r', _, hr', _⟩ := recordLatestTerminalMessage_spec hindex hr
    exact ⟨r', hr'⟩
  · rintro k ⟨r, l, hr, hl, hk⟩
    obtain ⟨r', latest, hr', hlatest, _, hle⟩ := recordLatestTerminalMessage_spec hindex hr
    exact ⟨r', latest, hr', hlatest, hk.trans (hle l hl)⟩
  · rintro ⟨r, hr⟩
    obtain ⟨r', latest, hr', hlatest, hle, _⟩ := recordLatestTerminalMessage_spec hindex hr
    exact ⟨r', latest, hr', hlatest, hle⟩

/-- The entry goes when something at or after it is in the row, or was given up. -/
theorem pending_cleared (hm : RowAt t.index t.sessionId m.key ∨ ∃ a ∈ t.abandoned, m.key ≤ a.key)
    (ht : t.pending = clearThrough s.pending m) (p : PendingTerminalMessageProjection)
    (hp : s.pending = some p) :
    (∃ q, t.pending = some q ∧ p.key ≤ q.key) ∨
      RowAt t.index t.sessionId p.key ∨ ∃ a ∈ t.abandoned, p.key ≤ a.key := by
  rw [hp] at ht
  rcases clearThrough_cases p m with hkeep | ⟨_, hle⟩
  · exact .inl ⟨p, ht.trans hkeep, le_rfl⟩
  · rcases hm with hrow | ⟨a, ha, hma⟩
    · exact .inr (.inl (hrow.earlier hle))
    · exact .inr (.inr ⟨a, ha, hle.trans hma⟩)

theorem rowAt_landed (h : s.landed m = some s') (hrow : ∃ r, s.index.get? s.sessionId = some r)
    (hid : t.sessionId = s'.sessionId) (hindex : t.index = s'.index) :
    RowAt t.index t.sessionId m.key := by
  rw [hid, hindex]
  exact (Keeps.landed h).2 hrow

theorem Keeps.cleared (h : s.landed m = some s') (hrow : ∃ r, s.index.get? s.sessionId = some r)
    (hid : t.sessionId = s'.sessionId) (hindex : t.index = s'.index)
    (hpending : t.pending = clearThrough s'.pending m) (habandoned : t.abandoned = s'.abandoned)
    (hfailed : t.failed = s'.failed) :
    Keeps s t := by
  have hat := rowAt_landed h hrow hid hindex
  obtain ⟨hk, _⟩ := Keeps.landed h
  obtain ⟨index, _, rfl⟩ := Option.map_eq_some_iff.mp h
  refine ⟨hid, ?_, ?_, ?_, ?_, ?_⟩
  · intro h
    rw [hid, hindex]
    exact hk.row h
  · intro k h
    rw [hid, hindex]
    exact hk.rowAt k h
  · exact pending_cleared (s := s) (.inl hat) hpending
  · rw [habandoned]
    exact List.Subset.refl _
  · intro k
    rw [hfailed]

theorem Keeps.fail (i : Nat) (now : Millis)
    (c : ProjectionCall) : Keeps s (s.fail i now c) := by
  have hcount : ∀ (x : Millis ×ₗ MessageId) k, s.failed.count k ≤ (x :: s.failed).count k :=
    fun x k => List.count_le_count_cons
  cases c with
  | recording m => exact .of_same rfl rfl rfl rfl rfl
  | retrying m =>
    refine ⟨rfl, fun h => h, fun _ h => h, ?_, List.Subset.refl _, fun _ => le_rfl⟩
    intro p hp
    obtain ⟨q, hq, _, hold, _⟩ := setPending_spec s.pending
      { m with attempts := 0, nextAttemptAt := now + deferredRetryDelayMs 0 }
    exact .inl ⟨q, hq, hold p hp⟩
  | deferring m => exact .of_same rfl rfl rfl rfl rfl
  | arming => exact .of_same rfl rfl rfl rfl rfl
  | flushing p readAt =>
    simp only [TerminalState.fail]
    split
    next =>
      refine ⟨rfl, fun h => h, fun _ h => h, ?_, List.subset_cons_self _ _, hcount p.key⟩
      refine pending_cleared (s := s) (m := p.toTerminalMessage) (.inr ?_) rfl
      exact ⟨p.toTerminalMessage, List.mem_cons_self, le_rfl⟩
    next =>
      refine ⟨rfl, fun h => h, fun _ h => h, ?_, List.Subset.refl _, hcount p.key⟩
      intro e he
      obtain ⟨q, hq, hkey, _⟩ := recordFailedAttempt_spec e p.toTerminalMessage (p.attempts + 1)
        (readAt + deferredRetryDelayMs (p.attempts + 1))
      refine .inl ⟨q, ?_, le_of_eq hkey.symm⟩
      rw [← hq, ← he]

theorem Keeps.succeed (hrow : ∃ r, s.index.get? s.sessionId = some r) {i : Nat}
    {c : ProjectionCall} (h : s.succeed i c = some t) : Keeps s t := by
  cases c with
  | recording m =>
    obtain ⟨s', hl, rfl⟩ := Option.map_eq_some_iff.mp h
    exact cleared hl hrow rfl rfl rfl rfl rfl
  | retrying m =>
    obtain ⟨s', hl, rfl⟩ := Option.map_eq_some_iff.mp h
    exact cleared hl hrow rfl rfl rfl rfl rfl
  | flushing p now =>
    obtain ⟨s', hl, rfl⟩ := Option.map_eq_some_iff.mp h
    exact cleared hl hrow rfl rfl rfl rfl rfl
  | deferring m =>
    cases h
    exact .of_same rfl rfl rfl rfl rfl
  | arming =>
    cases h
    exact .of_same rfl rfl rfl rfl rfl

/-- **What one step keeps.** -/
theorem Keeps.step (hrow : ∃ r, s.index.get? s.sessionId = some r) {a : TerminalStep}
    (h : s.step a = some t) : Keeps s t := by
  cases a with
  | recordTerminalMessage m =>
    cases h
    exact .of_same rfl rfl rfl rfl rfl
  | flushPending now =>
    simp only [TerminalState.step] at h
    split at h
    next =>
      cases h
      exact .of_same rfl rfl rfl rfl rfl
    next =>
      split at h
      next =>
        cases h
        exact .of_same rfl rfl rfl rfl rfl
      next =>
        cases h
        exact .of_same rfl rfl rfl rfl rfl
  | rearm =>
    simp only [TerminalState.step] at h
    split at h
    next =>
      cases h
      exact .of_same rfl rfl rfl rfl rfl
    next =>
      cases h
      exact .of_same rfl rfl rfl rfl rfl
  | land k =>
    obtain ⟨m, _, hl⟩ := Option.bind_eq_some_iff.mp h
    exact (landed hl).1
  | answered i now =>
    obtain ⟨c, _, hc⟩ := Option.bind_eq_some_iff.mp h
    exact succeed hrow hc
  | refused i now =>
    obtain ⟨c, _, rfl⟩ := Option.map_eq_some_iff.mp h
    exact fail i now c
  | restart =>
    cases h
    exact .of_same rfl rfl rfl rfl rfl

end TerminalState

/-! ## The invariant -/

/-- What holds between any two steps. -/
structure TerminalInv (s : TerminalState) : Prop where
  row : ∃ r, s.index.get? s.sessionId = some r
  recorded : ∀ m ∈ s.recorded, s.Covered m.key
  deferring : ∀ m, .deferring m ∈ s.calls → s.Covered m.key
  attempts : ∀ p, s.pending = some p → p.attempts ≤ s.failed.count p.key
  flushing : ∀ p now, .flushing p now ∈ s.calls → p.attempts ≤ s.failed.count p.key
  abandoned : ∀ a ∈ s.abandoned, deferredRetryMaxAttempts ≤ s.failed.count a.key

namespace TerminalInv

open TerminalState

variable {s t : TerminalState}

/-- A step, by what is new after it: the calls, what was recorded and the entries. -/
theorem stepped (h : TerminalInv s) (hk : Keeps s t)
    (hrecorded : ∀ m ∈ t.recorded, m ∈ s.recorded ∨ t.Covered m.key)
    (hcalls : ∀ c ∈ t.calls, c ∈ s.calls ∨
      (∀ m, c = .deferring m → t.Covered m.key) ∧
        ∀ p now, c = .flushing p now → p.attempts ≤ t.failed.count p.key)
    (hpending : ∀ p, t.pending = some p → s.pending = some p ∨
      p.attempts ≤ t.failed.count p.key)
    (habandoned : ∀ a ∈ t.abandoned, a ∈ s.abandoned ∨
      deferredRetryMaxAttempts ≤ t.failed.count a.key) : TerminalInv t where
  row := hk.row h.row
  recorded m hm := by
    rcases hrecorded m hm with hm | hc
    · exact (h.recorded m hm).kept hk
    · exact hc
  deferring m hm := by
    rcases hcalls _ hm with hm | ⟨hc, _⟩
    · exact (h.deferring m hm).kept hk
    · exact hc m rfl
  attempts p hp := by
    rcases hpending p hp with hp | hle
    · exact (h.attempts p hp).trans (hk.failed _)
    · exact hle
  flushing p now hp := by
    rcases hcalls _ hp with hp | ⟨_, hle⟩
    · exact (h.flushing p now hp).trans (hk.failed _)
    · exact hle p now rfl
  abandoned a ha := by
    rcases habandoned a ha with ha | hle
    · exact (h.abandoned a ha).trans (hk.failed _)
    · exact hle

/-- A call that goes on to no deferral and no flush. -/
theorem plain_call {s : TerminalState} {i : Nat} {o : Option ProjectionCall}
    (ho : ∀ c, o = some c → (∀ m, c ≠ .deferring m) ∧ ∀ p now, c ≠ .flushing p now) :
    ∀ c ∈ advance s.calls i o, c ∈ s.calls ∨
      (∀ m, c = .deferring m → t.Covered m.key) ∧
        ∀ p now, c = .flushing p now → p.attempts ≤ t.failed.count p.key := by
  intro c hc
  rcases mem_of_mem_advance hc with hc | hc
  · exact .inl hc
  · obtain ⟨hd, hf⟩ := ho c hc
    exact .inr ⟨fun m he => absurd he (hd m), fun p now he => absurd he (hf p now)⟩

variable {c : ProjectionCall}

theorem begin (h : TerminalInv s) {armed : List Millis} (hd : ∀ m, c ≠ .deferring m)
    (hf : ∀ p now, c = .flushing p now → s.pending = some p) :
    TerminalInv { s.begin c with armed } := by
  refine h.stepped (.of_same rfl rfl rfl rfl rfl) (fun _ hm => .inl hm) ?_ (fun _ hp => .inl hp)
    fun _ ha => .inl ha
  intro c' hc'
  rcases List.mem_append.mp hc' with hc' | hc'
  · exact .inl hc'
  · cases List.mem_singleton.mp hc'
    exact .inr ⟨fun m he => absurd he (hd m), fun p now he => h.attempts p (hf p now he)⟩

theorem ended_call (s : TerminalState) (i : Nat) :
    ∀ c ∈ advance s.calls i none, c ∈ s.calls ∨
      (∀ m, c = .deferring m → t.Covered m.key) ∧
        ∀ p now, c = .flushing p now → p.attempts ≤ t.failed.count p.key :=
  plain_call fun _ h => absurd h.symm (Option.some_ne_none _)

/-- The end of a call whose write succeeded. -/
theorem written (h : TerminalInv s) {s' : TerminalState} {i : Nat} (hl : s.landed m = some s')
    {recorded : List TerminalMessage} (hrec : ∀ x ∈ recorded, x ∈ s'.recorded ∨ x = m) :
    TerminalInv { s'.next i none with pending := clearThrough s'.pending m, recorded } := by
  have hk := Keeps.cleared (t := { s'.next i none with
    pending := clearThrough s'.pending m, recorded }) hl h.row rfl rfl rfl rfl rfl
  have hrow := rowAt_landed (t := { s'.next i none with
    pending := clearThrough s'.pending m, recorded }) hl h.row rfl rfl
  obtain ⟨index, _, rfl⟩ := Option.map_eq_some_iff.mp hl
  refine h.stepped hk ?_ (ended_call s i) ?_
    fun _ ha => .inl ha
  · intro x hx
    rcases hrec x hx with hx | rfl
    · exact .inl hx
    · exact .inr (.inl hrow)
  · intro p hp
    exact .inl (Option.filter_eq_some_iff.mp hp).1

theorem succeed (h : TerminalInv s) {i : Nat} (hget : s.calls[i]? = some c)
    (hs : s.succeed i c = some t) : TerminalInv t := by
  have hmem := List.mem_of_getElem? hget
  cases c with
  | recording m =>
    obtain ⟨s', hl, rfl⟩ := Option.map_eq_some_iff.mp hs
    refine h.written hl fun x hx => ?_
    exact (List.mem_cons.mp hx).symm
  | retrying m =>
    obtain ⟨s', hl, rfl⟩ := Option.map_eq_some_iff.mp hs
    refine h.written hl fun x hx => ?_
    exact (List.mem_cons.mp hx).symm
  | flushing p now =>
    obtain ⟨s', hl, rfl⟩ := Option.map_eq_some_iff.mp hs
    exact h.written hl fun x hx => .inl hx
  | deferring m =>
    cases hs
    refine h.stepped (.of_same rfl rfl rfl rfl rfl) ?_ (ended_call s i)
      (fun _ hp => .inl hp) fun _ ha => .inl ha
    intro x hx
    rcases List.mem_cons.mp hx with rfl | hx
    · exact .inr (h.deferring x hmem)
    · exact .inl hx
  | arming =>
    cases hs
    exact h.stepped (.of_same rfl rfl rfl rfl rfl) (fun _ hm => .inl hm)
      (ended_call s i) (fun _ hp => .inl hp) fun _ ha => .inl ha

theorem fail (h : TerminalInv s) {i : Nat} (hget : s.calls[i]? = some c) (now : Millis) :
    TerminalInv (s.fail i now c) := by
  have hmem := List.mem_of_getElem? hget
  have hk := Keeps.fail (s := s) i now c
  cases c with
  | recording m =>
    refine h.stepped hk (fun _ hm => .inl hm)
      (plain_call (s := s) (i := i) (o := some (.retrying m)) ?_) (fun _ hp => .inl hp)
      fun _ ha => .inl ha
    intro c hc
    cases hc
    exact ⟨(fun _ he => by cases he), fun _ _ he => by cases he⟩
  | retrying m =>
    obtain ⟨q, hq, hentry, _, hfrom⟩ := setPending_spec s.pending
      { m with attempts := 0, nextAttemptAt := now + deferredRetryDelayMs 0 }
    refine h.stepped hk (fun _ hm => .inl hm) ?_ ?_ fun _ ha => .inl ha
    · intro c hc
      have hc : c ∈ advance s.calls i (some (.deferring m)) := hc
      rcases mem_of_mem_advance hc with hc | hc
      · exact .inl hc
      · cases hc
        refine .inr ⟨?_, fun _ _ he => by cases he⟩
        intro m' he
        cases he
        exact .inr (.inl ⟨q, hq, hentry⟩)
    · intro p hp
      cases hq.symm.trans hp
      rcases hfrom with rfl | hold
      · exact .inr (Nat.zero_le _)
      · exact .inl hold
  | deferring m =>
    refine h.stepped hk ?_ (ended_call s i) (fun _ hp => .inl hp) fun _ ha => .inl ha
    intro x hx
    rcases List.mem_cons.mp hx with rfl | hx
    · exact .inr ((h.deferring x hmem).kept hk)
    · exact .inl hx
  | arming =>
    exact h.stepped hk (fun _ hm => .inl hm) (ended_call s i) (fun _ hp => .inl hp)
      fun _ ha => .inl ha
  | flushing p readAt =>
    have hle := h.flushing p readAt hmem
    have hcount : p.attempts + 1 ≤ (p.key :: s.failed).count p.key := by
      rw [List.count_cons_self]
      exact Nat.succ_le_succ hle
    simp only [TerminalState.fail] at hk ⊢
    split
    next hmax =>
      rw [if_pos hmax] at hk
      refine h.stepped hk (fun _ hm => .inl hm) (ended_call s i) ?_ ?_
      · intro e he
        exact .inl (Option.filter_eq_some_iff.mp he).1
      · intro a ha
        rcases List.mem_cons.mp ha with rfl | ha
        · exact .inr (le_trans hmax hcount)
        · exact .inl ha
    next hmax =>
      rw [if_neg hmax] at hk
      refine h.stepped hk (fun _ hm => .inl hm)
        (plain_call (s := s) (i := i) (o := some .arming) ?_) ?_ fun _ ha => .inl ha
      · intro c hc
        cases hc
        exact ⟨(fun _ he => by cases he), fun _ _ he => by cases he⟩
      · intro e he
        obtain ⟨e₀, he₀, _⟩ := Option.map_eq_some_iff.mp he
        obtain ⟨q, hq, _, hq'⟩ := recordFailedAttempt_spec e₀ p.toTerminalMessage (p.attempts + 1)
          (readAt + deferredRetryDelayMs (p.attempts + 1))
        rw [← he₀] at hq
        cases hq.symm.trans he
        rcases hq' with rfl | ⟨hkey, hatt⟩
        · exact .inl he₀
        · right
          rw [hkey, hatt]
          exact hcount

/-- **One step keeps it.** -/
theorem step (h : TerminalInv s) {a : TerminalStep} (hs : s.step a = some t) : TerminalInv t := by
  have hk := Keeps.step h.row hs
  cases a with
  | recordTerminalMessage m =>
    cases hs
    exact h.begin (fun _ he => by cases he) fun _ _ he => by cases he
  | flushPending now =>
    simp only [TerminalState.step] at hs
    split at hs
    next =>
      cases hs
      exact h
    next p hp =>
      split at hs
      next =>
        cases hs
        exact h.begin (fun _ he => by cases he) fun _ _ he => by cases he
      next =>
        cases hs
        refine h.begin (fun _ he => by cases he) ?_
        intro p' now' he
        cases he
        exact hp
  | rearm =>
    simp only [TerminalState.step] at hs
    split at hs
    next =>
      cases hs
      exact h
    next =>
      cases hs
      exact h.begin (fun _ he => by cases he) fun _ _ he => by cases he
  | land k =>
    obtain ⟨m, _, hl⟩ := Option.bind_eq_some_iff.mp hs
    obtain ⟨index, _, rfl⟩ := Option.map_eq_some_iff.mp hl
    exact h.stepped hk (fun _ hm => .inl hm) (fun _ hc => .inl hc) (fun _ hp => .inl hp)
      fun _ ha => .inl ha
  | answered i now =>
    obtain ⟨c, hget, hc⟩ := Option.bind_eq_some_iff.mp hs
    exact h.succeed hget hc
  | refused i now =>
    obtain ⟨c, hget, rfl⟩ := Option.map_eq_some_iff.mp hs
    exact h.fail hget now
  | restart =>
    cases hs
    exact h.stepped hk (fun _ hm => .inl hm) (fun _ hc => absurd hc List.not_mem_nil)
      (fun _ hp => .inl hp) fun _ ha => .inl ha

end TerminalInv

/-- Where a run begins: the session has its row, and no message of it was recorded. -/
structure NothingRecorded (s : TerminalState) : Prop where
  row : ∃ r, s.index.get? s.sessionId = some r
  pending : s.pending = none
  calls : s.calls = []
  recorded : s.recorded = []
  abandoned : s.abandoned = []

theorem NothingRecorded.inv {s : TerminalState} (h : NothingRecorded s) : TerminalInv s where
  row := h.row
  recorded m hm := by
    rw [h.recorded] at hm
    cases hm
  deferring m hm := by
    rw [h.calls] at hm
    cases hm
  attempts p hp := by
    rw [h.pending] at hp
    cases hp
  flushing p now hp := by
    rw [h.calls] at hp
    cases hp
  abandoned a ha := by
    rw [h.abandoned] at ha
    cases ha

/-- The read cursor converges. -/
structure CursorConverges (s : TerminalState) : Prop where
  /-- The row's cursor never decreases. -/
  monotone : ∀ a t, s.step a = some t → ∀ k, RowAt s.index s.sessionId k →
    RowAt t.index t.sessionId k
  /-- The row or the pending entry is at or after each message whose recording ended, unless
  an entry at or after it was abandoned after eight failed deferred attempts. -/
  covered : ∀ m ∈ s.recorded,
    RowAt s.index s.sessionId m.key ∨ (∃ p, s.pending = some p ∧ m.key ≤ p.key) ∨
      ∃ a ∈ s.abandoned, m.key ≤ a.key ∧ deferredRetryMaxAttempts ≤ s.failed.count a.key
  /-- The pending entry is replaced by a newer one, keeps its message, or goes when the row,
  or an entry abandoned after eight failed deferred attempts, is at or after it. -/
  pending : ∀ a t, s.step a = some t → ∀ p, s.pending = some p →
    (∃ q, t.pending = some q ∧ p.key ≤ q.key) ∨ RowAt t.index t.sessionId p.key ∨
      ∃ a ∈ t.abandoned, p.key ≤ a.key ∧ deferredRetryMaxAttempts ≤ t.failed.count a.key

theorem TerminalInv.converges {s : TerminalState} (h : TerminalInv s) : CursorConverges s where
  monotone a t hs := (TerminalState.Keeps.step h.row hs).rowAt
  covered m hm := by
    rcases h.recorded m hm with hrow | hp | ⟨a, ha, hle⟩
    · exact .inl hrow
    · exact .inr (.inl hp)
    · exact .inr (.inr ⟨a, ha, hle, h.abandoned a ha⟩)
  pending a t hs p hp := by
    rcases (TerminalState.Keeps.step h.row hs).pending p hp with hq | hrow | ⟨a, ha, hle⟩
    · exact .inl hq
    · exact .inr (.inl hrow)
    · exact .inr (.inr ⟨a, ha, hle, (h.step hs).abandoned a ha⟩)

/-- **The read cursor converges**, whatever fails, restarts or overlaps. -/
theorem read_cursor_converges {s₀ s : TerminalState} (h₀ : NothingRecorded s₀)
    (hr : terminalMessages.Reachable anyStep s₀ s) : CursorConverges s := by
  refine TerminalInv.converges (hr.inv TerminalInv h₀.inv ?_)
  intro s a t hi _ hs
  exact hi.step hs

/-! ## Two runs -/

def noMessages : TerminalState where
  sessionId := ['s']
  index := ⟨[{ id := ['s'], status := .active }], by decide⟩

def firstMessage : TerminalMessage where
  id := ['m']
  createdAt := 1
  completedAt := 2

def secondMessage : TerminalMessage where
  id := ['n']
  createdAt := 3
  completedAt := 4

theorem noMessages_nothingRecorded : NothingRecorded noMessages where
  row := ⟨_, rfl⟩
  pending := rfl
  calls := rfl
  recorded := rfl
  abandoned := rfl

/-- Two inline attempts fail, and the retry is armed. -/
def deferred (m : TerminalMessage) : List TerminalStep :=
  [.recordTerminalMessage m, .refused 0 5, .refused 0 5, .answered 0 5]

/-- The first message is deferred; while its retry is under way the second one is recorded. -/
theorem read_cursor_converges_overlapping :
    ∃ s, terminalMessages.run anyStep noMessages
        (deferred firstMessage ++ [.flushPending 6000, .recordTerminalMessage secondMessage,
          .answered 1 6000, .refused 0 6000, .land 0, .answered 0 6000]) = some s ∧
      CursorConverges s := by
  obtain ⟨s, hs⟩ := Option.isSome_iff_exists.mp (show (terminalMessages.run anyStep noMessages
    (deferred firstMessage ++ [.flushPending 6000, .recordTerminalMessage secondMessage,
      .answered 1 6000, .refused 0 6000, .land 0, .answered 0 6000])).isSome = true by
    decide +kernel)
  exact ⟨s, hs, read_cursor_converges noMessages_nothingRecorded (System.run_reachable hs)⟩

/-- **The pending entry is given up.** The eighth deferred attempt fails as well: the entry
goes, and the row never had a message. -/
theorem abandoned_entry_lost :
    NothingRecorded noMessages ∧
      ∃ s t a, terminalMessages.Reachable anyStep noMessages s ∧ s.step a = some t ∧
        s.pending.isSome = true ∧ t.pending = none ∧ ∀ k, ¬RowAt t.index t.sessionId k := by
  refine ⟨noMessages_nothingRecorded, ?_⟩
  have hrun : (terminalMessages.run anyStep noMessages (deferred firstMessage ++
      ((List.range 7).map fun n =>
        [.flushPending (1000000 * (n + 1)), .refused 0 0, .answered 0 0]).flatten ++
          [.flushPending 8000000])).map (fun s => (s.pending.isSome, (s.step (.refused 0 0)).map
            fun t => (t.pending, (t.index.get? t.sessionId).map (·.latestTerminalMessage)))) =
      some (true, some (none, some none)) := by
    decide +kernel
  obtain ⟨s, hs, he⟩ := Option.map_eq_some_iff.mp hrun
  obtain ⟨hpending, he⟩ := Prod.mk.inj he
  obtain ⟨t, ht, he⟩ := Option.map_eq_some_iff.mp he
  obtain ⟨hnone, hrow⟩ := Prod.mk.inj he
  refine ⟨s, t, _, System.run_reachable hs, ht, hpending, hnone, ?_⟩
  rintro k ⟨r, latest, hr, hl, _⟩
  rw [hr, Option.map_some, hl] at hrow
  cases hrow

end BackgroundAgents.SessionIndex

import BackgroundAgents.Session.Types

/-!
# `EventRepository`

The timeline of a session. `createEvent` is a plain `INSERT`, so it throws
(`none`) when the id is taken; `upsertExecutionCompleteEvent` is idempotent in
the message. A statement that throws leaves the storage to its transaction,
which rolls back: the callers below then keep the database they started from.
-/

namespace BackgroundAgents.Session

/-- Data for creating an event. -/
structure CreateEventData where
  id : EventId
  data : EventData
  messageId : Option MessageId
  createdAt : Millis
  deriving DecidableEq, Repr

/-- `NEXT_TIMELINE_SEQUENCE_SQL` -/
def nextTimelineSequence (events : EventTable) : Nat :=
  (events.rows.map EventRow.timelineSequence).foldr max 0 + 1

def CreateEventData.row (d : CreateEventData) (sequence : Nat) : EventRow where
  id := d.id
  data := d.data
  messageId := d.messageId
  createdAt := d.createdAt
  timelineSequence := sequence

def createEvent (db : SessionDb) (d : CreateEventData) : Option SessionDb := do
  let events ← db.events.insert? (d.row (nextTimelineSequence db.events))
  some { db with events := events }

/-- One `execution_complete:<id>` event per message; a second report replaces
the payload and the time of the first. -/
def upsertExecutionCompleteEvent (db : SessionDb) (messageId : MessageId) (success : Bool)
    (error : Option String) (createdAt : Millis) : SessionDb :=
  let excluded : EventRow :=
    { id := .executionComplete messageId
      data := .executionComplete messageId success error
      messageId := some messageId
      createdAt := createdAt
      timelineSequence := nextTimelineSequence db.events }
  { db with
    events := db.events.upsert excluded fun old =>
      { old with
        data := excluded.data
        messageId := excluded.messageId
        createdAt := excluded.createdAt } }

/-- The event stored under an id. -/
def SessionDb.event? (db : SessionDb) (id : EventId) : Option EventRow :=
  db.events.get? id

/-! ## What they do to the timeline -/

theorem createEvent_some {db db' : SessionDb} {d : CreateEventData}
    (h : createEvent db d = some db') :
    db' = { db with events := db'.events } ∧ db.event? d.id = none ∧
      ∀ id, db'.event? id =
        if d.id = id then some (d.row (nextTimelineSequence db.events)) else db.event? id := by
  simp only [createEvent, Option.bind_eq_bind, Option.bind_eq_some_iff] at h
  obtain ⟨events, hins, hdb⟩ := h
  cases hdb
  exact ⟨rfl, Table.get?_of_insert? hins, Table.get?_insert? hins⟩

theorem createEvent_isSome {db : SessionDb} {d : CreateEventData}
    (h : db.event? d.id = none) : ∃ db', createEvent db d = some db' := by
  cases hins : db.events.insert? (d.row (nextTimelineSequence db.events)) with
  | some events => exact ⟨{ db with events := events }, by simp [createEvent, hins]⟩
  | none =>
    obtain ⟨x, hx⟩ := Table.insert?_eq_none.mp hins
    have hn : db.events.get? d.id = none := h
    have hid : (d.row (nextTimelineSequence db.events)).id = d.id := rfl
    rw [hid, hn] at hx
    cases hx

/-- The completion event of a message is the last one reported; the others stay. -/
theorem event?_upsertExecutionCompleteEvent (db : SessionDb) (m : MessageId) (success : Bool)
    (error : Option String) (t : Millis) (id : EventId) :
    (upsertExecutionCompleteEvent db m success error t).event? id =
      if EventId.executionComplete m = id then
        some
          { id := .executionComplete m
            data := .executionComplete m success error
            messageId := some m
            createdAt := t
            timelineSequence :=
              ((db.event? (.executionComplete m)).map EventRow.timelineSequence).getD
                (nextTimelineSequence db.events) }
      else db.event? id := by
  unfold upsertExecutionCompleteEvent SessionDb.event?
  rw [Table.get?_upsert]
  split
  next hid =>
    cases hid
    cases hg : db.events.get? (.executionComplete m) with
    | none => simp
    | some old => simp [Table.key_of_get? hg]
  next => rfl

end BackgroundAgents.Session

import BackgroundAgents.SessionIndex.SessionList
import BackgroundAgents.Lib.Recursive
import BackgroundAgents.Lib.Grouping

/-!
# The session inbox

The inbox groups the sessions that a viewer may list into hierarchies, each
under one root, and lists the hierarchies in three categories. Every query
starts from the same eligible sessions: those that the filters select, that are
not archived and have a persisted root. Where a filter hides an ancestor, the
subtree below it is rooted anew by a recursive query (`rerooted`); any other
session keeps its persisted root.

`inbox` is the keyset page of one category, `inboxSnapshot` the first page of
all three in one query with a window function, and `markAllRead` the statement
that marks what is unread, which walks the hierarchy of a root by a recursive
query of its own.
-/

namespace BackgroundAgents.SessionIndex

open Keyset Recursive Grouping

inductive SessionInboxCategory where
  | needsAttention
  | inProgress
  | finished
  deriving DecidableEq, Repr

/-- The text order of the categories. -/
def SessionInboxCategory.rank : SessionInboxCategory → Nat
  | finished => 0
  | inProgress => 1
  | needsAttention => 2

structure SessionInboxCursor where
  latestUpdatedAt : Millis
  rootSessionId : SessionId
  deriving DecidableEq, Repr

/-- The viewer and filters that decide which sessions an inbox query covers. -/
structure InboxFilterOptions where
  createdByUserIds : List UserId := []
  teamIds : List TeamId := []
  ownerFilter : Option OwnerFilter := none
  visibility : Option SessionVisibility := none
  scope : Option ListScope := none
  readScope : SessionReadScope
  mode : TeamsEnforcementMode
  excludeAutomatedSessions : Bool := false
  viewerUserId : UserId

def InboxFilterOptions.filters (options : InboxFilterOptions) : SessionListFilters where
  createdByUserIds := options.createdByUserIds
  teamIds := options.teamIds
  ownerFilter := options.ownerFilter
  visibility := options.visibility
  scope := options.scope
  readScope := options.readScope
  mode := options.mode

/-- A row of `eligible_sessions`. -/
structure EligibleSession where
  row : SessionRow
  rootSessionId : SessionId
  unread : Bool
  deriving DecidableEq, Repr

namespace EligibleSession

def id (e : EligibleSession) : SessionId := e.row.id
def parentSessionId (e : EligibleSession) : Option SessionId := e.row.parentSessionId
def updatedAt (e : EligibleSession) : Millis := e.row.updatedAt

end EligibleSession

namespace IndexDb

/-- The clause of the inbox; no repository is filtered by, so that it is always built. -/
def inboxConditions (db : IndexDb) (options : InboxFilterOptions) : List SqlCondition :=
  db.filterConditions options.filters none ++ db.scopeCondition options.readScope options.mode

theorem buildSessionListPredicates_inbox (toLowerCase : Text → Text) (db : IndexDb)
    (options : InboxFilterOptions) :
    db.buildSessionListPredicates toLowerCase options.filters =
      .ok (db.inboxConditions options) :=
  rfl

/-- Whether `eligible_sessions` keeps a row that meets the clause. -/
def isEligible (options : InboxFilterOptions) (r : SessionRow) : Bool :=
  r.status ≠ .archived &&
    !(options.excludeAutomatedSessions &&
      (r.spawnSource = .automation || r.spawnSource = .githubBot))

/-- `eligible_sessions`: the filtered, viewer-visible, unarchived sessions with
viewer-specific unread state. -/
def eligibleSessions (db : IndexDb) (options : InboxFilterOptions) : List EligibleSession :=
  (db.sessions.rows.filter fun r =>
    meets (db.inboxConditions options) r && isEligible options r).filterMap fun r =>
      r.rootSessionId.map fun rootSessionId =>
        { row := r, rootSessionId, unread := db.unread options.viewerUserId r }

end IndexDb

/-! ## Hierarchies -/

/-- The ids of the eligible children of a session. -/
def childIds (eligible : List EligibleSession) (id : SessionId) : List SessionId :=
  (eligible.filter fun child => child.parentSessionId = some id).map (·.id)

def hasEligible (eligible : List EligibleSession) (id : SessionId) : Bool :=
  eligible.any fun e => e.id = id

/-- `rerooted_sessions`: the sessions below a hidden parent, each with the root of its
subtree. -/
def rerooted (eligible : List EligibleSession) : List (SessionId × SessionId) :=
  withRecursive (eligible.length * eligible.length + 1)
    ((eligible.filter fun e =>
      e.parentSessionId.any fun parent => !hasEligible eligible parent).map fun e => (e.id, e.id))
    fun session => (childIds eligible session.1).map fun child => (child, session.2)

/-- `COALESCE` of the new root and the persisted one. -/
def effectiveRootSessionId (eligible : List EligibleSession) (e : EligibleSession) : SessionId :=
  (((rerooted eligible).find? fun session => session.1 = e.id).map (·.2)).getD e.rootSessionId

structure EffectiveSession extends EligibleSession where
  effectiveRootSessionId : SessionId
  deriving DecidableEq, Repr

def effectiveSessions (eligible : List EligibleSession) : List EffectiveSession :=
  eligible.map fun e =>
    { e with effectiveRootSessionId := SessionIndex.effectiveRootSessionId eligible e }

/-- A row of `inbox_roots`. -/
structure InboxRoot where
  rootSessionId : SessionId
  latestUpdatedAt : Millis
  category : SessionInboxCategory
  deriving DecidableEq, Repr

/-- The sessions of one root. -/
def lineage (effective : List EffectiveSession) (rootSessionId : SessionId) :
    List EffectiveSession :=
  effective.filter fun e => e.effectiveRootSessionId = rootSessionId

def category (sessions : List EffectiveSession) : SessionInboxCategory :=
  if sessions.any (·.unread) then .needsAttention
  else if sessions.any fun e => e.row.status = .active then .inProgress
  else .finished

/-- `inbox_roots`: the sessions grouped by their effective root. -/
def inboxRoots (effective : List EffectiveSession) : List InboxRoot :=
  (effective.map (·.effectiveRootSessionId)).dedup.map fun rootSessionId =>
    { rootSessionId
      latestUpdatedAt := ((lineage effective rootSessionId).map (·.updatedAt)).foldr max 0
      category := category (lineage effective rootSessionId) }

/-! ## Pages -/

/-- The order of the roots. -/
def InboxRoot.key (root : InboxRoot) : Millis ×ₗ SessionId :=
  toLex (root.latestUpdatedAt, root.rootSessionId)

def SessionInboxCursor.key (cursor : SessionInboxCursor) : Millis ×ₗ SessionId :=
  toLex (cursor.latestUpdatedAt, cursor.rootSessionId)

/-- A row of an inbox query. -/
structure InboxSessionRow where
  session : EffectiveSession
  latestUpdatedAt : Millis
  category : SessionInboxCategory
  deriving DecidableEq, Repr

namespace InboxSessionRow

def id (row : InboxSessionRow) : SessionId := row.session.id
def effectiveRootSessionId (row : InboxSessionRow) : SessionId :=
  row.session.effectiveRootSessionId

/-- The order of the rows within one category. -/
def key (row : InboxSessionRow) : (Millis ×ₗ SessionId) ×ₗ (Millis ×ₗ SessionId) :=
  toLex (toLex (row.latestUpdatedAt, row.effectiveRootSessionId), row.session.row.key)

end InboxSessionRow

/-- The join of the sessions with the selected roots. -/
def joinRoots (effective : List EffectiveSession) (selectedRoots : List InboxRoot) :
    List InboxSessionRow :=
  effective.flatMap fun session =>
    (selectedRoots.filter fun root => root.rootSessionId = session.effectiveRootSessionId).map
      fun root =>
        { session, latestUpdatedAt := root.latestUpdatedAt, category := root.category }

/-- `bindInboxQuery`: one ordered category page plus one extra root. -/
def inboxQuery (effective : List EffectiveSession) (category : SessionInboxCategory)
    (limit : Nat) (cursor : Option SessionInboxCursor) : List InboxSessionRow :=
  let selectedRoots := (newestFirst InboxRoot.key ((inboxRoots effective).filter fun root =>
    root.category = category && cursor.all fun c =>
      root.latestUpdatedAt < c.latestUpdatedAt
        || (root.latestUpdatedAt = c.latestUpdatedAt && root.rootSessionId < c.rootSessionId))).take
      (limit + 1)
  newestFirst InboxSessionRow.key (joinRoots effective selectedRoots)

/-- `ROW_NUMBER()` of a root among those of its category. -/
def categoryRank (roots : List InboxRoot) (root : InboxRoot) : Nat :=
  roots.countP (fun other => other.category = root.category && root.key < other.key) + 1

/-- `bindInboxSnapshotQuery`: the first page of every category through one traversal. -/
def inboxSnapshotQuery (effective : List EffectiveSession) (limit : Nat) :
    List InboxSessionRow :=
  let roots := inboxRoots effective
  let selectedRoots := roots.filter fun root => categoryRank roots root ≤ limit + 1
  (joinRoots effective selectedRoots).insertionSort fun a b =>
    a.category.rank < b.category.rank ∨ (a.category.rank = b.category.rank ∧ b.key ≤ a.key)

structure InboxPageData where
  roots : List (SessionId × List InboxSessionRow)
  hasMore : Bool
  nextCursor : Option SessionInboxCursor

/-- Group ordered SQL rows into complete lineages and derive cursor metadata. -/
def buildPageData (limit : Nat) (rows : List InboxSessionRow) : InboxPageData :=
  let selectedRoots := grouped InboxSessionRow.effectiveRootSessionId rows
  let roots := selectedRoots.take limit
  let hasMore := decide (limit < selectedRoots.length)
  { roots
    hasMore
    nextCursor :=
      if hasMore then
        roots.getLast?.bind fun last =>
          last.2.head?.map fun row =>
            { latestUpdatedAt := row.latestUpdatedAt, rootSessionId := last.1 }
      else none }

/-- A session of the inbox, by the columns that it is projected from. -/
structure InboxSession where
  row : SessionRow
  readState : ReadState
  deriving DecidableEq, Repr

structure InboxItem where
  rootSession : InboxSession
  descendantSessions : List InboxSession
  deriving DecidableEq, Repr

structure ListSessionInboxResult where
  items : List InboxItem
  hasMore : Bool
  nextCursor : Option SessionInboxCursor
  deriving DecidableEq, Repr

def toListItem (row : InboxSessionRow) : InboxSession where
  row := row.session.row
  readState := readStateFromRow row.session.row row.session.unread

/-- The item of one lineage: its root, or else its first session, and the others. -/
def toInboxItem (rootId : SessionId) (lineage : List InboxSessionRow) : Option InboxItem :=
  ((lineage.find? fun row => row.id = rootId).or lineage.head?).map fun rootRow =>
    { rootSession := toListItem rootRow
      descendantSessions := (lineage.filter fun row => row.id ≠ rootRow.id).map toListItem }

def assemblePage (page : InboxPageData) : ListSessionInboxResult where
  items := page.roots.filterMap fun root => toInboxItem root.1 root.2
  hasMore := page.hasMore
  nextCursor := page.nextCursor

namespace IndexDb

/-- The parameters that every inbox query binds first. -/
def inboxParameters (db : IndexDb) (options : InboxFilterOptions) : Nat :=
  boundParameters (db.inboxConditions options) + 1

/-- `SessionInboxStore.list` -/
def inbox (db : IndexDb) (options : InboxFilterOptions) (category : SessionInboxCategory)
    (limit : Nat) (cursor : Option SessionInboxCursor) :
    Except SessionListError ListSessionInboxResult := do
  assertD1QueryParameterLimit
    (db.inboxParameters options + 1 + (if cursor.isSome then 3 else 0) + 1)
  return assemblePage (buildPageData limit
    (inboxQuery (effectiveSessions (db.eligibleSessions options)) category limit cursor))

/-- `SessionInboxStore.snapshot` -/
def inboxSnapshot (db : IndexDb) (options : InboxFilterOptions) (limit : Nat) :
    Except SessionListError (SessionInboxCategory → ListSessionInboxResult) := do
  assertD1QueryParameterLimit (db.inboxParameters options + 1)
  let rows := inboxSnapshotQuery (effectiveSessions (db.eligibleSessions options)) limit
  return fun category =>
    assemblePage (buildPageData limit (rows.filter fun row => row.category = category))

end IndexDb

/-! ## Marking as read -/

/-- `requested_sessions`: the eligible sessions of the hierarchy below a session. -/
def requestedSessions (eligible : List EligibleSession) (rootSessionId : SessionId) :
    List SessionId :=
  withRecursive (eligible.length + 1)
    ((eligible.filter fun e => e.id = rootSessionId).map (·.id)) (childIds eligible)

/-- The conditional upsert of one read state, and how many rows it changed. -/
def markRead (viewerUserId : UserId) (now : Millis) (sessionId : SessionId)
    (messageId : MessageId) (states : Table SessionReadState.key) :
    Table SessionReadState.key × Nat :=
  let state : SessionReadState :=
    { userId := viewerUserId, sessionId, lastReadMessageId := messageId, updatedAt := now }
  if (states.get? state.key).any fun old => old.lastReadMessageId = messageId then (states, 0)
  else
    (states.upsert state fun old =>
      { old with lastReadMessageId := messageId, updatedAt := now }, 1)

/-- The upserts of one statement, one by one, with the rows changed in all. -/
def markSessions (viewerUserId : UserId) (now : Millis) (sessions : List (SessionId × MessageId))
    (marked : Table SessionReadState.key × Nat) : Table SessionReadState.key × Nat :=
  sessions.foldl
    (fun marked session =>
      let next := markRead viewerUserId now session.1 session.2 marked.1
      (next.1, marked.2 + next.2))
    marked

namespace IndexDb

/-- The sessions that `markAllRead` inserts read states for, with their latest messages. -/
def markedSessions (db : IndexDb) (options : InboxFilterOptions)
    (rootSessionId : Option SessionId) : List (SessionId × MessageId) :=
  let eligible := db.eligibleSessions options
  let unread := eligible.filter fun e =>
    e.unread && rootSessionId.all fun root => (requestedSessions eligible root).contains e.id
  unread.filterMap fun e => e.row.latestTerminalMessage.map fun m => (e.id, m.id)

/-- Mark every unread session the inbox lists under these filters as read for the viewer.
Returns the number of sessions whose read state changed. -/
def markAllRead (db : IndexDb) (options : InboxFilterOptions) (rootSessionId : Option SessionId)
    (now : Millis) : Except SessionListError (IndexDb × Nat) := do
  assertD1QueryParameterLimit
    (db.inboxParameters options + (if rootSessionId.isSome then 1 else 0) + 2)
  let marked := markSessions options.viewerUserId now (db.markedSessions options rootSessionId)
    (db.readStates, 0)
  return ({ db with readStates := marked.1 }, marked.2)

/-! ## What the queries read -/

variable {options : InboxFilterOptions}

theorem mem_eligibleSessions {db : IndexDb} {e : EligibleSession} :
    e ∈ db.eligibleSessions options ↔
      e.row ∈ db.sessions.rows ∧ meets (db.inboxConditions options) e.row = true ∧
        isEligible options e.row = true ∧ e.row.rootSessionId = some e.rootSessionId ∧
          e.unread = db.unread options.viewerUserId e.row := by
  rw [eligibleSessions, List.mem_filterMap]
  constructor
  · rintro ⟨r, hr, hroot⟩
    obtain ⟨hmem, hmeets⟩ := List.mem_filter.mp hr
    obtain ⟨hmeets, heligible⟩ := Bool.and_eq_true_iff.mp hmeets
    obtain ⟨root, hsome, rfl⟩ := Option.map_eq_some_iff.mp hroot
    exact ⟨hmem, hmeets, heligible, hsome, rfl⟩
  · rintro ⟨hmem, hmeets, heligible, hroot, hunread⟩
    refine ⟨e.row, List.mem_filter.mpr ⟨hmem, Bool.and_eq_true_iff.mpr ⟨hmeets, heligible⟩⟩, ?_⟩
    rw [hroot, Option.map_some, ← hunread]

/-- With teams enforced, an eligible session is one that the scope's viewer sees. -/
theorem visible_of_eligible {db : IndexDb} {viewer : SessionViewer} {e : EligibleSession}
    (hscope : options.readScope = .viewer viewer) (he : e ∈ db.eligibleSessions options) :
    e.row ∈ db.sessions.rows ∧
      db.visibleSessionsPredicate viewer options.mode false e.row = true := by
  obtain ⟨hmem, hmeets, -⟩ := mem_eligibleSessions.mp he
  exact ⟨hmem, visible_of_meets (buildSessionListPredicates_inbox id db options) hscope hmeets⟩

/-! ## What a marking does -/

theorem get?_markRead {viewerUserId : UserId} {now : Millis} {sessionId : SessionId}
    {messageId : MessageId} {states : Table SessionReadState.key} {k : UserId × SessionId} :
    (markRead viewerUserId now sessionId messageId states).1.get? k =
      if k = (viewerUserId, sessionId) ∧
          ¬(states.get? k).any (fun old => old.lastReadMessageId = messageId) = true then
        some { userId := viewerUserId, sessionId, lastReadMessageId := messageId, updatedAt := now }
      else states.get? k := by
  by_cases hread : (states.get? (viewerUserId, sessionId)).any
      (fun old => old.lastReadMessageId = messageId) = true
  · have hsame : (markRead viewerUserId now sessionId messageId states).1 = states := by
      simp [markRead, SessionReadState.key, hread]
    rw [hsame]
    split
    next hk =>
      rw [hk.1] at hk
      exact absurd hread hk.2
    next => rfl
  · have hupsert : (markRead viewerUserId now sessionId messageId states).1 =
        states.upsert
          { userId := viewerUserId, sessionId, lastReadMessageId := messageId, updatedAt := now }
          fun old => { old with lastReadMessageId := messageId, updatedAt := now } := by
      simp [markRead, SessionReadState.key, hread]
    rw [hupsert, Table.get?_upsert]
    by_cases hk : k = (viewerUserId, sessionId)
    · subst hk
      rw [if_pos rfl, if_pos ⟨rfl, hread⟩]
      cases hold : states.get? (viewerUserId, sessionId) with
      | none => rfl
      | some old =>
        have hkey : old.key = (viewerUserId, sessionId) := Table.key_of_get? hold
        simp only [SessionReadState.key, Prod.mk.injEq] at hkey
        simp [hkey.1, hkey.2]
    · rw [if_neg fun h => hk h.symm, if_neg fun h => hk h.1]

/-- The read states of other users and sessions are as they were. -/
theorem get?_markSessions_of_not_mem {viewerUserId : UserId} {now : Millis}
    {sessions : List (SessionId × MessageId)} {marked : Table SessionReadState.key × Nat}
    {k : UserId × SessionId} (hk : ∀ session ∈ sessions, k ≠ (viewerUserId, session.1)) :
    (markSessions viewerUserId now sessions marked).1.get? k = marked.1.get? k := by
  induction sessions generalizing marked with
  | nil => rfl
  | cons session sessions ih =>
    rw [markSessions, List.foldl_cons, ← markSessions,
      ih fun s hs => hk s (List.mem_cons_of_mem _ hs), get?_markRead,
      if_neg fun h => hk session List.mem_cons_self h.1]

/-- A session whose read state changes is one of those marked. -/
theorem mem_markedSessions_of_changed {db db' : IndexDb} {rootSessionId : Option SessionId}
    {now : Millis} {n : Nat} {userId : UserId} {sessionId : SessionId}
    (h : db.markAllRead options rootSessionId now = .ok (db', n))
    (hchanged : db'.readStates.get? (userId, sessionId) ≠ db.readStates.get? (userId, sessionId)) :
    userId = options.viewerUserId ∧
      ∃ session ∈ db.markedSessions options rootSessionId, session.1 = sessionId := by
  unfold markAllRead at h
  simp only [bind, Except.bind, assertD1QueryParameterLimit] at h
  split at h
  next => cases h
  next =>
    cases h
    by_contra hnot
    refine hchanged (get?_markSessions_of_not_mem ?_)
    intro session hsession he
    cases he
    exact hnot ⟨rfl, session, hsession, rfl⟩

theorem mem_markedSessions {db : IndexDb} {rootSessionId : Option SessionId}
    {session : SessionId × MessageId} :
    session ∈ db.markedSessions options rootSessionId ↔
      ∃ e ∈ db.eligibleSessions options, e.unread = true ∧
        (∀ root ∈ rootSessionId, e.id ∈ requestedSessions (db.eligibleSessions options) root) ∧
        ∃ m, e.row.latestTerminalMessage = some m ∧ session = (e.id, m.id) := by
  simp only [markedSessions, List.mem_filterMap, List.mem_filter, Bool.and_eq_true,
    Option.all_eq_true, Option.map_eq_some_iff, List.contains_iff_mem]
  constructor
  · rintro ⟨e, ⟨he, hunread, hroot⟩, m, hm, rfl⟩
    exact ⟨e, he, hunread, hroot, m, hm, rfl⟩
  · rintro ⟨e, he, hunread, hroot, m, hm, rfl⟩
    exact ⟨e, ⟨he, hunread, hroot⟩, m, hm, rfl⟩

end IndexDb

end BackgroundAgents.SessionIndex

import BackgroundAgents.SessionIndex.InboxHierarchies

/-!
# Marking what the inbox shows

A marking selects sessions and upserts a read state for each. The ids it
selects are distinct and none of them is read, so every upsert changes a row
and the count is the number of sessions (`markAllRead_marks`).

With the root of an item it selects what the item shows as unread
(`marksItem_of_marks`). Without one it leaves nothing unread
(`unread_after_markAllRead`): a session of the inbox after the marking was in
it before, since no filter looks at a read state of another session.

`inbox_shows_each_once` puts this together with the paging.
-/

namespace BackgroundAgents.SessionIndex

open Keyset Relation

/-- A marking marked the unread sessions of an item, and nothing else. -/
structure MarksItem (db db' : IndexDb) (viewerUserId : UserId) (item : InboxItem) (n : Nat) :
    Prop where
  others : db' = { db with readStates := db'.readStates }
  changed : ∀ userId sessionId,
    db'.readStates.get? (userId, sessionId) ≠ db.readStates.get? (userId, sessionId) ↔
      userId = viewerUserId ∧
        ∃ s ∈ item.sessions, s.row.id = sessionId ∧ s.readState.unread = true
  read : ∀ s ∈ item.sessions, db'.unread viewerUserId s.row = false
  count : n = (item.sessions.filter (·.readState.unread)).length

/-- What the upserts of a marking did: each session named has its message as the last one read,
and no other read state changed. -/
structure Marks (db db' : IndexDb) (viewerUserId : UserId)
    (sessions : List (SessionId × MessageId)) (n : Nat) : Prop where
  others : db' = { db with readStates := db'.readStates }
  changed : ∀ userId sessionId,
    db'.readStates.get? (userId, sessionId) ≠ db.readStates.get? (userId, sessionId) ↔
      userId = viewerUserId ∧ sessionId ∈ sessions.map Prod.fst
  read : ∀ session ∈ sessions, ∃ state, db'.readStates.get? (viewerUserId, session.1) = some state ∧
    state.lastReadMessageId = session.2
  count : n = sessions.length

/-- A session whose read state has another message, or that has none. -/
def Unmarked (states : Table SessionReadState.key) (viewerUserId : UserId)
    (session : SessionId × MessageId) : Prop :=
  ¬(states.get? (viewerUserId, session.1)).any
    (fun old => old.lastReadMessageId = session.2) = true

namespace IndexDb

section Upserts

variable {viewerUserId : UserId} {now : Millis} {sessions : List (SessionId × MessageId)}

theorem markRead_count {session : SessionId × MessageId} {states : Table SessionReadState.key}
    (h : Unmarked states viewerUserId session) :
    (markRead viewerUserId now session.1 session.2 states).2 = 1 := by
  rw [markRead, if_neg h]

/-- Upserts of sessions that are not read, one for each session. -/
theorem markSessions_spec (hnodup : (sessions.map Prod.fst).Nodup)
    {marked : Table SessionReadState.key × Nat}
    (hnew : ∀ session ∈ sessions, Unmarked marked.1 viewerUserId session) :
    (markSessions viewerUserId now sessions marked).2 = marked.2 + sessions.length ∧
      ∀ session ∈ sessions,
        (markSessions viewerUserId now sessions marked).1.get? (viewerUserId, session.1) =
          some
            { userId := viewerUserId
              sessionId := session.1
              lastReadMessageId := session.2
              updatedAt := now } := by
  induction sessions generalizing marked with
  | nil => exact ⟨rfl, fun session h => by cases h⟩
  | cons first sessions ih =>
    obtain ⟨hfirst, hrest⟩ := List.nodup_cons.mp hnodup
    have hapart : ∀ session ∈ sessions, session.1 ≠ first.1 := by
      intro session hsession he
      exact hfirst (he ▸ List.mem_map_of_mem hsession)
    have hunmarked := hnew first List.mem_cons_self
    -- the first upsert leaves the other sessions unread
    have hkept : ∀ session ∈ sessions,
        Unmarked (markRead viewerUserId now first.1 first.2 marked.1).1 viewerUserId session := by
      intro session hsession
      rw [Unmarked, get?_markRead, if_neg fun h => hapart session hsession (Prod.mk.inj h.1).2]
      exact hnew session (List.mem_cons_of_mem _ hsession)
    obtain ⟨hcount, hread⟩ := @ih hrest
      ((markRead viewerUserId now first.1 first.2 marked.1).1,
        marked.2 + (markRead viewerUserId now first.1 first.2 marked.1).2) hkept
    rw [markSessions, List.foldl_cons, ← markSessions]
    refine ⟨?_, ?_⟩
    · rw [hcount, markRead_count hunmarked, List.length_cons]
      omega
    · intro session hsession
      rcases List.mem_cons.mp hsession with rfl | hsession
      · rw [get?_markSessions_of_not_mem, get?_markRead, if_pos ⟨rfl, hunmarked⟩]
        intro other hother he
        exact hapart other hother (Prod.mk.inj he).2.symm
      · exact hread session hsession

end Upserts

variable {db db' : IndexDb} {options : InboxFilterOptions} {rootSessionId : Option SessionId}

/-! ## The sessions marked -/

theorem unread_iff {viewerUserId : UserId} {r : SessionRow} :
    db.unread viewerUserId r = true ↔
      ∃ m, r.latestTerminalMessage = some m ∧
        (∃ viewer, db.users.get? viewerUserId = some viewer ∧ viewer.createdAt ≤ m.completedAt) ∧
          Unmarked db.readStates viewerUserId (r.id, m.id) := by
  simp only [unread, Option.any_eq_true, Bool.and_eq_true, decide_eq_true_eq, Unmarked]
  constructor
  · rintro ⟨m, hm, viewer, hviewer, hcreated, hread⟩
    rw [show viewer.id = viewerUserId from Table.key_of_get? hviewer] at hread
    refine ⟨m, hm, ⟨viewer, hviewer, hcreated⟩, ?_⟩
    rintro ⟨old, hold, hlast⟩
    have hne := (Option.all_eq_true _ _).mp hread old hold
    exact of_decide_eq_true hne hlast
  · rintro ⟨m, hm, ⟨viewer, hviewer, hcreated⟩, hread⟩
    refine ⟨m, hm, viewer, hviewer, hcreated, (Option.all_eq_true _ _).mpr ?_⟩
    intro old hold
    rw [show viewer.id = viewerUserId from Table.key_of_get? hviewer] at hold
    exact decide_eq_true fun hlast => hread ⟨old, hold, hlast⟩

/-- Which sessions a marking names. -/
theorem mem_markedIds {id : SessionId} :
    id ∈ (db.markedSessions options rootSessionId).map Prod.fst ↔
      ∃ e ∈ db.eligibleSessions options, e.id = id ∧ e.unread = true ∧
        ∀ root ∈ rootSessionId, id ∈ requestedSessions (db.eligibleSessions options) root := by
  rw [List.mem_map]
  constructor
  · rintro ⟨session, hsession, rfl⟩
    obtain ⟨e, he, hunread, hroot, m, -, rfl⟩ := mem_markedSessions.mp hsession
    exact ⟨e, he, rfl, hunread, hroot⟩
  · rintro ⟨e, he, rfl, hunread, hroot⟩
    have hrow := (mem_eligibleSessions.mp he).2.2.2.2
    obtain ⟨m, hm, -⟩ := unread_iff.mp (hrow ▸ hunread)
    exact ⟨(e.id, m.id), mem_markedSessions.mpr ⟨e, he, hunread, hroot, m, hm, rfl⟩, rfl⟩

theorem nodup_markedIds : ((db.markedSessions options rootSessionId).map Prod.fst).Nodup := by
  refine (@nodup_eligibleSessions db options).sublist ?_
  rw [markedSessions]
  refine (Table.map_filterMap_sublist ?_ _).trans
    (List.filter_sublist.map fun e : EligibleSession => e.id)
  intro e session h
  obtain ⟨m, -, rfl⟩ := Option.map_eq_some_iff.mp h
  rfl

theorem unmarked_of_mem {session : SessionId × MessageId}
    (h : session ∈ db.markedSessions options rootSessionId) :
    Unmarked db.readStates options.viewerUserId session := by
  obtain ⟨e, he, hunread, -, m, hm, rfl⟩ := mem_markedSessions.mp h
  have hrow := (mem_eligibleSessions.mp he).2.2.2.2
  obtain ⟨m', hm', -, hunmarked⟩ := unread_iff.mp (hrow ▸ hunread)
  rw [hm] at hm'
  cases hm'
  exact hunmarked

/-- **A marking** marks the sessions that it names. -/
theorem markAllRead_marks (hfits : db.inboxParameters options + 5 ≤ maxD1QueryParameters)
    (rootSessionId : Option SessionId) (now : Millis) :
    ∃ db' n, db.markAllRead options rootSessionId now = .ok (db', n) ∧
      Marks db db' options.viewerUserId (db.markedSessions options rootSessionId) n := by
  have hcount : ¬db.inboxParameters options + (if rootSessionId.isSome then 1 else 0) + 2 >
      maxD1QueryParameters := by
    split <;> omega
  refine ⟨_, _, by rw [markAllRead, assertD1QueryParameterLimit, if_neg hcount]; rfl, ?_⟩
  obtain ⟨hn, hread⟩ := @markSessions_spec options.viewerUserId now _
    (@nodup_markedIds db options rootSessionId) (db.readStates, 0)
    fun session hsession => unmarked_of_mem hsession
  refine ⟨rfl, ?_, ?_, ?_⟩
  · intro userId sessionId
    constructor
    · intro hchanged
      by_contra hnot
      refine hchanged (get?_markSessions_of_not_mem ?_)
      intro session hsession he
      cases he
      exact hnot ⟨rfl, List.mem_map_of_mem hsession⟩
    · rintro ⟨rfl, hmem⟩ hsame
      obtain ⟨session, hsession, rfl⟩ := List.mem_map.mp hmem
      refine unmarked_of_mem hsession ?_
      rw [← hsame]
      dsimp only
      rw [hread session hsession]
      simp
  · exact fun session hsession => ⟨_, hread session hsession, rfl⟩
  · rw [hn, Nat.zero_add]

/-! ## What is read afterwards -/

theorem unread_congr {viewerUserId : UserId} {r : SessionRow} (husers : db'.users = db.users)
    (hstates : db'.readStates.get? (viewerUserId, r.id) =
      db.readStates.get? (viewerUserId, r.id)) :
    db'.unread viewerUserId r = db.unread viewerUserId r := by
  rw [Bool.eq_iff_iff, unread_iff, unread_iff]
  simp only [Unmarked, husers, hstates]

section Marked

variable {n : Nat}
  (h : Marks db db' options.viewerUserId (db.markedSessions options rootSessionId) n)
include h

/-- A session that is named is read. -/
theorem read_of_marked {e : EligibleSession} (he : e ∈ db.eligibleSessions options)
    (hmarked : e.id ∈ (db.markedSessions options rootSessionId).map Prod.fst) :
    db'.unread options.viewerUserId e.row = false := by
  obtain ⟨session, hsession, hid⟩ := List.mem_map.mp hmarked
  obtain ⟨state, hstate, hlast⟩ := h.read session hsession
  obtain ⟨e', he', -, -, m, hm, rfl⟩ := mem_markedSessions.mp hsession
  have hsame : e' = e := eligible_eq_of_id nodup_eligibleSessions he' he hid
  subst hsame
  refine Bool.eq_false_of_not_eq_true fun hunread => ?_
  obtain ⟨m', hm', -, hunmarked⟩ := unread_iff.mp hunread
  rw [hm] at hm'
  cases hm'
  refine hunmarked ?_
  rw [show db'.readStates.get? (options.viewerUserId, e'.row.id) = some state from hstate]
  simpa using hlast

/-- The read states of a session that is not named are as they were. -/
theorem readState_of_not_marked {id : SessionId}
    (hmarked : id ∉ (db.markedSessions options rootSessionId).map Prod.fst) (userId : UserId) :
    db'.readStates.get? (userId, id) = db.readStates.get? (userId, id) := by
  by_contra hne
  exact hmarked ((h.changed userId id).mp hne).2

theorem users_of_marks : db'.users = db.users := by
  rw [h.others]

end Marked

/-! ## The sessions of an item -/

/-- What the inbox shows of an eligible session. -/
def shownSession (e : EligibleSession) : InboxSession where
  row := e.row
  readState := readStateFromRow e.row e.unread

theorem unread_shownSession {e : EligibleSession} (he : e ∈ db.eligibleSessions options) :
    (shownSession e).readState.unread = e.unread := by
  have hunread := (mem_eligibleSessions.mp he).2.2.2.2
  cases hm : e.row.latestTerminalMessage with
  | none =>
    rw [hunread, unread]
    simp [shownSession, readStateFromRow, hm]
  | some m => simp [shownSession, readStateFromRow, hm]

/-- The sessions of an item are those of its root. -/
theorem mem_sessions_of_rootItem (hforest : Forest db.sessions) {root : InboxRoot}
    (hroot : root ∈ inboxRoots (effectiveSessions (db.eligibleSessions options)))
    {item : InboxItem}
    (hitem : rootItem (effectiveSessions (db.eligibleSessions options)) root = some item)
    {s : InboxSession} :
    s ∈ item.sessions ↔ ∃ e ∈ db.eligibleSessions options,
      TopAncestor (db.eligibleSessions options) e.id root.rootSessionId ∧ s = shownSession e := by
  obtain ⟨item', hitem', -, hperm⟩ := rootItem_spec hforest hroot
  rw [hitem] at hitem'
  cases hitem'
  rw [hperm.mem_iff, List.mem_map]
  constructor
  · rintro ⟨row, hrow, rfl⟩
    obtain ⟨session, hsession, hid, rfl⟩ := mem_rootRows.mp hrow
    obtain ⟨he, -, htop⟩ := (mem_effectiveSessions hforest).mp (mem_lineage.mpr ⟨hsession, hid⟩)
    exact ⟨_, he, htop, rfl⟩
  · rintro ⟨e, he, htop, rfl⟩
    let session : EffectiveSession := { e with effectiveRootSessionId := root.rootSessionId }
    have hlineage : session ∈ lineage (effectiveSessions (db.eligibleSessions options))
        root.rootSessionId := (mem_effectiveSessions hforest).mpr ⟨he, rfl, htop⟩
    obtain ⟨hsession, hid⟩ := mem_lineage.mp hlineage
    exact ⟨_, mem_rootRows.mpr ⟨_, hsession, hid, rfl⟩, rfl⟩

/-- **Marking an item** marks what it shows as unread. -/
theorem marksItem_of_marks (hforest : Forest db.sessions) {root : InboxRoot}
    (hroot : root ∈ inboxRoots (effectiveSessions (db.eligibleSessions options)))
    {item : InboxItem}
    (hitem : rootItem (effectiveSessions (db.eligibleSessions options)) root = some item)
    {n : Nat}
    (h : Marks db db' options.viewerUserId
      (db.markedSessions options (some item.rootSession.row.id)) n) :
    MarksItem db db' options.viewerUserId item n := by
  obtain ⟨hid, hnodup, -⟩ := ids_of_rootItem hforest hroot hitem
  have htop := (mem_inboxRoots_iff hforest).mp (List.mem_map_of_mem hroot)
  have hmarked : ∀ id,
      id ∈ (db.markedSessions options (some item.rootSession.row.id)).map Prod.fst ↔
        ∃ s ∈ item.sessions, s.row.id = id ∧ s.readState.unread = true := by
    intro id
    rw [mem_markedIds, hid]
    constructor
    · rintro ⟨e, he, rfl, hunread, hwalk⟩
      refine ⟨shownSession e, ?_, rfl, by rw [unread_shownSession he, hunread]⟩
      refine (mem_sessions_of_rootItem hforest hroot hitem).mpr ⟨e, he, ?_, rfl⟩
      exact (mem_requestedSessions_root htop.top).mp (hwalk _ rfl)
    · rintro ⟨s, hs, rfl, hunread⟩
      obtain ⟨e, he, hpath, rfl⟩ := (mem_sessions_of_rootItem hforest hroot hitem).mp hs
      rw [unread_shownSession he] at hunread
      refine ⟨e, he, rfl, hunread, ?_⟩
      rintro root' ⟨⟩
      exact (mem_requestedSessions_root htop.top).mpr hpath
  refine ⟨h.others, ?_, ?_, ?_⟩
  · intro userId sessionId
    rw [h.changed, hmarked]
  · intro s hs
    obtain ⟨e, he, -, rfl⟩ := (mem_sessions_of_rootItem hforest hroot hitem).mp hs
    by_cases hmem : e.id ∈ (db.markedSessions options (some item.rootSession.row.id)).map Prod.fst
    · exact read_of_marked h he hmem
    · have hread : e.unread = false := by
        refine Bool.eq_false_of_not_eq_true fun hunread => ?_
        exact hmem ((hmarked e.id).mpr
          ⟨shownSession e, hs, rfl, by rw [unread_shownSession he, hunread]⟩)
      rw [← hread, (mem_eligibleSessions.mp he).2.2.2.2]
      exact unread_congr (users_of_marks h) (readState_of_not_marked h hmem _)
  · have hperm : ((db.markedSessions options (some item.rootSession.row.id)).map Prod.fst).Perm
        ((item.sessions.filter (·.readState.unread)).map (·.row.id)) := by
      refine (List.perm_ext_iff_of_nodup nodup_markedIds ?_).mpr ?_
      · exact hnodup.sublist (List.filter_sublist.map fun s : InboxSession => s.row.id)
      · intro id
        rw [hmarked, List.mem_map]
        constructor
        · rintro ⟨s, hs, hsid, hunread⟩
          exact ⟨s, List.mem_filter.mpr ⟨hs, hunread⟩, hsid⟩
        · rintro ⟨s, hs, hsid⟩
          obtain ⟨hs, hunread⟩ := List.mem_filter.mp hs
          exact ⟨s, hs, hsid, hunread⟩
    have hlength := hperm.length_eq
    rw [List.length_map, List.length_map] at hlength
    rw [h.count, hlength]

/-! ## Marking everything -/

/-- The owner filter looks at the viewer's own read state of the session. -/
theorem ownerFilterCondition_congr (states : Table SessionReadState.key)
    (filters : SessionListFilters) :
    boundParameters (IndexDb.ownerFilterCondition { db with readStates := states } filters) =
        boundParameters (db.ownerFilterCondition filters) ∧
      ∀ r : SessionRow,
        (∀ userId, states.get? (userId, r.id) = db.readStates.get? (userId, r.id)) →
          meets (IndexDb.ownerFilterCondition { db with readStates := states } filters) r =
            meets (db.ownerFilterCondition filters) r := by
  unfold ownerFilterCondition
  split
  next user ownerFilter _ _ =>
    cases ownerFilter with
    | started => exact ⟨rfl, fun _ _ => rfl⟩
    | participating =>
      refine ⟨rfl, fun r h => ?_⟩
      simp [ownerCondition, meets, h user.userId]
    | anyone => exact ⟨rfl, fun _ _ => rfl⟩
  next => exact ⟨rfl, fun _ _ => rfl⟩

/-- No condition looks at a read state of another session. -/
theorem meets_inboxConditions_congr {states : Table SessionReadState.key} {r : SessionRow}
    (h : ∀ userId, states.get? (userId, r.id) = db.readStates.get? (userId, r.id)) :
    meets (IndexDb.inboxConditions { db with readStates := states } options) r =
      meets (db.inboxConditions options) r := by
  have howner := (ownerFilterCondition_congr states options.filters).2 r h
  unfold inboxConditions filterConditions
  simp only [meets, List.all_append] at howner ⊢
  rw [howner]
  rfl

theorem inboxParameters_congr (states : Table SessionReadState.key) :
    IndexDb.inboxParameters { db with readStates := states } options =
      db.inboxParameters options := by
  have howner := (@ownerFilterCondition_congr db states options.filters).1
  unfold inboxParameters inboxConditions filterConditions
  simp only [boundParameters_append]
  rw [howner]
  rfl

/-- After a marking without a root, nothing in the inbox is unread. -/
theorem unread_after_markAllRead {n : Nat}
    (h : Marks db db' options.viewerUserId (db.markedSessions options none) n)
    {e : EligibleSession} (he : e ∈ db'.eligibleSessions options) : e.unread = false := by
  obtain ⟨hmem, hmeets, heligible, hroot, hunread⟩ := mem_eligibleSessions.mp he
  have hsessions : db'.sessions = db.sessions := by rw [h.others]
  rw [hsessions] at hmem
  by_cases hmarked : e.id ∈ (db.markedSessions options none).map Prod.fst
  · obtain ⟨e', he', hid, -⟩ := mem_markedIds.mp hmarked
    have hrow : e'.row = e.row := Table.eq_of_key (row_of_eligible he') hmem hid
    rw [hunread, ← hrow]
    exact read_of_marked h he' (hid ▸ hmarked)
  · -- it was in the inbox before, and would have been marked
    have hstates := readState_of_not_marked h hmarked
    have hbefore : meets (db.inboxConditions options) e.row = true := by
      rw [← meets_inboxConditions_congr hstates, ← h.others]
      exact hmeets
    have hsame : e.unread = db.unread options.viewerUserId e.row := by
      rw [hunread]
      exact unread_congr (users_of_marks h) (hstates _)
    refine Bool.eq_false_of_not_eq_true fun hyes => hmarked ?_
    refine mem_markedIds.mpr ⟨e, ?_, rfl, hyes, fun root hr => by cases hr⟩
    exact mem_eligibleSessions.mpr ⟨hmem, hbefore, heligible, hroot, hsame⟩

/-- **Marking everything** empties the first category. -/
theorem needsAttention_after_markAllRead (hforest : Forest db.sessions)
    (hfits : db.inboxParameters options + 5 ≤ maxD1QueryParameters) {n : Nat}
    (h : Marks db db' options.viewerUserId (db.markedSessions options none) n) (limit : Nat) :
    db'.inbox options .needsAttention limit none =
      .ok { items := [], hasMore := false, nextCursor := none } := by
  have hforest' : Forest db'.sessions := by
    rw [h.others]
    exact hforest
  have hfits' : db'.inboxParameters options + 5 ≤ maxD1QueryParameters := by
    rw [h.others, inboxParameters_congr]
    exact hfits
  have hnone : categoryRoots (effectiveSessions (db'.eligibleSessions options))
      .needsAttention = [] := by
    refine List.eq_nil_iff_forall_not_mem.mpr fun root hroot => ?_
    obtain ⟨e, he, -, hunread⟩ :=
      ((mem_categoryRoots_iff hforest').mp (List.mem_map_of_mem hroot)).2
    rw [unread_after_markAllRead h he] at hunread
    cases hunread
  rw [inbox_page hfits', hnone]
  simp [below]

/-! ## Requests -/

def maxSessionListFilterIds : Nat := 50

/-- The filters of a request fit in a query: its teams are limited in number, and it names at
most the viewer as a creator. -/
theorem inboxParameters_le (hcreated : options.createdByUserIds.length ≤ 1)
    (hteams : options.teamIds.length ≤ maxSessionListFilterIds) :
    db.inboxParameters options + 5 ≤ maxD1QueryParameters := by
  have hscope : boundParameters (db.scopeCondition options.readScope options.mode) ≤ 4 := by
    cases options.readScope with
    | internal reason => exact Nat.zero_le _
    | viewer viewer =>
      cases viewer <;> simp only [scopeCondition, boundParameters_singleton] <;> split <;> omega
  have howner : boundParameters (db.ownerFilterCondition options.filters) ≤ 3 := by
    unfold ownerFilterCondition
    split
    next user ownerFilter _ _ => cases ownerFilter <;> simp [ownerCondition]
    next => exact Nat.zero_le _
  have hvisibility : boundParameters (options.visibility.toList.map fun visibility =>
      { holds := fun r => r.visibility = visibility, params := 1 }) ≤ 1 := by
    cases options.visibility <;> simp
  have hmax : maxD1QueryParameters = 100 ∧ maxSessionListFilterIds = 50 := ⟨rfl, rfl⟩
  unfold inboxParameters inboxConditions filterConditions
  simp only [boundParameters_append, boundParameters_ite]
  split_ifs
  all_goals
    simp only [InboxFilterOptions.filters, truthy, Option.filter_none, Option.toList_none,
      List.map_nil, boundParameters_nil] at howner ⊢
    omega

end IndexDb

open IndexDb

/-- **Inbox paging shows every session once.** Over a forest of sessions, the pages of each
category are determined and go through each of its roots once; together they show each eligible
session in one item, under its topmost eligible ancestor and with the sessions that share it; a
snapshot holds the first page of every category; marking an item marks what is unread in it; and
marking everything leaves the category that needs attention empty. -/
theorem inbox_shows_each_once {db : IndexDb} {options : InboxFilterOptions} {limit : Nat}
    (hforest : Forest db.sessions) (hlimit : 0 < limit)
    (hfits : db.inboxParameters options + 5 ≤ maxD1QueryParameters) :
    ∃ pages : SessionInboxCategory → List ListSessionInboxResult,
      (∀ c ps, CategoryPages db options c limit ps ↔ ps = pages c) ∧
      ShownOnce (db.eligibleSessions options) pages ∧
      (∃ snapshot, db.inboxSnapshot options limit = .ok snapshot ∧
        ∀ c, db.inbox options c limit none = .ok (snapshot c)) ∧
      (∀ item ∈ shownItems pages, ∀ now, ∃ db' n,
        db.markAllRead options (some item.rootSession.row.id) now = .ok (db', n) ∧
          MarksItem db db' options.viewerUserId item n) ∧
      ∀ now, ∃ db' n, db.markAllRead options none now = .ok (db', n) ∧
        ∀ size, db'.inbox options .needsAttention size none =
          .ok { items := [], hasMore := false, nextCursor := none } := by
  choose pages hpages hitems using fun c => @exists_categoryPages db options hfits c limit hlimit
  refine ⟨pages, hpages, shownOnce hforest hitems, inboxSnapshot_first hfits limit, ?_, ?_⟩
  · intro item hitem now
    obtain ⟨root, hroot, hitem⟩ := rootItem_of_mem_shownItems hitems hitem
    obtain ⟨db', n, hok, hmarks⟩ := markAllRead_marks hfits (some item.rootSession.row.id) now
    exact ⟨db', n, hok, marksItem_of_marks hforest hroot hitem hmarks⟩
  · intro now
    obtain ⟨db', n, hok, hmarks⟩ := markAllRead_marks hfits none now
    exact ⟨db', n, hok, needsAttention_after_markAllRead hforest hfits hmarks⟩

/-- Three generations, of which the viewer may not see the second. -/
def hiddenParent : IndexDb where
  teamMemberships := .empty
  sessionCollaborators := .empty
  sessions := ⟨[
    { id := ['a']
      status := .active
      rootSessionId := some ['a']
      updatedAt := 1 },
    { id := ['b']
      status := .active
      parentSessionId := some ['a']
      rootSessionId := some ['a']
      visibility := .private_
      userId := some ['x'] },
    { id := ['c']
      status := .completed
      parentSessionId := some ['b']
      rootSessionId := some ['a']
      latestTerminalMessage := some { id := ['m'], createdAt := 5, completedAt := 6 }
      updatedAt := 7 }], by decide⟩
  users := ⟨[{ id := ['u'], createdAt := 2 }], by decide⟩
  sessionRepositories := []
  readStates := .empty

/-- What the user `u` asks for. -/
def memberRequest : InboxFilterOptions where
  readScope := .viewer (.user
    { userId := ['u']
      roleKey := some .member
      permissions := [.sessionsRead]
      memberships := fun _ => none })
  mode := .on
  viewerUserId := ['u']

theorem inbox_shows_each_once_hidden :
    (hiddenParent.inbox memberRequest .needsAttention 25 none).map
        (fun page => page.items.map InboxItem.ids) = .ok [[['c']]] ∧
      (hiddenParent.inbox memberRequest .inProgress 25 none).map
        (fun page => page.items.map InboxItem.ids) = .ok [[['a']]] ∧
      ∃ pages, ShownOnce (hiddenParent.eligibleSessions memberRequest) pages := by
  have hforest : Forest hiddenParent.sessions := by
    have htop : ∀ parent, ¬ParentRow hiddenParent.sessions ['a'] parent := by
      rintro parent ⟨r, hr, hid, hparent, -⟩
      simp only [hiddenParent, List.mem_cons, List.not_mem_nil, or_false] at hr
      rcases hr with rfl | rfl | rfl
      · cases hparent
      · cases hid
      · cases hid
    have hb : ParentRow hiddenParent.sessions ['b'] ['a'] := by
      refine ⟨_, List.mem_cons_of_mem _ List.mem_cons_self, rfl, rfl, _, List.mem_cons_self, rfl⟩
    have hc : ParentRow hiddenParent.sessions ['c'] ['b'] := by
      refine ⟨_, List.mem_cons_of_mem _ (List.mem_cons_of_mem _ List.mem_cons_self), rfl, rfl,
        _, List.mem_cons_of_mem _ List.mem_cons_self, rfl⟩
    intro r hr
    refine ⟨['a'], ?_, ?_, htop⟩
    · simp only [hiddenParent, List.mem_cons, List.not_mem_nil, or_false] at hr
      rcases hr with rfl | rfl | rfl <;> rfl
    · simp only [hiddenParent, List.mem_cons, List.not_mem_nil, or_false] at hr
      rcases hr with rfl | rfl | rfl
      · exact .refl
      · exact .single hb
      · exact .head hc (.single hb)
  have hfits : hiddenParent.inboxParameters memberRequest + 5 ≤ maxD1QueryParameters :=
    inboxParameters_le (by decide) (by decide)
  obtain ⟨pages, -, hshown, -⟩ :=
    @inbox_shows_each_once hiddenParent memberRequest 25 hforest (by decide) hfits
  exact ⟨by decide, by decide, pages, hshown⟩

end BackgroundAgents.SessionIndex

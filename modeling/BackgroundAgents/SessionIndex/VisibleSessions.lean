import BackgroundAgents.SessionIndex.Inbox

/-!
# What listings show

Whatever the filters, the cursor and the rerooting of hierarchies, a session
that a listing returns or a marking marks is one that the viewer may open
(`listings_show_readable`). Every query of the inbox starts from the eligible
sessions, and these meet the visibility of the viewer (`visible_of_eligible`);
what remains is that the joins, the grouping and the assembly of pages return
no session that they were not given (`row_of_item`).
-/

namespace BackgroundAgents.SessionIndex

open Keyset Grouping

/-- The sessions of an item, its root first. -/
def InboxItem.sessions (item : InboxItem) : List InboxSession :=
  item.rootSession :: item.descendantSessions

variable {item : InboxItem} {s : InboxSession}

/-- The sessions of an item are rows of its lineage. -/
theorem mem_lineage_of_toInboxItem {rootId : SessionId} {lineage : List InboxSessionRow}
    (h : toInboxItem rootId lineage = some item) (hs : s ∈ item.sessions) :
    ∃ row ∈ lineage, s = toListItem row := by
  obtain ⟨rootRow, hroot, rfl⟩ := Option.map_eq_some_iff.mp h
  have hmem : rootRow ∈ lineage := by
    rcases Option.or_eq_some_iff.mp hroot with hfound | ⟨-, hhead⟩
    · exact List.mem_of_find?_eq_some hfound
    · exact List.mem_of_mem_head? hhead
  rcases List.mem_cons.mp hs with rfl | hs
  · exact ⟨rootRow, hmem, rfl⟩
  · obtain ⟨row, hrow, rfl⟩ := List.mem_map.mp hs
    exact ⟨row, (List.mem_filter.mp hrow).1, rfl⟩

/-- A page shows rows that it was built from. -/
theorem row_of_item {limit : Nat} {rows : List InboxSessionRow}
    (h : item ∈ (assemblePage (buildPageData limit rows)).items) (hs : s ∈ item.sessions) :
    ∃ row ∈ rows, s = toListItem row := by
  obtain ⟨root, hroot, hitem⟩ := List.mem_filterMap.mp h
  obtain ⟨row, hrow, hrow'⟩ := mem_lineage_of_toInboxItem hitem hs
  exact ⟨row, mem_of_mem_grouped (List.mem_of_mem_take hroot) hrow, hrow'⟩

theorem session_of_mem_joinRoots {effective : List EffectiveSession} {roots : List InboxRoot}
    {row : InboxSessionRow} (h : row ∈ joinRoots effective roots) : row.session ∈ effective := by
  obtain ⟨session, hsession, hrow⟩ := List.mem_flatMap.mp h
  obtain ⟨root, -, rfl⟩ := List.mem_map.mp hrow
  exact hsession

theorem eligible_of_mem_effectiveSessions {eligible : List EligibleSession}
    {e : EffectiveSession} (h : e ∈ effectiveSessions eligible) :
    e.toEligibleSession ∈ eligible := by
  obtain ⟨e', he', rfl⟩ := List.mem_map.mp h
  exact he'

namespace IndexDb

variable {db : IndexDb} {options : InboxFilterOptions} {limit : Nat}

/-- Every session of a page of a category is eligible. -/
theorem eligible_of_inbox {category : SessionInboxCategory} {cursor : Option SessionInboxCursor}
    {result : ListSessionInboxResult} (h : db.inbox options category limit cursor = .ok result)
    (hitem : item ∈ result.items) (hs : s ∈ item.sessions) :
    ∃ e ∈ db.eligibleSessions options, s.row = e.row := by
  unfold inbox at h
  simp only [bind, Except.bind, assertD1QueryParameterLimit] at h
  split at h
  next => cases h
  next =>
    cases h
    obtain ⟨row, hrow, rfl⟩ := row_of_item hitem hs
    have hjoin := session_of_mem_joinRoots (mem_newestFirst.mp hrow)
    exact ⟨_, eligible_of_mem_effectiveSessions hjoin, rfl⟩

/-- Every session of a snapshot is eligible. -/
theorem eligible_of_inboxSnapshot {snapshot : SessionInboxCategory → ListSessionInboxResult}
    (h : db.inboxSnapshot options limit = .ok snapshot) {category : SessionInboxCategory}
    (hitem : item ∈ (snapshot category).items) (hs : s ∈ item.sessions) :
    ∃ e ∈ db.eligibleSessions options, s.row = e.row := by
  unfold inboxSnapshot at h
  simp only [bind, Except.bind, assertD1QueryParameterLimit] at h
  split at h
  next => cases h
  next =>
    cases h
    obtain ⟨row, hrow, rfl⟩ := row_of_item hitem hs
    have hquery := (List.mem_filter.mp hrow).1
    have hjoin := session_of_mem_joinRoots ((List.mem_insertionSort _).mp hquery)
    exact ⟨_, eligible_of_mem_effectiveSessions hjoin, rfl⟩

/-- A session whose read state a marking changes is eligible. -/
theorem eligible_of_markAllRead {db' : IndexDb} {rootSessionId : Option SessionId}
    {now : Millis} {n : Nat} {userId : UserId} {sessionId : SessionId}
    (h : db.markAllRead options rootSessionId now = .ok (db', n))
    (hchanged : db'.readStates.get? (userId, sessionId) ≠
      db.readStates.get? (userId, sessionId)) :
    ∃ e ∈ db.eligibleSessions options, e.id = sessionId := by
  obtain ⟨-, session, hsession, rfl⟩ := mem_markedSessions_of_changed h hchanged
  obtain ⟨e, he, -, -, m, -, rfl⟩ := mem_markedSessions.mp hsession
  exact ⟨e, he, rfl⟩

end IndexDb

/-- **Listings show what may be opened.** With teams enforced, the visibility predicate selects
the rows that a reader may open without breaking glass, and every session that the page
listing or the inbox returns to the reader, or that a marking marks, is such a row. -/
theorem listings_show_readable (toLowerCase : Text → Text) (db : IndexDb)
    {viewer : SessionViewer} (hviewer : db.Reader viewer) :
    (∀ r : SessionRow,
      db.visibleSessionsPredicate viewer .on false r = true ↔ db.MayRead viewer r) ∧
    (∀ options result, options.readScope = .viewer viewer → options.mode = .on →
      db.list toLowerCase options = .ok result →
        ∀ e ∈ result.sessions, e.session ∈ db.sessions.rows ∧ db.MayRead viewer e.session) ∧
    ∀ options : InboxFilterOptions, options.readScope = .viewer viewer → options.mode = .on →
      (∀ category limit cursor result,
        db.inbox options category limit cursor = .ok result →
          ∀ item ∈ result.items, ∀ s ∈ item.sessions,
            s.row ∈ db.sessions.rows ∧ db.MayRead viewer s.row) ∧
      (∀ limit snapshot, db.inboxSnapshot options limit = .ok snapshot →
        ∀ category, ∀ item ∈ (snapshot category).items, ∀ s ∈ item.sessions,
          s.row ∈ db.sessions.rows ∧ db.MayRead viewer s.row) ∧
      ∀ rootSessionId now db' n, db.markAllRead options rootSessionId now = .ok (db', n) →
        ∀ userId sessionId,
          db'.readStates.get? (userId, sessionId) ≠ db.readStates.get? (userId, sessionId) →
            ∃ r ∈ db.sessions.rows, r.id = sessionId ∧ db.MayRead viewer r := by
  have hreads : ∀ {r : SessionRow},
      db.visibleSessionsPredicate viewer .on false r = true → db.MayRead viewer r :=
    fun hr => (AccessTables.visible_iff_mayRead hviewer _).mp hr
  refine ⟨AccessTables.visible_iff_mayRead hviewer, ?_, ?_⟩
  · intro options result hscope hmode h e he
    obtain ⟨hmem, conditions, hbuild, hmeets⟩ := IndexDb.mem_list h he
    exact ⟨hmem, hreads (hmode ▸ IndexDb.visible_of_meets hbuild hscope hmeets)⟩
  · intro options hscope hmode
    have heligible : ∀ e ∈ db.eligibleSessions options,
        e.row ∈ db.sessions.rows ∧ db.MayRead viewer e.row := by
      intro e he
      obtain ⟨hmem, hvisible⟩ := IndexDb.visible_of_eligible hscope he
      exact ⟨hmem, hreads (hmode ▸ hvisible)⟩
    refine ⟨?_, ?_, ?_⟩
    · intro category limit cursor result h item hitem s hs
      obtain ⟨e, he, hrow⟩ := IndexDb.eligible_of_inbox h hitem hs
      rw [hrow]
      exact heligible e he
    · intro limit snapshot h category item hitem s hs
      obtain ⟨e, he, hrow⟩ := IndexDb.eligible_of_inboxSnapshot h hitem hs
      rw [hrow]
      exact heligible e he
    · intro rootSessionId now db' n h userId sessionId hchanged
      obtain ⟨e, he, hid⟩ := IndexDb.eligible_of_markAllRead h hchanged
      obtain ⟨hmem, hread⟩ := heligible e he
      exact ⟨e.row, hmem, hid, hread⟩

/-- A session `s` of the team `t`, and a private one of a team that the user `u` collaborates
in but is no member of any more. -/
def lapsedCollaborator : IndexDb where
  teamMemberships := ⟨[{ teamId := ['t'], userId := ['u'] }], by decide⟩
  sessionCollaborators := ⟨[{ sessionId := ['p'], userId := ['u'] }], by decide⟩
  sessions := ⟨[
    { id := ['p']
      status := .active
      rootSessionId := some ['p']
      ownerTeamId := some ['x']
      visibility := .private_ },
    { id := ['s']
      status := .active
      rootSessionId := some ['s']
      ownerTeamId := some ['t']
      visibility := .team }], by decide⟩
  users := .empty
  sessionRepositories := []
  readStates := .empty

def teamMember : SessionViewer :=
  .user
    { userId := ['u']
      roleKey := some .member
      permissions := [.sessionsRead]
      memberships := fun team => if team = ['t'] then some .member else none }

theorem listings_show_readable_lapsed :
    (lapsedCollaborator.list id { readScope := .viewer teamMember, mode := .on }).map
        (fun result => result.sessions.map (·.session.id)) = .ok [['s']] ∧
      lapsedCollaborator.MayRead teamMember
        { id := ['s']
          status := .active
          ownerTeamId := some ['t']
          visibility := .team } := by
  have hviewer : lapsedCollaborator.Reader teamMember := by
    refine ⟨rfl, rfl, ?_⟩
    intro team
    by_cases hteam : team = ['t']
    · subst hteam
      rfl
    · simp [lapsedCollaborator, Table.get?, Table.find?, hteam, Ne.symm hteam]
  refine ⟨rfl, ?_⟩
  exact ((listings_show_readable id lapsedCollaborator hviewer).1 _).mp rfl

end BackgroundAgents.SessionIndex

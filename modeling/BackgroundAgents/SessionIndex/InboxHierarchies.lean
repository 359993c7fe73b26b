import BackgroundAgents.SessionIndex.InboxPages
import BackgroundAgents.SessionIndex.VisibleSessions

/-!
# Every session once

Following the cursors of the three categories shows every eligible session in
exactly one item, under its topmost eligible ancestor and with all sessions
that share it (`shownOnce`). The items of a category are those of its roots
(`exists_categoryPages`), an item holds the lineage of its root
(`rootItem_spec`), and a lineage are the sessions of one topmost ancestor
(`mem_lineage_iff`).
-/

namespace BackgroundAgents.SessionIndex

open Keyset Relation

/-- The ids of the sessions of an item. -/
def InboxItem.ids (item : InboxItem) : List SessionId :=
  item.sessions.map (·.row.id)

/-- The category of a hierarchy, by what its sessions are. -/
def CategoryOf (eligible : List EligibleSession) (top : SessionId) :
    SessionInboxCategory → Prop
  | .needsAttention => ∃ e ∈ eligible, TopAncestor eligible e.id top ∧ e.unread = true
  | .inProgress =>
    (∀ e ∈ eligible, TopAncestor eligible e.id top → e.unread = false) ∧
      ∃ e ∈ eligible, TopAncestor eligible e.id top ∧ e.row.status = .active
  | .finished =>
    (∀ e ∈ eligible, TopAncestor eligible e.id top → e.unread = false) ∧
      ∀ e ∈ eligible, TopAncestor eligible e.id top → e.row.status ≠ .active

/-- The items of all pages of all categories. -/
def shownItems (pages : SessionInboxCategory → List ListSessionInboxResult) : List InboxItem :=
  [SessionInboxCategory.needsAttention, .inProgress, .finished].flatMap fun c =>
    (pages c).flatMap (·.items)

/-- The pages of the categories show each eligible session once, in the hierarchy it is in. -/
structure ShownOnce (eligible : List EligibleSession)
    (pages : SessionInboxCategory → List ListSessionInboxResult) : Prop where
  rootsOnce : ∀ c, (((pages c).flatMap (·.items)).map (·.rootSession.row.id)).Nodup
  roots : ∀ c id, id ∈ ((pages c).flatMap (·.items)).map (·.rootSession.row.id) ↔
    TopAncestor eligible id id ∧ CategoryOf eligible id c
  sessionsOnce : ((shownItems pages).flatMap InboxItem.ids).Nodup
  sessions : ∀ id, id ∈ (shownItems pages).flatMap InboxItem.ids ↔
    hasEligible eligible id = true
  hierarchies : ∀ item ∈ shownItems pages, ∀ id,
    id ∈ item.ids ↔ TopAncestor eligible id item.rootSession.row.id

/-! ## Items -/

/-- The item of a lineage that has its root holds the lineage, the root first. -/
theorem toInboxItem_spec {rootId : SessionId} {lineage : List InboxSessionRow}
    (hnodup : (lineage.map (·.id)).Nodup) (hroot : ∃ row ∈ lineage, row.id = rootId) :
    ∃ item, toInboxItem rootId lineage = some item ∧ item.rootSession.row.id = rootId ∧
      item.sessions.Perm (lineage.map toListItem) := by
  obtain ⟨row, hrow, hid⟩ := hroot
  have hfind : lineage.find? (fun row => row.id = rootId) = some row := by
    rw [← hid]
    exact Table.find?_key_of_mem hnodup hrow
  refine ⟨_, by rw [toInboxItem, hfind, Option.some_or, Option.map_some], hid, ?_⟩
  have hone : lineage.filter (fun other => other.id = row.id) = [row] := by
    have hsingle : (lineage.filter fun other => other.id = row.id).Nodup :=
      (List.Nodup.of_map _ hnodup).sublist List.filter_sublist
    refine List.perm_singleton.mp ((List.perm_ext_iff_of_nodup hsingle
      (List.nodup_singleton row)).mpr ?_)
    intro other
    rw [List.mem_filter, List.mem_singleton, decide_eq_true_eq]
    constructor
    · rintro ⟨hother, hsame⟩
      exact List.inj_on_of_nodup_map hnodup hother hrow hsame
    · rintro rfl
      exact ⟨hrow, rfl⟩
  have hsplit := List.filter_append_perm (fun other => decide (other.id = row.id)) lineage
  rw [hone] at hsplit
  have hmap := hsplit.map toListItem
  rw [List.map_append, List.map_singleton] at hmap
  refine (List.Perm.of_eq ?_).trans hmap
  simp [InboxItem.sessions]

namespace IndexDb

variable {db : IndexDb} {options : InboxFilterOptions}

theorem nodup_effectiveSessions :
    ((effectiveSessions (db.eligibleSessions options)).map (·.id)).Nodup := by
  rw [effectiveSessions, List.map_map]
  exact nodup_eligibleSessions

theorem mem_effectiveSessions (hforest : Forest db.sessions) {session : EffectiveSession}
    {root : SessionId} :
    session ∈ lineage (effectiveSessions (db.eligibleSessions options)) root ↔
      session.toEligibleSession ∈ db.eligibleSessions options ∧
        session.effectiveRootSessionId = root ∧
          TopAncestor (db.eligibleSessions options) session.id root := by
  rw [mem_lineage, effectiveSessions, List.mem_map]
  constructor
  · rintro ⟨⟨e, he, rfl⟩, hroot⟩
    exact ⟨he, hroot, (effectiveRootSessionId_iff hforest he).mp hroot⟩
  · rintro ⟨he, hroot, htop⟩
    refine ⟨⟨session.toEligibleSession, he, ?_⟩, hroot⟩
    rw [(effectiveRootSessionId_iff hforest he).mpr htop, ← hroot]

/-- A lineage are the sessions of one topmost ancestor. -/
theorem mem_lineage_iff (hforest : Forest db.sessions) {id root : SessionId} :
    id ∈ (lineage (effectiveSessions (db.eligibleSessions options)) root).map (·.id) ↔
      TopAncestor (db.eligibleSessions options) id root := by
  rw [List.mem_map]
  constructor
  · rintro ⟨session, hsession, rfl⟩
    exact ((mem_effectiveSessions hforest).mp hsession).2.2
  · intro htop
    obtain ⟨e, he, rfl⟩ := hasEligible_iff.mp htop.self_eligible
    exact ⟨{ e with effectiveRootSessionId := root },
      (mem_effectiveSessions hforest).mpr ⟨he, rfl, htop⟩, rfl⟩

/-- The roots of the inbox are the sessions without an eligible parent. -/
theorem mem_inboxRoots_iff (hforest : Forest db.sessions) {id : SessionId} :
    id ∈ (inboxRoots (effectiveSessions (db.eligibleSessions options))).map (·.rootSessionId) ↔
      TopAncestor (db.eligibleSessions options) id id := by
  constructor
  · intro h
    obtain ⟨root, hroot, rfl⟩ := List.mem_map.mp h
    obtain ⟨⟨session, hsession, hid⟩, -⟩ := mem_inboxRoots hroot
    exact TopAncestor.of_top
      ((mem_effectiveSessions hforest).mp (mem_lineage.mpr ⟨hsession, hid⟩)).2.2
  · intro h
    obtain ⟨session, hsession, -⟩ := List.mem_map.mp ((mem_lineage_iff hforest).mpr h)
    obtain ⟨hsession, hid⟩ := mem_lineage.mp hsession
    rw [inboxRoots, List.map_map]
    exact List.mem_map.mpr ⟨id, List.mem_dedup.mpr (List.mem_map.mpr ⟨session, hsession, hid⟩),
      rfl⟩

/-- The category that the query computes is that of the hierarchy. -/
theorem category_iff (hforest : Forest db.sessions) {root : SessionId}
    {c : SessionInboxCategory} :
    category (lineage (effectiveSessions (db.eligibleSessions options)) root) = c ↔
      CategoryOf (db.eligibleSessions options) root c := by
  have hany : ∀ p : EligibleSession → Bool,
      (lineage (effectiveSessions (db.eligibleSessions options)) root).any
          (fun session => p session.toEligibleSession) = true ↔
        ∃ e ∈ db.eligibleSessions options,
          TopAncestor (db.eligibleSessions options) e.id root ∧ p e = true := by
    intro p
    rw [List.any_eq_true]
    constructor
    · rintro ⟨session, hsession, hp⟩
      obtain ⟨he, -, htop⟩ := (mem_effectiveSessions hforest).mp hsession
      exact ⟨_, he, htop, hp⟩
    · rintro ⟨e, he, htop, hp⟩
      exact ⟨{ e with effectiveRootSessionId := root },
        (mem_effectiveSessions hforest).mpr ⟨he, rfl, htop⟩, hp⟩
  have hnone : ∀ p : EligibleSession → Bool,
      ¬(lineage (effectiveSessions (db.eligibleSessions options)) root).any
          (fun session => p session.toEligibleSession) = true ↔
        ∀ e ∈ db.eligibleSessions options,
          TopAncestor (db.eligibleSessions options) e.id root → p e = false := by
    intro p
    rw [hany p]
    constructor
    · intro h e he htop
      by_contra hp
      exact h ⟨e, he, htop, Bool.eq_true_of_not_eq_false hp⟩
    · rintro h ⟨e, he, htop, hp⟩
      rw [h e he htop] at hp
      cases hp
  have hunread := hany (·.unread)
  have hread := hnone (·.unread)
  have hactive := hany fun e => e.row.status = .active
  have hidle := hnone fun e => e.row.status = .active
  simp only [decide_eq_true_eq, decide_eq_false_iff_not] at hactive hidle
  unfold category
  cases c with
  | needsAttention =>
    rw [CategoryOf, ← hunread]
    split
    next h => exact iff_of_true rfl h
    next h =>
      refine iff_of_false ?_ h
      split <;> exact fun he => by cases he
  | inProgress =>
    rw [CategoryOf, ← hread, ← hactive]
    split
    next h => exact iff_of_false (fun he => by cases he) fun hboth => hboth.1 h
    next h =>
      split
      next ha => exact iff_of_true rfl ⟨h, ha⟩
      next ha => exact iff_of_false (fun he => by cases he) fun hboth => ha hboth.2
  | finished =>
    rw [CategoryOf, ← hread, ← hidle]
    split
    next h => exact iff_of_false (fun he => by cases he) fun hboth => hboth.1 h
    next h =>
      split
      next ha => exact iff_of_false (fun he => by cases he) fun hboth => hboth.2 ha
      next ha => exact iff_of_true rfl ⟨h, ha⟩

/-- **An item** holds the sessions of its root. -/
theorem rootItem_spec (hforest : Forest db.sessions) {root : InboxRoot}
    (hroot : root ∈ inboxRoots (effectiveSessions (db.eligibleSessions options))) :
    ∃ item, rootItem (effectiveSessions (db.eligibleSessions options)) root = some item ∧
      item.rootSession.row.id = root.rootSessionId ∧
      item.sessions.Perm
        ((rootRows (effectiveSessions (db.eligibleSessions options)) root).map toListItem) := by
  have hids : ((rootRows (effectiveSessions (db.eligibleSessions options)) root).map
      (·.id)).Nodup := by
    have hperm : (newestFirst (fun session : EffectiveSession => session.row.key)
        (lineage (effectiveSessions (db.eligibleSessions options)) root.rootSessionId)).Perm _ :=
      List.perm_insertionSort _ _
    rw [rootRows, List.map_map]
    refine (hperm.map (·.id)).nodup_iff.mpr ?_
    exact nodup_effectiveSessions.sublist (List.filter_sublist.map fun session : EffectiveSession => session.id)
  refine toInboxItem_spec hids ?_
  have htop := (mem_inboxRoots_iff hforest).mp (List.mem_map_of_mem hroot)
  obtain ⟨session, hsession, hid⟩ := List.mem_map.mp ((mem_lineage_iff hforest).mpr htop)
  obtain ⟨hsession, hroot⟩ := mem_lineage.mp hsession
  exact ⟨_, mem_rootRows.mpr ⟨session, hsession, hroot, rfl⟩, hid⟩

theorem ids_of_rootItem (hforest : Forest db.sessions) {root : InboxRoot}
    (hroot : root ∈ inboxRoots (effectiveSessions (db.eligibleSessions options)))
    {item : InboxItem}
    (hitem : rootItem (effectiveSessions (db.eligibleSessions options)) root = some item) :
    item.rootSession.row.id = root.rootSessionId ∧ item.ids.Nodup ∧
      ∀ id, id ∈ item.ids ↔
        TopAncestor (db.eligibleSessions options) id root.rootSessionId := by
  obtain ⟨item', hitem', hid, hperm⟩ := rootItem_spec hforest hroot
  rw [hitem] at hitem'
  cases hitem'
  have hsorted : (newestFirst (fun session : EffectiveSession => session.row.key)
      (lineage (effectiveSessions (db.eligibleSessions options)) root.rootSessionId)).Perm _ :=
    List.perm_insertionSort _ _
  have hids : item.ids.Perm ((lineage (effectiveSessions (db.eligibleSessions options))
      root.rootSessionId).map (·.id)) := by
    refine (hperm.map (·.row.id)).trans ?_
    rw [rootRows, List.map_map, List.map_map]
    exact hsorted.map (·.id)
  refine ⟨hid, hids.nodup_iff.mpr ?_, ?_⟩
  · exact nodup_effectiveSessions.sublist (List.filter_sublist.map fun session : EffectiveSession => session.id)
  · intro id
    rw [hids.mem_iff, mem_lineage_iff hforest]

/-! ## Following a category -/

/-- The pages of a category, each at the cursor that the one before it gave. -/
abbrev CategoryPages (db : IndexDb) (options : InboxFilterOptions) (c : SessionInboxCategory)
    (limit : Nat) : List ListSessionInboxResult → Prop :=
  Follows (fun cursor page => db.inbox options c limit cursor = .ok page)
    ListSessionInboxResult.nextCursor none

/-- A query with few enough filters is not refused. -/
theorem inbox_eq (hfits : db.inboxParameters options + 5 ≤ maxD1QueryParameters)
    (c : SessionInboxCategory) (limit : Nat) (cursor : Option SessionInboxCursor) :
    db.inbox options c limit cursor = .ok (assemblePage (buildPageData limit
      (inboxQuery (effectiveSessions (db.eligibleSessions options)) c limit cursor))) := by
  have hcount : ¬db.inboxParameters options + 1 + (if cursor.isSome then 3 else 0) + 1 >
      maxD1QueryParameters := by
    split <;> omega
  rw [inbox, assertD1QueryParameterLimit, if_neg hcount]
  rfl

/-- A page of a category, by the roots below its cursor. -/
theorem inbox_page (hfits : db.inboxParameters options + 5 ≤ maxD1QueryParameters)
    (c : SessionInboxCategory) (limit : Nat) (cursor : Option SessionInboxCursor) :
    let effective := effectiveSessions (db.eligibleSessions options)
    let roots := below InboxRoot.key (cursor.map SessionInboxCursor.key)
      (categoryRoots effective c)
    db.inbox options c limit cursor = .ok
      { items := (roots.take limit).filterMap (rootItem effective)
        hasMore := decide (limit < roots.length)
        nextCursor :=
          if limit < roots.length then (roots.take limit).getLast?.map InboxRoot.cursor
          else none } := by
  intro effective roots
  rw [inbox_eq hfits, inboxQuery_eq nodup_effectiveSessions]
  exact congrArg Except.ok (assemblePage_eq List.filter_sublist limit)

theorem inbox_paged (hfits : db.inboxParameters options + 5 ≤ maxD1QueryParameters)
    (c : SessionInboxCategory) (limit : Nat) :
    Paged InboxRoot.key (categoryRoots (effectiveSessions (db.eligibleSessions options)) c) limit
      (rootItem (effectiveSessions (db.eligibleSessions options))) SessionInboxCursor.key
      (fun cursor page => db.inbox options c limit cursor = .ok page)
      ListSessionInboxResult.items ListSessionInboxResult.nextCursor where
  fetched cursor := ⟨_, inbox_page hfits c limit cursor⟩
  items_eq cursor page h := by
    rw [inbox_page hfits] at h
    cases h
    rfl
  next_eq cursor page h := by
    rw [inbox_page hfits] at h
    cases h
    dsimp only
    split
    · rw [Option.map_map]
      rfl
    · rfl

/-- The items of a category are those of its roots. -/
theorem exists_categoryPages (hfits : db.inboxParameters options + 5 ≤ maxD1QueryParameters)
    (c : SessionInboxCategory) {limit : Nat} (hlimit : 0 < limit) :
    ∃ ps, (∀ qs, CategoryPages db options c limit qs ↔ qs = ps) ∧
      ps.flatMap (·.items) =
        (categoryRoots (effectiveSessions (db.eligibleSessions options)) c).filterMap
          (rootItem (effectiveSessions (db.eligibleSessions options))) := by
  obtain ⟨ps, hps, hitems⟩ := (inbox_paged hfits c limit).follows (categoryRoots_descending c)
    hlimit
  refine ⟨ps, fun qs => ⟨?_, ?_⟩, hitems⟩
  · intro hqs
    refine Follows.unique ?_ hqs hps
    intro cursor p q hp hq
    rw [hp] at hq
    cases hq
    rfl
  · rintro rfl
    exact hps

/-- **The snapshot** holds the first page of every category. -/
theorem inboxSnapshot_first (hfits : db.inboxParameters options + 5 ≤ maxD1QueryParameters)
    (limit : Nat) :
    ∃ snapshot, db.inboxSnapshot options limit = .ok snapshot ∧
      ∀ c, db.inbox options c limit none = .ok (snapshot c) := by
  have hcount : ¬db.inboxParameters options + 1 > maxD1QueryParameters := by omega
  refine ⟨_, by rw [inboxSnapshot, assertD1QueryParameterLimit, if_neg hcount]; rfl, ?_⟩
  intro c
  rw [inbox_eq hfits, inboxQuery_eq nodup_effectiveSessions, Option.map_none, below_none,
    inboxSnapshotQuery_eq nodup_effectiveSessions]

/-! ## What the pages show -/

/-- The roots of all categories, as the pages go through them. -/
def shownRoots (db : IndexDb) (options : InboxFilterOptions) : List InboxRoot :=
  [SessionInboxCategory.needsAttention, .inProgress, .finished].flatMap
    (categoryRoots (effectiveSessions (db.eligibleSessions options)))

theorem mem_shownRoots {root : InboxRoot} :
    root ∈ db.shownRoots options ↔
      root ∈ inboxRoots (effectiveSessions (db.eligibleSessions options)) := by
  rw [shownRoots, List.mem_flatMap]
  constructor
  · rintro ⟨c, -, hroot⟩
    exact (mem_categoryRoots.mp hroot).1
  · intro hroot
    refine ⟨root.category, ?_, mem_categoryRoots.mpr ⟨hroot, rfl⟩⟩
    cases root.category <;> simp

/-- A root is listed in one category. -/
theorem nodup_shownRoots : ((db.shownRoots options).map InboxRoot.rootSessionId).Nodup := by
  rw [shownRoots, List.map_flatMap, List.nodup_flatMap]
  refine ⟨fun c _ => nodup_categoryRoots c, ?_⟩
  have hapart : ∀ c c' : SessionInboxCategory, c ≠ c' →
      (Function.onFun List.Disjoint fun c =>
        (categoryRoots (effectiveSessions (db.eligibleSessions options)) c).map
          InboxRoot.rootSessionId) c c' := by
    intro c c' hne id hid hid'
    obtain ⟨root, hroot, rfl⟩ := List.mem_map.mp hid
    obtain ⟨root', hroot', hsame⟩ := List.mem_map.mp hid'
    obtain ⟨hmem, rfl⟩ := mem_categoryRoots.mp hroot
    obtain ⟨hmem', rfl⟩ := mem_categoryRoots.mp hroot'
    refine hne ?_
    rw [(mem_inboxRoots hmem).2, (mem_inboxRoots hmem').2, hsame]
  simp only [List.pairwise_cons, List.mem_cons, List.not_mem_nil, or_false, forall_eq_or_imp,
    forall_eq, List.Pairwise.nil, and_true, false_implies, implies_true]
  exact ⟨⟨hapart _ _ (by decide), hapart _ _ (by decide)⟩, hapart _ _ (by decide)⟩

/-- Each root has its item. -/
theorem map_root_items (hforest : Forest db.sessions) {roots : List InboxRoot}
    (hroots : ∀ root ∈ roots,
      root ∈ inboxRoots (effectiveSessions (db.eligibleSessions options))) :
    (roots.filterMap (rootItem (effectiveSessions (db.eligibleSessions options)))).map
        (·.rootSession.row.id) = roots.map InboxRoot.rootSessionId := by
  induction roots with
  | nil => rfl
  | cons root roots ih =>
    obtain ⟨item, hitem, hid, -⟩ := rootItem_spec hforest (hroots root List.mem_cons_self)
    rw [List.filterMap_cons_some hitem, List.map_cons, List.map_cons, hid,
      ih fun other hother => hroots other (List.mem_cons_of_mem _ hother)]

/-- A root of a category is a topmost ancestor of that category. -/
theorem mem_categoryRoots_iff (hforest : Forest db.sessions) {c : SessionInboxCategory}
    {id : SessionId} :
    id ∈ (categoryRoots (effectiveSessions (db.eligibleSessions options)) c).map
        InboxRoot.rootSessionId ↔
      TopAncestor (db.eligibleSessions options) id id ∧
        CategoryOf (db.eligibleSessions options) id c := by
  rw [← mem_inboxRoots_iff hforest, ← category_iff hforest, List.mem_map, List.mem_map]
  constructor
  · rintro ⟨root, hroot, rfl⟩
    obtain ⟨hmem, hcategory⟩ := mem_categoryRoots.mp hroot
    exact ⟨⟨root, hmem, rfl⟩, (mem_inboxRoots hmem).2.symm.trans hcategory⟩
  · rintro ⟨⟨root, hmem, rfl⟩, hcategory⟩
    exact ⟨root, mem_categoryRoots.mpr ⟨hmem, (mem_inboxRoots hmem).2.trans hcategory⟩, rfl⟩

variable {pages : SessionInboxCategory → List ListSessionInboxResult}

theorem shownItems_eq
    (hpages : ∀ c, (pages c).flatMap (·.items) =
      (categoryRoots (effectiveSessions (db.eligibleSessions options)) c).filterMap
        (rootItem (effectiveSessions (db.eligibleSessions options)))) :
    shownItems pages = (db.shownRoots options).filterMap
      (rootItem (effectiveSessions (db.eligibleSessions options))) := by
  rw [shownItems, shownRoots, List.filterMap_flatMap]
  exact List.flatMap_congr fun c _ => hpages c

/-- An item that is shown is that of a root. -/
theorem rootItem_of_mem_shownItems
    (hpages : ∀ c, (pages c).flatMap (·.items) =
      (categoryRoots (effectiveSessions (db.eligibleSessions options)) c).filterMap
        (rootItem (effectiveSessions (db.eligibleSessions options))))
    {item : InboxItem} (hitem : item ∈ shownItems pages) :
    ∃ root ∈ inboxRoots (effectiveSessions (db.eligibleSessions options)),
      rootItem (effectiveSessions (db.eligibleSessions options)) root = some item := by
  rw [shownItems_eq hpages] at hitem
  obtain ⟨root, hroot, hitem⟩ := List.mem_filterMap.mp hitem
  exact ⟨root, mem_shownRoots.mp hroot, hitem⟩

/-- **Every session once.** Pages whose items are those of the roots of their category show
each eligible session in one item, with the sessions of its topmost ancestor. -/
theorem shownOnce (hforest : Forest db.sessions)
    (hpages : ∀ c, (pages c).flatMap (·.items) =
      (categoryRoots (effectiveSessions (db.eligibleSessions options)) c).filterMap
        (rootItem (effectiveSessions (db.eligibleSessions options)))) :
    ShownOnce (db.eligibleSessions options) pages := by
  have hcategory : ∀ c, ((pages c).flatMap (·.items)).map (·.rootSession.row.id) =
      (categoryRoots (effectiveSessions (db.eligibleSessions options)) c).map
        InboxRoot.rootSessionId := by
    intro c
    rw [hpages]
    exact map_root_items hforest fun root hroot => (mem_categoryRoots.mp hroot).1
  have hshown := shownItems_eq hpages
  have hitems : ∀ item ∈ shownItems pages, item.ids.Nodup ∧ ∀ id, id ∈ item.ids ↔
      TopAncestor (db.eligibleSessions options) id item.rootSession.row.id := by
    intro item hitem
    obtain ⟨root, hroot, hitem⟩ := rootItem_of_mem_shownItems hpages hitem
    obtain ⟨hid, hnodup, hids⟩ := ids_of_rootItem hforest hroot hitem
    exact ⟨hnodup, hid ▸ hids⟩
  refine ⟨?_, ?_, ?_, ?_, fun item hitem => (hitems item hitem).2⟩
  · intro c
    rw [hcategory]
    exact nodup_categoryRoots c
  · intro c id
    rw [hcategory]
    exact mem_categoryRoots_iff hforest
  · rw [List.nodup_flatMap]
    refine ⟨fun item hitem => (hitems item hitem).1, ?_⟩
    have hapart : (shownItems pages).Pairwise fun a b =>
        a.rootSession.row.id ≠ b.rootSession.row.id := by
      refine List.pairwise_map.mp ?_
      rw [hshown, map_root_items hforest fun root hroot => mem_shownRoots.mp hroot]
      exact nodup_shownRoots
    refine List.Pairwise.imp_of_mem ?_ hapart
    intro a b ha hb hne id hida hidb
    exact hne (TopAncestor.unique nodup_eligibleSessions
      (((hitems a ha).2 id).mp hida) (((hitems b hb).2 id).mp hidb))
  · intro id
    rw [List.mem_flatMap]
    constructor
    · rintro ⟨item, hitem, hid⟩
      exact (((hitems item hitem).2 id).mp hid).self_eligible
    · intro hid
      obtain ⟨e, he, rfl⟩ := hasEligible_iff.mp hid
      have htop := topAncestor_effectiveRoot hforest he
      obtain ⟨root, hroot, hsame⟩ :=
        List.mem_map.mp ((mem_inboxRoots_iff hforest).mpr (htop.of_top))
      obtain ⟨item, hitem, -, -⟩ := rootItem_spec hforest hroot
      refine ⟨item, ?_, ?_⟩
      · rw [hshown]
        exact List.mem_filterMap.mpr ⟨root, mem_shownRoots.mpr hroot, hitem⟩
      · refine ((ids_of_rootItem hforest hroot hitem).2.2 e.id).mpr ?_
        rw [hsame]
        exact htop

end IndexDb

end BackgroundAgents.SessionIndex

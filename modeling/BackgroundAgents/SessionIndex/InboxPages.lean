import BackgroundAgents.SessionIndex.Hierarchies

/-!
# Pages of the inbox

A category of the inbox is a listing of its roots, newest first
(`categoryRoots`), and each root stands for the rows of its lineage
(`rootRows`). Both queries return a piece of that listing with the lineages put
in for the roots: the keyset query what is below the cursor (`inboxQuery_eq`),
and the window query the first page of each category
(`inboxSnapshotQuery_eq`). Two lists of rows with the same members in the same
strict order are equal, so neither proof looks at how the rows are sorted.

What the page layer makes of such a piece is `assemblePage_eq`, and following
the cursors is the rule for paged listings of the library.
-/

namespace BackgroundAgents.SessionIndex

open Keyset Grouping

/-- The roots of one category in their order. -/
def categoryRoots (effective : List EffectiveSession) (category : SessionInboxCategory) :
    List InboxRoot :=
  newestFirst InboxRoot.key ((inboxRoots effective).filter fun root => root.category = category)

/-- The rows of one root in their order. -/
def rootRows (effective : List EffectiveSession) (root : InboxRoot) : List InboxSessionRow :=
  (newestFirst (fun session => session.row.key) (lineage effective root.rootSessionId)).map
    fun session =>
      { session, latestUpdatedAt := root.latestUpdatedAt, category := root.category }

def rootItem (effective : List EffectiveSession) (root : InboxRoot) : Option InboxItem :=
  toInboxItem root.rootSessionId (rootRows effective root)

section Roots

variable {effective : List EffectiveSession}

theorem nodup_rootSessionId : ((inboxRoots effective).map (·.rootSessionId)).Nodup := by
  rw [inboxRoots, List.map_map]
  exact (List.map_id _).symm ▸ List.nodup_dedup _

theorem nodup_key_of_rootSessionId {roots : List InboxRoot}
    (h : (roots.map (·.rootSessionId)).Nodup) : (roots.map InboxRoot.key).Nodup := by
  refine List.Nodup.of_map (fun k => (ofLex k).2) ?_
  rw [List.map_map]
  exact h

theorem mem_inboxRoots {root : InboxRoot} (h : root ∈ inboxRoots effective) :
    (∃ session ∈ effective, session.effectiveRootSessionId = root.rootSessionId) ∧
      root.category = category (lineage effective root.rootSessionId) := by
  obtain ⟨id, hid, rfl⟩ := List.mem_map.mp h
  obtain ⟨session, hsession, hroot⟩ := List.mem_map.mp (List.mem_dedup.mp hid)
  exact ⟨⟨session, hsession, hroot⟩, rfl⟩

theorem mem_lineage {session : EffectiveSession} {rootSessionId : SessionId} :
    session ∈ lineage effective rootSessionId ↔
      session ∈ effective ∧ session.effectiveRootSessionId = rootSessionId := by
  simp [lineage]

theorem mem_rootRows {root : InboxRoot} {row : InboxSessionRow} :
    row ∈ rootRows effective root ↔
      ∃ session ∈ effective, session.effectiveRootSessionId = root.rootSessionId ∧
        row = { session, latestUpdatedAt := root.latestUpdatedAt, category := root.category } := by
  simp only [rootRows, List.mem_map, mem_newestFirst, mem_lineage]
  constructor
  · rintro ⟨session, ⟨hmem, hroot⟩, rfl⟩
    exact ⟨session, hmem, hroot, rfl⟩
  · rintro ⟨session, hmem, hroot, rfl⟩
    exact ⟨session, ⟨hmem, hroot⟩, rfl⟩

theorem rootRows_ne_nil {root : InboxRoot} (h : root ∈ inboxRoots effective) :
    rootRows effective root ≠ [] := by
  obtain ⟨⟨session, hsession, hroot⟩, -⟩ := mem_inboxRoots h
  exact List.ne_nil_of_mem (mem_rootRows.mpr ⟨session, hsession, hroot, rfl⟩)

theorem mem_categoryRoots {root : InboxRoot} {c : SessionInboxCategory} :
    root ∈ categoryRoots effective c ↔ root ∈ inboxRoots effective ∧ root.category = c := by
  simp [categoryRoots]

theorem nodup_filter_roots (p : InboxRoot → Bool) :
    (((inboxRoots effective).filter p).map InboxRoot.key).Nodup :=
  nodup_key_of_rootSessionId
    (nodup_rootSessionId.sublist (List.filter_sublist.map InboxRoot.rootSessionId))

theorem categoryRoots_descending (c : SessionInboxCategory) :
    Descending InboxRoot.key (categoryRoots effective c) :=
  newestFirst_descending (nodup_filter_roots _)

/-- Listed roots are told apart by their ids. -/
theorem nodup_categoryRoots (c : SessionInboxCategory) :
    ((categoryRoots effective c).map (·.rootSessionId)).Nodup := by
  have hperm : (categoryRoots effective c).Perm
      ((inboxRoots effective).filter fun root => root.category = c) :=
    List.perm_insertionSort _ _
  refine (hperm.map (·.rootSessionId)).nodup_iff.mpr ?_
  exact nodup_rootSessionId.sublist (List.filter_sublist.map InboxRoot.rootSessionId)

end Roots

/-! ## Rows of selected roots -/

section Rows

variable {effective : List EffectiveSession} {roots : List InboxRoot}

theorem mem_joinRoots {row : InboxSessionRow} :
    row ∈ joinRoots effective roots ↔ ∃ root ∈ roots, row ∈ rootRows effective root := by
  simp only [joinRoots, List.mem_flatMap, List.mem_map, List.mem_filter, decide_eq_true_eq,
    mem_rootRows]
  constructor
  · rintro ⟨session, hsession, root, ⟨hroot, hid⟩, rfl⟩
    exact ⟨root, hroot, session, hsession, hid.symm, rfl⟩
  · rintro ⟨root, hroot, session, hsession, hid, rfl⟩
    exact ⟨session, hsession, root, ⟨hroot, hid.symm⟩, rfl⟩

variable (hids : (effective.map (·.id)).Nodup)
include hids

theorem nodup_sessionKey {sessions : List EffectiveSession} (h : sessions.Sublist effective) :
    (sessions.map fun session => session.row.key).Nodup := by
  refine List.Nodup.of_map (fun k => (ofLex k).2) ?_
  rw [List.map_map]
  exact hids.sublist (h.map (·.id))

/-- The rows of one root, newest first. -/
theorem rootRows_descending (root : InboxRoot) :
    Descending InboxSessionRow.key (rootRows effective root) := by
  have hsorted : Descending (fun session : EffectiveSession => session.row.key)
      (newestFirst (fun session => session.row.key) (lineage effective root.rootSessionId)) :=
    newestFirst_descending (nodup_sessionKey hids List.filter_sublist)
  refine List.pairwise_map.mpr (List.Pairwise.imp_of_mem ?_ hsorted)
  intro a b ha hb hlt
  have hroot : a.effectiveRootSessionId = b.effectiveRootSessionId := by
    rw [(mem_lineage.mp (mem_newestFirst.mp ha)).2, (mem_lineage.mp (mem_newestFirst.mp hb)).2]
  simp only [InboxSessionRow.key, InboxSessionRow.effectiveRootSessionId, hroot]
  exact Prod.Lex.toLex_lt_toLex.mpr (Or.inr ⟨rfl, hlt⟩)

/-- The rows of listed roots, root by root. -/
theorem flatMap_rootRows_descending (hroots : Descending InboxRoot.key roots) :
    Descending InboxSessionRow.key (roots.flatMap (rootRows effective)) := by
  refine List.pairwise_flatMap.mpr ⟨fun root _ => rootRows_descending hids root, ?_⟩
  refine hroots.imp fun hlt => ?_
  intro x hx y hy
  obtain ⟨session, -, hid, rfl⟩ := mem_rootRows.mp hx
  obtain ⟨session', -, hid', rfl⟩ := mem_rootRows.mp hy
  refine Prod.Lex.toLex_lt_toLex.mpr (Or.inl ?_)
  simp only [InboxSessionRow.effectiveRootSessionId, hid, hid']
  exact hlt

/-- No session joins two roots. -/
theorem nodup_joinRoots (hroots : (roots.map (·.rootSessionId)).Nodup) :
    ((joinRoots effective roots).map InboxSessionRow.key).Nodup := by
  have hone : ∀ id : SessionId, (roots.filter fun root => root.rootSessionId = id).length ≤ 1 := by
    intro id
    induction roots with
    | nil => simp
    | cons root roots ih =>
      rw [List.map_cons, List.nodup_cons] at hroots
      rw [List.filter_cons]
      split
      next hroot =>
        have hnone : (roots.filter fun other => other.rootSessionId = id) = [] := by
          refine List.filter_eq_nil_iff.mpr ?_
          intro other hother hid
          rw [decide_eq_true_eq] at hroot hid
          exact hroots.1 (hroot ▸ hid ▸ List.mem_map_of_mem hother)
        simp [hnone]
      next => exact ih hroots.2
  have hsublist : ((joinRoots effective roots).map (·.id)).Sublist (effective.map (·.id)) := by
    rw [joinRoots]
    clear hids
    induction effective with
    | nil => exact List.Sublist.refl _
    | cons session effective ih =>
      rw [List.flatMap_cons, List.map_append, List.map_cons]
      refine @List.Sublist.append _ _ [session.id] _ _ ?_ ih
      rw [List.map_map]
      have hlong := hone session.effectiveRootSessionId
      cases hfilter : roots.filter fun root =>
          root.rootSessionId = session.effectiveRootSessionId with
      | nil => exact List.nil_sublist _
      | cons root rest =>
        rw [hfilter] at hlong
        cases rest with
        | nil => exact List.Sublist.refl _
        | cons other rest => simp at hlong
  refine List.Nodup.of_map (fun k => (ofLex (ofLex k).2).2) ?_
  rw [List.map_map]
  exact hids.sublist hsublist

/-- The sorted join of listed roots is their rows root by root. -/
theorem newestFirst_joinRoots (hroots : Descending InboxRoot.key roots)
    (hnodup : (roots.map (·.rootSessionId)).Nodup) :
    newestFirst InboxSessionRow.key (joinRoots effective roots) =
      roots.flatMap (rootRows effective) := by
  refine (newestFirst_descending (nodup_joinRoots hids hnodup)).ext
    (flatMap_rootRows_descending hids hroots) ?_
  intro row
  rw [mem_newestFirst, mem_joinRoots, List.mem_flatMap]

/-- **The keyset query** returns the rows of the roots below the cursor, one more than the
page holds. -/
theorem inboxQuery_eq (c : SessionInboxCategory) (limit : Nat)
    (cursor : Option SessionInboxCursor) :
    inboxQuery effective c limit cursor =
      ((below InboxRoot.key (cursor.map SessionInboxCursor.key)
        (categoryRoots effective c)).take (limit + 1)).flatMap (rootRows effective) := by
  have hselected : newestFirst InboxRoot.key ((inboxRoots effective).filter fun root =>
      root.category = c && cursor.all fun k =>
        root.latestUpdatedAt < k.latestUpdatedAt
          || (root.latestUpdatedAt = k.latestUpdatedAt && root.rootSessionId < k.rootSessionId)) =
      below InboxRoot.key (cursor.map SessionInboxCursor.key) (categoryRoots effective c) := by
    rw [below, categoryRoots, ← newestFirst_filter (nodup_filter_roots _), List.filter_filter]
    congr 1
    refine List.filter_congr ?_
    intro root _
    rw [Bool.and_comm]
    congr 1
    cases cursor with
    | none => rfl
    | some k =>
      simp only [Option.all_some, Option.map_some, InboxRoot.key, SessionInboxCursor.key,
        Prod.Lex.toLex_lt_toLex]
      simp
  rw [inboxQuery, hselected]
  refine newestFirst_joinRoots hids ?_ ?_
  · exact ((categoryRoots_descending c).filter _).sublist (List.take_sublist _ _)
  · exact (nodup_categoryRoots c).sublist
      (((List.take_sublist _ _).trans List.filter_sublist).map InboxRoot.rootSessionId)

omit hids in
/-- The rank of a root is its place in the listing of its category. -/
theorem categoryRank_le {root : InboxRoot} {n : Nat} :
    root ∈ inboxRoots effective ∧ categoryRank (inboxRoots effective) root ≤ n + 1 ↔
      root ∈ (categoryRoots effective root.category).take (n + 1) := by
  have hperm : (categoryRoots effective root.category).Perm
      ((inboxRoots effective).filter fun other => other.category = root.category) :=
    List.perm_insertionSort _ _
  have hcount : (categoryRoots effective root.category).countP
      (fun other => decide (root.key < other.key)) + 1 =
        categoryRank (inboxRoots effective) root := by
    rw [hperm.countP_eq, List.countP_filter, categoryRank]
    congr 1
    refine List.countP_congr ?_
    intro other _
    rw [Bool.and_comm]
  rw [(categoryRoots_descending root.category).mem_take, mem_categoryRoots]
  constructor
  · rintro ⟨hroot, hrank⟩
    exact ⟨⟨hroot, rfl⟩, by omega⟩
  · rintro ⟨⟨hroot, -⟩, hlt⟩
    exact ⟨hroot, by omega⟩

/-- **The window query** returns, of each category, what the keyset query returns without a
cursor. -/
theorem inboxSnapshotQuery_eq (c : SessionInboxCategory) (limit : Nat) :
    (inboxSnapshotQuery effective limit).filter (fun row => row.category = c) =
      ((categoryRoots effective c).take (limit + 1)).flatMap (rootRows effective) := by
  have hdescending : Descending InboxRoot.key ((categoryRoots effective c).take (limit + 1)) :=
    (categoryRoots_descending c).sublist (List.take_sublist _ _)
  refine Descending.ext ?_ (flatMap_rootRows_descending hids hdescending) ?_
  · -- within one category the order of the query is that of the keys
    let order := fun a b : InboxSessionRow =>
      a.category.rank < b.category.rank ∨ (a.category.rank = b.category.rank ∧ b.key ≤ a.key)
    have htotal : Std.Total order := by
      refine ⟨fun a b => ?_⟩
      rcases lt_trichotomy a.category.rank b.category.rank with h | h | h
      · exact Or.inl (Or.inl h)
      · exact (le_total b.key a.key).imp (fun hle => Or.inr ⟨h, hle⟩)
          fun hle => Or.inr ⟨h.symm, hle⟩
      · exact Or.inr (Or.inl h)
    have htrans : IsTrans InboxSessionRow order := by
      refine ⟨fun a b d hab hbd => ?_⟩
      rcases hab with hab | ⟨hab, hle⟩
      · rcases hbd with hbd | ⟨hbd, -⟩
        · exact Or.inl (hab.trans hbd)
        · exact Or.inl (hbd ▸ hab)
      · rcases hbd with hbd | ⟨hbd, hle'⟩
        · exact Or.inl (hab ▸ hbd)
        · exact Or.inr ⟨hab.trans hbd, hle'.trans hle⟩
    have hsorted : (inboxSnapshotQuery effective limit).Pairwise order :=
      List.pairwise_insertionSort order _
    have hdistinct : (inboxSnapshotQuery effective limit).Pairwise fun a b => a.key ≠ b.key := by
      have hselected := @nodup_joinRoots effective ((inboxRoots effective).filter fun root =>
          categoryRank (inboxRoots effective) root ≤ limit + 1) hids
        (nodup_rootSessionId.sublist (List.filter_sublist.map InboxRoot.rootSessionId))
      have hperm : (inboxSnapshotQuery effective limit).Perm _ := List.perm_insertionSort _ _
      exact List.pairwise_map.mp ((hperm.map InboxSessionRow.key).nodup_iff.mpr hselected)
    refine List.Pairwise.imp_of_mem ?_ ((hsorted.and hdistinct).filter _)
    intro a b ha hb hab
    have hca := of_decide_eq_true (List.mem_filter.mp ha).2
    have hcb := of_decide_eq_true (List.mem_filter.mp hb).2
    obtain ⟨horder, hne⟩ := hab
    rcases horder with hlt | ⟨-, hle⟩
    · rw [hca, hcb] at hlt
      exact absurd hlt (Nat.lt_irrefl _)
    · exact lt_of_le_of_ne hle (Ne.symm hne)
  · intro row
    rw [List.mem_filter, inboxSnapshotQuery, List.mem_insertionSort, mem_joinRoots,
      decide_eq_true_eq, List.mem_flatMap]
    constructor
    · rintro ⟨⟨root, hroot, hrow⟩, hcategory⟩
      obtain ⟨hmem, hrank⟩ := List.mem_filter.mp hroot
      have hsame : root.category = c := by
        obtain ⟨session, -, -, rfl⟩ := mem_rootRows.mp hrow
        exact hcategory
      have htake := categoryRank_le.mp ⟨hmem, of_decide_eq_true hrank⟩
      rw [hsame] at htake
      exact ⟨root, htake, hrow⟩
    · rintro ⟨root, hroot, hrow⟩
      have hsame : root.category = c := (mem_categoryRoots.mp (List.mem_of_mem_take hroot)).2
      obtain ⟨hmem, hrank⟩ := categoryRank_le.mpr (hsame.symm ▸ hroot)
      refine ⟨⟨root, List.mem_filter.mpr ⟨hmem, decide_eq_true hrank⟩, hrow⟩, ?_⟩
      obtain ⟨session, -, -, rfl⟩ := mem_rootRows.mp hrow
      exact hsame

end Rows

/-! ## Pages -/

section Pages

variable {effective : List EffectiveSession}

/-- The cursor behind a root. -/
def InboxRoot.cursor (root : InboxRoot) : SessionInboxCursor where
  latestUpdatedAt := root.latestUpdatedAt
  rootSessionId := root.rootSessionId

/-- The page of a listing of roots whose rows were read up to one root more than it holds. -/
theorem assemblePage_eq {roots : List InboxRoot} {c : SessionInboxCategory}
    (hroots : roots.Sublist (categoryRoots effective c)) (limit : Nat) :
    assemblePage (buildPageData limit
        ((roots.take (limit + 1)).flatMap (rootRows effective))) =
      { items := (roots.take limit).filterMap (rootItem effective)
        hasMore := decide (limit < roots.length)
        nextCursor :=
          if limit < roots.length then (roots.take limit).getLast?.map InboxRoot.cursor
          else none } := by
  have hmem : ∀ root ∈ roots, root ∈ inboxRoots effective :=
    fun root hroot => (mem_categoryRoots.mp (hroots.subset hroot)).1
  have hgrouped : grouped InboxSessionRow.effectiveRootSessionId
      ((roots.take (limit + 1)).flatMap (rootRows effective)) =
      (roots.take (limit + 1)).map fun root => (root.rootSessionId, rootRows effective root) := by
    refine grouped_flatMap ?_ ?_ ?_
    · exact (nodup_categoryRoots c).sublist
        (((List.take_sublist _ _).trans hroots).map InboxRoot.rootSessionId)
    · exact fun root hroot => rootRows_ne_nil (hmem root (List.mem_of_mem_take hroot))
    · intro root _ row hrow
      obtain ⟨session, -, hid, rfl⟩ := mem_rootRows.mp hrow
      exact hid
  have htake : ((roots.take (limit + 1)).map fun root =>
      (root.rootSessionId, rootRows effective root)).take limit =
      (roots.take limit).map fun root => (root.rootSessionId, rootRows effective root) := by
    rw [← List.map_take, List.take_take, Nat.min_eq_left (Nat.le_succ limit)]
  have hlength : limit < (roots.take (limit + 1)).length ↔ limit < roots.length := by
    rw [List.length_take]
    omega
  simp only [assemblePage, buildPageData, hgrouped, htake, List.length_map, hlength]
  congr 1
  · rw [List.filterMap_map]
    rfl
  · simp only [decide_eq_true_eq]
    split
    next =>
      rw [List.getLast?_map, Option.bind_map]
      cases hlast : (roots.take limit).getLast? with
      | none => rfl
      | some root =>
        have hroot := hmem root (List.mem_of_mem_take (List.mem_of_getLast? hlast))
        obtain ⟨row, rows, hrows⟩ := List.exists_cons_of_ne_nil (rootRows_ne_nil hroot)
        have hrow : row ∈ rootRows effective root := hrows ▸ List.mem_cons_self
        obtain ⟨session, -, -, rfl⟩ := mem_rootRows.mp hrow
        simp [hrows, InboxRoot.cursor]
    next => rfl

end Pages

end BackgroundAgents.SessionIndex

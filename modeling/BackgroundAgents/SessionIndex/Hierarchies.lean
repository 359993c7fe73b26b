import BackgroundAgents.SessionIndex.Inbox
import Mathlib.Data.List.ProdSigma

/-!
# Hierarchies of the inbox

Of a sessions table whose parent links form a forest, with the persisted root
of each session where its links end (`Forest`), the inbox puts every eligible
session under its topmost eligible ancestor: the last session that parent links
lead to through eligible sessions alone (`TopAncestor`). It is computed in two
ways, both of which come to this (`effectiveRootSessionId_iff`): below a hidden
parent by the recursive query, and otherwise as the persisted root, which is
eligible itself when nothing on the way to it is hidden.

The recursive query of a marking walks the same links downwards
(`mem_requestedSessions`).
-/

namespace BackgroundAgents.SessionIndex

open Relation Recursive

/-- A session's parent link, where the parent has a row. -/
def ParentRow (sessions : SessionTable) (child parent : SessionId) : Prop :=
  ∃ r ∈ sessions.rows, r.id = child ∧ r.parentSessionId = some parent ∧
    ∃ q ∈ sessions.rows, q.id = parent

/-- The parent links of every session come to an end, at its persisted root. -/
def Forest (sessions : SessionTable) : Prop :=
  ∀ r ∈ sessions.rows, ∃ root, r.rootSessionId = some root ∧
    ReflTransGen (ParentRow sessions) r.id root ∧ ∀ parent, ¬ParentRow sessions root parent

/-- An eligible session's parent link to an eligible session. -/
def EligibleParent (eligible : List EligibleSession) (child parent : SessionId) : Prop :=
  ∃ e ∈ eligible, e.id = child ∧ e.parentSessionId = some parent ∧
    hasEligible eligible parent = true

/-- The topmost ancestor that is reachable through eligible parents. -/
structure TopAncestor (eligible : List EligibleSession) (id top : SessionId) : Prop where
  path : ReflTransGen (EligibleParent eligible) id top
  isEligible : hasEligible eligible top = true
  top : ∀ parent, ¬EligibleParent eligible top parent

section Links

variable {eligible : List EligibleSession}

theorem hasEligible_iff {id : SessionId} :
    hasEligible eligible id = true ↔ ∃ e ∈ eligible, e.id = id := by
  simp [hasEligible]

theorem mem_childIds {parent child : SessionId} :
    child ∈ childIds eligible parent ↔
      ∃ e ∈ eligible, e.id = child ∧ e.parentSessionId = some parent := by
  simp only [childIds, List.mem_map, List.mem_filter, decide_eq_true_eq]
  constructor
  · rintro ⟨e, ⟨he, hparent⟩, rfl⟩
    exact ⟨e, he, rfl, hparent⟩
  · rintro ⟨e, he, rfl, hparent⟩
    exact ⟨e, ⟨he, hparent⟩, rfl⟩

variable {id top : SessionId}

/-- The end of a path of parent links that starts at an eligible session is eligible. -/
theorem eligible_of_path (h : ReflTransGen (EligibleParent eligible) id top)
    (hid : hasEligible eligible id = true) : hasEligible eligible top = true := by
  cases h with
  | refl => exact hid
  | tail _ hlink =>
    obtain ⟨_, _, _, _, hparent⟩ := hlink
    exact hparent

/-- Walking down from an eligible session is walking up to it. -/
theorem down_iff_up (htop : hasEligible eligible top = true) :
    ReflTransGen (fun parent child => child ∈ childIds eligible parent) top id ↔
      ReflTransGen (EligibleParent eligible) id top := by
  constructor
  · intro h
    have hboth : hasEligible eligible id = true ∧
        ReflTransGen (EligibleParent eligible) id top := by
      induction h with
      | refl => exact ⟨htop, .refl⟩
      | tail _ hchild ih =>
        obtain ⟨e, he, hid, hparent⟩ := mem_childIds.mp hchild
        exact ⟨hasEligible_iff.mpr ⟨e, he, hid⟩, .head ⟨e, he, hid, hparent, ih.1⟩ ih.2⟩
    exact hboth.2
  · intro h
    induction h using ReflTransGen.head_induction_on with
    | refl => exact .refl
    | head hlink _ ih =>
      obtain ⟨e, he, hid, hparent, -⟩ := hlink
      exact ih.tail (mem_childIds.mpr ⟨e, he, hid, hparent⟩)

/-- A session with a topmost ancestor is eligible. -/
theorem TopAncestor.self_eligible (h : TopAncestor eligible id top) :
    hasEligible eligible id = true := by
  rcases h.path.cases_head with heq | ⟨_, ⟨e, he, hid, -⟩, -⟩
  · rw [heq]
    exact h.isEligible
  · exact hasEligible_iff.mpr ⟨e, he, hid⟩

theorem TopAncestor.of_top (h : TopAncestor eligible id top) :
    TopAncestor eligible top top :=
  ⟨.refl, h.isEligible, h.top⟩

variable (hnodup : (eligible.map (·.id)).Nodup)
include hnodup

/-- An eligible session is determined by its id. -/
theorem eligible_eq_of_id {e f : EligibleSession} (he : e ∈ eligible) (hf : f ∈ eligible)
    (h : e.id = f.id) : e = f :=
  List.inj_on_of_nodup_map hnodup he hf h

theorem eligibleParent_unique :
    Relator.RightUnique (EligibleParent eligible) := by
  rintro child p q ⟨e, he, hid, hp, -⟩ ⟨f, hf, hid', hq, -⟩
  rw [eligible_eq_of_id hnodup he hf (hid.trans hid'.symm), hq] at hp
  exact (Option.some.inj hp).symm

/-- There is one topmost ancestor. -/
theorem TopAncestor.unique {id a b : SessionId} (ha : TopAncestor eligible id a)
    (hb : TopAncestor eligible id b) : a = b := by
  have hend : ∀ {x y : SessionId}, (∀ parent, ¬EligibleParent eligible x parent) →
      ReflTransGen (EligibleParent eligible) x y → x = y := by
    intro x y htop h
    cases h.cases_head with
    | inl heq => exact heq
    | inr hstep =>
      obtain ⟨p, hp, -⟩ := hstep
      exact absurd hp (htop p)
  rcases ReflTransGen.total_of_right_unique (eligibleParent_unique hnodup) ha.path hb.path with
    h | h
  · exact hend ha.top h
  · exact (hend hb.top h).symm

end Links

/-! ## Rerooted subtrees -/

section Rerooted

variable {eligible : List EligibleSession}

/-- A session whose parent is hidden. -/
def Hidden (eligible : List EligibleSession) (id : SessionId) : Prop :=
  ∃ e ∈ eligible, e.id = id ∧ ∃ parent, e.parentSessionId = some parent ∧
    hasEligible eligible parent = false

theorem hasEligible_of_hidden {id : SessionId} (h : Hidden eligible id) :
    hasEligible eligible id = true := by
  obtain ⟨e, he, hid, -⟩ := h
  exact hasEligible_iff.mpr ⟨e, he, hid⟩

/-- The recursive query holds each session with the hidden-parent session it is below. -/
theorem mem_rerooted {id root : SessionId} :
    (id, root) ∈ rerooted eligible ↔
      Hidden eligible root ∧ ReflTransGen (EligibleParent eligible) id root := by
  have hderived : ∀ session : SessionId × SessionId,
      Derived ((eligible.filter fun e =>
          e.parentSessionId.any fun parent => !hasEligible eligible parent).map
            fun e => (e.id, e.id))
        (fun session => (childIds eligible session.1).map fun child => (child, session.2))
        session ↔
      Hidden eligible session.2 ∧
        ReflTransGen (EligibleParent eligible) session.1 session.2 := by
    intro session
    constructor
    · rintro ⟨base, hbase, hpath⟩
      obtain ⟨e, he, rfl⟩ := List.mem_map.mp hbase
      obtain ⟨he, hparent⟩ := List.mem_filter.mp he
      obtain ⟨parent, hparent, hhidden⟩ := Option.any_eq_true _ _ |>.mp hparent
      have hroot : Hidden eligible e.id :=
        ⟨e, he, rfl, parent, hparent, by simpa using hhidden⟩
      have hdown : session.2 = e.id ∧
          ReflTransGen (fun parent child => child ∈ childIds eligible parent) e.id session.1 := by
        induction hpath with
        | refl => exact ⟨rfl, .refl⟩
        | tail _ hstep ih =>
          obtain ⟨child, hchild, rfl⟩ := List.mem_map.mp hstep
          exact ⟨ih.1, ih.2.tail hchild⟩
      rw [hdown.1]
      exact ⟨hroot, (down_iff_up (hasEligible_of_hidden hroot)).mp hdown.2⟩
    · rintro ⟨hroot, hup⟩
      have hdown := (down_iff_up (hasEligible_of_hidden hroot)).mpr hup
      refine ⟨(session.2, session.2), ?_, ?_⟩
      · obtain ⟨e, he, hid, parent, hparent, hhidden⟩ := hroot
        refine List.mem_map.mpr ⟨e, List.mem_filter.mpr ⟨he, ?_⟩, by rw [hid]⟩
        exact Option.any_eq_true _ _ |>.mpr ⟨parent, hparent, by simp [hhidden]⟩
      · have hlift : ∀ {x y : SessionId},
            ReflTransGen (fun parent child => child ∈ childIds eligible parent) x y →
            ReflTransGen (fun a b : SessionId × SessionId =>
                b ∈ (childIds eligible a.1).map fun child => (child, a.2))
              (x, session.2) (y, session.2) := by
          intro x y h
          induction h with
          | refl => exact .refl
          | tail _ hchild ih => exact ih.tail (List.mem_map.mpr ⟨_, hchild, rfl⟩)
        exact hlift hdown
  have hids : ∀ id, hasEligible eligible id = true → id ∈ eligible.map (·.id) := by
    intro id h
    obtain ⟨e, he, rfl⟩ := hasEligible_iff.mp h
    exact List.mem_map_of_mem he
  refine (@mem_withRecursive _ _ _ _ _ _ ((eligible.map (·.id)) ×ˢ (eligible.map (·.id)))
    ?_ ?_).trans (hderived (id, root))
  · intro session hsession
    obtain ⟨hroot, hpath⟩ := (hderived session).mp hsession
    have htop := hasEligible_of_hidden hroot
    refine List.mem_product.mpr ⟨hids _ ?_, hids _ htop⟩
    rcases hpath.cases_head with heq | ⟨_, ⟨e, he, hid, -⟩, -⟩
    · rw [heq]
      exact htop
    · exact hasEligible_iff.mpr ⟨e, he, hid⟩
  · rw [List.length_product, List.length_map]
    exact Nat.lt_succ_self _

/-- The sessions that a marking of a hierarchy walks. -/
theorem mem_requestedSessions {id root : SessionId} :
    id ∈ requestedSessions eligible root ↔
      hasEligible eligible root = true ∧ ReflTransGen (EligibleParent eligible) id root := by
  have hbase : ∀ x, x ∈ (eligible.filter fun e => e.id = root).map (·.id) ↔
      x = root ∧ hasEligible eligible root = true := by
    intro x
    simp only [List.mem_map, List.mem_filter, decide_eq_true_eq, hasEligible_iff]
    constructor
    · rintro ⟨e, ⟨he, hid⟩, rfl⟩
      exact ⟨hid, e, he, hid⟩
    · rintro ⟨rfl, e, he, hid⟩
      exact ⟨e, ⟨he, hid⟩, hid⟩
  have hderived : ∀ x, Derived ((eligible.filter fun e => e.id = root).map (·.id))
      (childIds eligible) x ↔
      hasEligible eligible root = true ∧ ReflTransGen (EligibleParent eligible) x root := by
    intro x
    constructor
    · rintro ⟨b, hb, hpath⟩
      obtain ⟨rfl, hroot⟩ := (hbase b).mp hb
      exact ⟨hroot, (down_iff_up hroot).mp hpath⟩
    · rintro ⟨hroot, hpath⟩
      exact ⟨root, (hbase root).mpr ⟨rfl, hroot⟩, (down_iff_up hroot).mpr hpath⟩
  refine (@mem_withRecursive _ _ _ _ _ _ (eligible.map (·.id)) ?_ ?_).trans (hderived id)
  · intro x hx
    obtain ⟨hroot, hpath⟩ := (hderived x).mp hx
    rcases hpath.cases_head with heq | ⟨_, ⟨e, he, hid, -⟩, -⟩
    · obtain ⟨e, he, hid⟩ := hasEligible_iff.mp hroot
      exact List.mem_map.mpr ⟨e, he, by rw [hid, heq]⟩
    · exact List.mem_map.mpr ⟨e, he, hid⟩
  · rw [List.length_map]
    exact Nat.lt_succ_self _

end Rerooted

/-! ## The effective root -/

namespace IndexDb

variable {db : IndexDb} {options : InboxFilterOptions}

theorem nodup_eligibleSessions :
    ((db.eligibleSessions options).map (·.id)).Nodup := by
  refine db.sessions.nodup.sublist ?_
  rw [eligibleSessions]
  refine (Table.map_filterMap_sublist ?_ _).trans (List.filter_sublist.map SessionRow.id)
  intro r e h
  obtain ⟨root, -, rfl⟩ := Option.map_eq_some_iff.mp h
  rfl

variable {e : EligibleSession}

theorem row_of_eligible (he : e ∈ db.eligibleSessions options) :
    e.row ∈ db.sessions.rows :=
  (mem_eligibleSessions.mp he).1

/-- A parent link between eligible sessions is one between rows. -/
theorem parentRow_of_eligibleParent {child parent : SessionId}
    (h : EligibleParent (db.eligibleSessions options) child parent) :
    ParentRow db.sessions child parent := by
  obtain ⟨e, he, hid, hparent, hparent'⟩ := h
  obtain ⟨q, hq, hqid⟩ := hasEligible_iff.mp hparent'
  exact ⟨e.row, row_of_eligible he, hid, hparent, q.row, row_of_eligible hq, hqid⟩

/-- Below no hidden parent, every link upwards is to an eligible session. -/
theorem eligiblePath_of_path (he : e ∈ db.eligibleSessions options)
    (hnone : ∀ a, ReflTransGen (EligibleParent (db.eligibleSessions options)) e.id a →
      ¬Hidden (db.eligibleSessions options) a) {a : SessionId}
    (h : ReflTransGen (ParentRow db.sessions) e.id a) :
    ReflTransGen (EligibleParent (db.eligibleSessions options)) e.id a := by
  induction h with
  | refl => exact .refl
  | tail _ hlink ih =>
    obtain ⟨r, hr, hid, hparent, -⟩ := hlink
    obtain ⟨f, hf, hfid⟩ := hasEligible_iff.mp
      (eligible_of_path ih (hasEligible_iff.mpr ⟨e, he, rfl⟩))
    have hrow : f.row = r := Table.eq_of_key (row_of_eligible hf) hr (hfid.trans hid.symm)
    have hfparent : f.parentSessionId = some _ := hrow ▸ hparent
    refine ih.tail ⟨f, hf, hfid, hfparent, ?_⟩
    by_contra hhidden
    exact hnone _ ih ⟨f, hf, hfid, _, hfparent, Bool.eq_false_of_not_eq_true hhidden⟩

/-- **The effective root** of an eligible session is its topmost eligible ancestor. -/
theorem topAncestor_effectiveRoot (hforest : Forest db.sessions)
    (he : e ∈ db.eligibleSessions options) :
    TopAncestor (db.eligibleSessions options) e.id
      (effectiveRootSessionId (db.eligibleSessions options) e) := by
  have heligible := hasEligible_iff.mpr ⟨e, he, rfl⟩
  unfold effectiveRootSessionId
  cases hfind : (rerooted (db.eligibleSessions options)).find? fun session =>
      session.1 = e.id with
  | some session =>
    obtain ⟨id, root⟩ := session
    have hid : id = e.id := by simpa using List.find?_some hfind
    obtain ⟨hroot, hpath⟩ := mem_rerooted.mp (List.mem_of_find?_eq_some hfind)
    refine ⟨hid ▸ hpath, hasEligible_of_hidden hroot, ?_⟩
    rintro parent ⟨f, hf, hfid, hparent, hparent'⟩
    obtain ⟨g, hg, hgid, hidden, hgparent, hhidden⟩ := hroot
    have hfg := eligible_eq_of_id nodup_eligibleSessions hf hg (hfid.trans hgid.symm)
    rw [hfg, hgparent] at hparent
    cases hparent
    rw [hhidden] at hparent'
    cases hparent'
  | none =>
    have hnone : ∀ a, ReflTransGen (EligibleParent (db.eligibleSessions options)) e.id a →
        ¬Hidden (db.eligibleSessions options) a := by
      intro a hpath hhidden
      have hne := List.find?_eq_none.mp hfind _ (mem_rerooted.mpr ⟨hhidden, hpath⟩)
      exact hne (decide_eq_true rfl)
    obtain ⟨root, hroot, hpath, htop⟩ := hforest e.row (row_of_eligible he)
    have hsame : e.rootSessionId = root := by
      rw [(mem_eligibleSessions.mp he).2.2.2.1] at hroot
      exact Option.some.inj hroot
    have hup := eligiblePath_of_path he hnone hpath
    rw [Option.map_none, Option.getD_none, hsame]
    exact ⟨hup, eligible_of_path hup heligible,
      fun parent hparent => htop parent (parentRow_of_eligibleParent hparent)⟩

theorem effectiveRootSessionId_iff (hforest : Forest db.sessions)
    (he : e ∈ db.eligibleSessions options) {root : SessionId} :
    effectiveRootSessionId (db.eligibleSessions options) e = root ↔
      TopAncestor (db.eligibleSessions options) e.id root := by
  have htop := topAncestor_effectiveRoot hforest he
  constructor
  · rintro rfl
    exact htop
  · exact fun h => htop.unique nodup_eligibleSessions h

/-- From a root, a marking walks the sessions whose topmost ancestor it is. -/
theorem mem_requestedSessions_root {id root : SessionId}
    (hroot : ∀ parent, ¬EligibleParent (db.eligibleSessions options) root parent) :
    id ∈ requestedSessions (db.eligibleSessions options) root ↔
      TopAncestor (db.eligibleSessions options) id root := by
  rw [mem_requestedSessions]
  constructor
  · rintro ⟨heligible, hpath⟩
    exact ⟨hpath, heligible, hroot⟩
  · rintro ⟨hpath, heligible, -⟩
    exact ⟨heligible, hpath⟩

end IndexDb

end BackgroundAgents.SessionIndex

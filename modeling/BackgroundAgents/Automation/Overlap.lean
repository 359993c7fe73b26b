import BackgroundAgents.Automation.FiringLife

/-!
# Overlap limits and trigger keys

The system of firings over a store that everything else writes to as well, from
a store without history. `OverlapLimited` says what holds of it at any time:

* a firing that holds its automation is admitted below the limit that is stored
  at that instant;
* an event's concurrency key has one active invocation at most;
* a firing that is not admitted has no run, and neither has a skip or a denial;
* a trigger key has one invocation at most, and every delivery of it that begins
  later is told of that one.

The invariant is `OverlapInv`. Two facts carry it. No statement reactivates a
run (`RunMove.active`), so the overlap predicate of the insert is the only door;
and identifiers are new, so that a refused insert finds no invocation under its
own identifier, and its children, which are inserted only where one exists, go
nowhere.
-/

namespace BackgroundAgents.Automation

open AutomationDb
open BackgroundAgents.Transition

/-! ## What holds -/

/-- A store in which nothing has fired yet. -/
def AutomationDb.created (automations : Table AutomationRow.id) (teams : Table TeamRow.id) :
    AutomationDb where
  automations := automations
  invocations := .empty
  runs := .empty
  receipts := .empty
  teams := teams

/-- An invocation that holds its automation, or its key: one of its runs is active. -/
def AutomationDb.InFlight (db : AutomationDb) (i : AutomationInvocationRow) : Prop :=
  ∃ r ∈ db.runs.rows, r.invocationId = i.id ∧ r.status.active = true

/-- The limit an automation runs under: its row's, or 1 where that is not at least 1. -/
def AutomationDb.limit (db : AutomationDb) (automationId : Id) : Int :=
  ((db.automations.get? automationId).map automationConcurrencyLimit).getD 1

/-- **The limits and the keys hold.** -/
structure OverlapLimited (s : FiringState) : Prop where
  /-- Whatever the next step admits without a concurrency key is below the limit. -/
  admission : ∀ act t, firings.step s act = some t →
    ∀ i ∈ t.db.invocations.table.rows, s.db.invocations.table.get? i.id = none →
      i.skipReason = none → (i.source = .event → i.concurrencyKey = none) →
      (s.db.countActiveInvocations i.automationId : Int) < s.db.limit i.automationId
  keyExclusive : ∀ i ∈ s.db.invocations.table.rows, ∀ j ∈ s.db.invocations.table.rows,
    ∀ key, i.automationId = j.automationId → i.source = .event → j.source = .event →
      i.concurrencyKey = some key → j.concurrencyKey = some key →
      s.db.InFlight i → s.db.InFlight j → i = j
  refusedChildless : ∀ f ∈ s.firings, Firing.admittedId f.pc = none →
    ∀ p, f.prepared = some p → ∀ r ∈ s.db.runs.rows,
      r.invocationId ≠ p.invocation.id ∧ r.id ∉ p.children.map AutomationRunRow.id
  skipChildless : ∀ i ∈ s.db.invocations.table.rows, i.skipReason ≠ none →
    ∀ r ∈ s.db.runs.rows, r.invocationId ≠ i.id
  keyOwner : ∀ i ∈ s.db.invocations.table.rows, ∀ j ∈ s.db.invocations.table.rows,
    ∀ key, i.automationId = j.automationId → i.triggerKey = some key →
      j.triggerKey = some key → i = j
  /-- A delivery that begins after the key's invocation ends deduplicated, with it. -/
  keyTold : ∀ i ∈ s.db.invocations.table.rows, ∀ key, i.triggerKey = some key →
    ∀ t, firings.Reachable anyStep s t → ∀ n f, s.firings.length ≤ n →
      t.firings[n]? = some f → f.params.automation.id = i.automationId →
      f.params.triggerKey = some key → ∀ outcome, f.pc = .done outcome →
      outcome = .deduplicated (some i.id)

/-! ## The invariant -/

/-- The identifiers a firing inserts under, once it knows them. -/
def Firing.owned (f : Firing) : List Id :=
  match f.prepared with
  | some p => p.invocation.id :: p.children.map AutomationRunRow.id
  | none => f.params.invocationId.toList

/-- Nothing is stored under an identifier. -/
def AutomationDb.Unused (db : AutomationDb) (id : Id) : Prop :=
  (∀ i ∈ db.invocations.table.rows, i.id ≠ id) ∧ ∀ r ∈ db.runs.rows, r.id ≠ id

/-- What holds of the store alone. -/
structure StoreInv (db : AutomationDb) : Prop where
  runOwner : ∀ r ∈ db.runs.rows, ∃ i ∈ db.invocations.table.rows,
    i.id = r.invocationId ∧ i.automationId = r.automationId ∧ i.skipReason = none
  keyExclusive : ∀ i ∈ db.invocations.table.rows, ∀ j ∈ db.invocations.table.rows,
    ∀ key, i.automationId = j.automationId → i.source = .event → j.source = .event →
      i.concurrencyKey = some key → j.concurrencyKey = some key →
      db.InFlight i → db.InFlight j → i = j
  executor : ∀ i ∈ db.invocations.table.rows, i.triggerKey ≠ none →
    db.OwnerKnown i.automationId

structure OverlapInv (s : FiringState) : Prop where
  store : StoreInv s.db
  coherent : ∀ f ∈ s.firings, f.Coherent
  /-- Everything stored, or about to be stored, was generated. -/
  storeIssued : ∀ id, id ∉ s.issued → s.db.Unused id
  ownedIssued : ∀ f ∈ s.firings, ∀ id ∈ f.owned, id ∈ s.issued
  apart : ∀ (m n : Nat) f g, s.firings[m]? = some f → s.firings[n]? = some g → m ≠ n →
    ∀ id ∈ f.owned, id ∉ g.owned
  unused : ∀ f ∈ s.firings, Firing.admittedId f.pc = none → ∀ id ∈ f.owned, s.db.Unused id
  /-- A firing's copy of its row shows no executor that the row does not have. -/
  executor : ∀ f ∈ s.firings, f.automation.userId ≠ none → s.db.OwnerKnown f.automation.id

/-! ## The store's part -/

section Store

variable {db db' : AutomationDb}

theorem Quiet.unused (q : Quiet db db') {id : Id} (h : db.Unused id) : db'.Unused id := by
  constructor
  · intro i' hi'
    obtain ⟨i, hi, _, rfl⟩ := q.invocation_before hi'
    exact h.1 i hi
  · intro r' hr'
    obtain ⟨r, hr, hmove⟩ := q.run_before hr'
    rw [hmove.id]
    exact h.2 r hr

/-- What is in flight after a quiet statement was in flight before. -/
theorem Quiet.inFlight_before (q : Quiet db db') {i i' : AutomationInvocationRow}
    (hid : i'.id = i.id) (h : db'.InFlight i') : db.InFlight i := by
  obtain ⟨r', hr', hinv, hactive⟩ := h
  obtain ⟨r, hr, hmove⟩ := q.run_before hr'
  exact ⟨r, hr, by rw [← hmove.invocationId, hinv, hid], hmove.active hactive⟩

theorem StoreInv.quiet (h : StoreInv db) (q : Quiet db db') : StoreInv db' where
  runOwner r' hr' := by
    obtain ⟨r, hr, hmove⟩ := q.run_before hr'
    obtain ⟨i, hi, hid, hauto, hskip⟩ := h.runOwner r hr
    obtain ⟨i', hi', _, rfl⟩ := q.invocation_after hi
    exact ⟨_, hi', by rw [hmove.invocationId]; exact hid, by rw [hmove.automationId]; exact hauto,
      hskip⟩
  keyExclusive i' hi' j' hj' key hauto hsi hsj hki hkj hfi hfj := by
    obtain ⟨g, hg, hsame⟩ := q.invocations
    rw [hg] at hi' hj'
    obtain ⟨i, hi, rfl⟩ := List.mem_map.mp hi'
    obtain ⟨j, hj, rfl⟩ := List.mem_map.mp hj'
    obtain ⟨_, hgi⟩ := hsame i
    obtain ⟨_, hgj⟩ := hsame j
    have hij : i = j := by
      rw [hgi] at hauto hsi hki hfi
      rw [hgj] at hauto hsj hkj hfj
      exact h.keyExclusive i hi j hj key hauto hsi hsj hki hkj (q.inFlight_before rfl hfi)
        (q.inFlight_before rfl hfj)
    rw [hij]
  executor i' hi' hkey := by
    obtain ⟨i, hi, _, rfl⟩ := q.invocation_before hi'
    exact q.owner _ (h.executor i hi hkey)

variable {i : AutomationInvocationRow} {invocations : Invocations}

theorem mem_insert?_invocations (hi : db.invocations.insert? i = some invocations)
    {x : AutomationInvocationRow} :
    x ∈ invocations.table.rows ↔ x ∈ db.invocations.table.rows ∨ x = i :=
  Table.mem_insert? (Invocations.insert?_some hi)

/-- A new invocation under a new identifier has no run. -/
theorem StoreInv.not_inFlight (h : StoreInv db) (hfree : db.Unused i.id) : ¬db.InFlight i := by
  rintro ⟨r, hr, hinv, _⟩
  obtain ⟨j, hj, hid, _⟩ := h.runOwner r hr
  exact hfree.1 j hj (hid.trans hinv)

theorem StoreInv.addInvocation (h : StoreInv db)
    (hi : db.invocations.insert? i = some invocations) (hfree : db.Unused i.id)
    (hx : i.triggerKey ≠ none → db.OwnerKnown i.automationId) :
    StoreInv { db with invocations } where
  runOwner r hr := by
    obtain ⟨j, hj, hrest⟩ := h.runOwner r hr
    exact ⟨j, (mem_insert?_invocations hi).mpr (.inl hj), hrest⟩
  keyExclusive j hj l hl key hauto hsj hsl hkj hkl hfj hfl := by
    rcases (mem_insert?_invocations hi).mp hj with hj | rfl
    · rcases (mem_insert?_invocations hi).mp hl with hl | rfl
      · exact h.keyExclusive j hj l hl key hauto hsj hsl hkj hkl hfj hfl
      · exact absurd hfl (h.not_inFlight hfree)
    · exact absurd hfj (h.not_inFlight hfree)
  executor j hj hkey := by
    rcases (mem_insert?_invocations hi).mp hj with hj | rfl
    · exact h.executor j hj hkey
    · exact hx hkey

/-- The children of an invocation that is alone with its key. -/
theorem StoreInv.addChildren {d d' : AutomationDb} {children : List AutomationRunRow}
    (h : StoreInv d) (hi : i ∈ d.invocations.table.rows) (hskip : i.skipReason = none)
    (hc : d.insertChildren i.id children = some d')
    (hauto : ∀ c ∈ children, c.automationId = i.automationId)
    (hkey : ∀ j ∈ d.invocations.table.rows, ∀ key, j.automationId = i.automationId →
      i.source = .event → i.concurrencyKey = some key → j.concurrencyKey = some key →
      ¬d.InFlight j) : StoreInv d' := by
  obtain ⟨hautomations, hinvocations, _, _⟩ := insertChildren_frame hc
  have hnew : ∀ r ∈ d'.runs.rows, r ∈ d.runs.rows ∨
      (r.invocationId = i.id ∧ r.automationId = i.automationId) := by
    intro r hr
    rcases (mem_insertChildren hc r).mp hr with hr | ⟨_, c, hc, rfl⟩
    · exact .inl hr
    · exact .inr ⟨rfl, hauto c hc⟩
  have hflight : ∀ j ∈ d.invocations.table.rows, d'.InFlight j → j = i ∨ d.InFlight j := by
    rintro j hj ⟨r, hr, hinv, hactive⟩
    rcases hnew r hr with hr | ⟨hri, _⟩
    · exact .inr ⟨r, hr, hinv, hactive⟩
    · exact .inl (Table.eq_of_key hj hi (hinv.symm.trans hri))
  refine ⟨?_, ?_, ?_⟩
  · intro r hr
    rw [hinvocations]
    rcases hnew r hr with hr | ⟨hinv, hra⟩
    · exact h.runOwner r hr
    · exact ⟨i, hi, hinv.symm, hra.symm, hskip⟩
  · intro j hj l hl key hjl hsj hsl hkj hkl hfj hfl
    rw [hinvocations] at hj hl
    rcases hflight j hj hfj with rfl | hfj
    · rcases hflight l hl hfl with rfl | hfl
      · rfl
      · exact absurd hfl (hkey l hl key hjl.symm hsj hkj hkl)
    · rcases hflight l hl hfl with rfl | hfl
      · exact absurd hfj (hkey j hj key hjl hsl hkl hkj)
      · exact h.keyExclusive j hj l hl key hjl hsj hsl hkj hkl hfj hfl
  · intro j hj hkey
    rw [hinvocations] at hj
    exact Quiet.ownerKnown_of_automations hautomations _ (h.executor j hj hkey)

theorem Quiet.advanceSchedule (i : AutomationInvocationRow) (advance : Option ScheduleAdvance)
    (grants : Option TeamGrantsVersion) : Quiet db (db.advanceSchedule i advance grants) := by
  cases advance with
  | none => exact .of_eq rfl rfl fun _ h => h
  | some advance => exact .updateAutomations _ _ _ fun _ h => h

/-- Children without an invocation go nowhere. -/
theorem insertChildren_absent {id : Id} (h : ∀ i ∈ db.invocations.table.rows, i.id ≠ id)
    (children : List AutomationRunRow) : db.insertChildren id children = some db := by
  have hnone : db.invocations.table.get? id = none := Table.get?_eq_none.mpr h
  induction children with
  | nil => rfl
  | cons child children ih =>
    rw [insertChildren, hnone]
    exact ih

/-- A guarded batch that inserts nothing inserts no child either. -/
theorem Quiet.refused {p : GuardedInsert} (hfree : db.Unused p.invocation.id)
    (hb : db.insertInvocationGuarded p = .committed false db') : Quiet db db' := by
  obtain ⟨hadmits, invocations, d, hi, hd, rfl⟩ := insertInvocationGuarded_committed hb
  rw [← hadmits] at hi
  cases hi
  rw [insertChildren_absent hfree.1] at hd
  cases hd
  exact .advanceSchedule ..

/-- The predicate of the insert reads the limit of the row. -/
theorem storedConcurrencyLimit_eq (a : Id) : db.storedConcurrencyLimit a = db.limit a := by
  unfold storedConcurrencyLimit limit
  cases db.automations.get? a with
  | none => rfl
  | some row =>
    simp only [Option.filter_some, Option.map_some, automationConcurrencyLimit]
    by_cases h : 1 ≤ row.maxConcurrentRuns
    · simp [h]
    · simp [h, defaultAutomationMaxConcurrentRuns]

/-- An invocation in flight holds its concurrency key. -/
theorem StoreInv.overlaps (h : StoreInv db) (hi : i ∈ db.invocations.table.rows) {key : String}
    (hkey : i.concurrencyKey = some key) (hf : db.InFlight i) :
    db.overlapPredicate i.automationId (.concurrencyKey key) = true := by
  obtain ⟨r, hr, hinv, hactive⟩ := hf
  obtain ⟨j, hj, hid, hauto, _⟩ := h.runOwner r hr
  have hji : j = i := Table.eq_of_key hj hi (hid.trans hinv)
  subst hji
  refine List.find?_isSome.mpr ⟨r, hr, ?_⟩
  simp [activeForKey, hauto, hactive, hinv, Table.mem_rows_iff.mp hj, hkey]

/-- What a firing that is admitted adds to the store. -/
structure Admitted (db : AutomationDb) (p : GuardedInsert) (db' : AutomationDb) : Prop where
  admits : db.admits p = true
  invocations : ∀ i, i ∈ db'.invocations.table.rows ↔
    i ∈ db.invocations.table.rows ∨ i = p.invocation
  runs : ∀ r, r ∈ db'.runs.rows ↔ r ∈ db.runs.rows ∨
    ∃ c ∈ p.children, r = { c with invocationId := p.invocation.id }
  childrenNew : (p.children.map AutomationRunRow.id).Nodup ∧
    ∀ c ∈ p.children, ∀ r ∈ db.runs.rows, r.id ≠ c.id
  owner : ∀ a, db.OwnerKnown a → db'.OwnerKnown a

theorem insertInvocationGuarded_admitted {p : GuardedInsert}
    (hb : db.insertInvocationGuarded p = .committed true db') : Admitted db p db' := by
  obtain ⟨hadmits, invocations, d, hi, hd, rfl⟩ := insertInvocationGuarded_committed hb
  rw [← hadmits] at hi
  obtain ⟨hautomations, hinvocations, _, _⟩ := insertChildren_frame hd
  obtain ⟨hruns, hinv, _⟩ := advanceSchedule_frame d p.invocation p.advanceSchedule p.teamGrantsVersion
  have hstored : (invocations.table.get? p.invocation.id).isSome = true := by
    rw [Table.mem_rows_iff.mp ((mem_insert?_invocations hi).mpr (.inr rfl))]
    rfl
  have hnew := insertChildren_new hd hstored
  refine ⟨hadmits.symm, ?_, ?_, hnew, ?_⟩
  · intro i
    rw [hinv, hinvocations]
    exact mem_insert?_invocations hi
  · intro r
    rw [hruns, mem_insertChildren hd r]
    simp only [hstored, true_and]
  · intro a ha
    exact (Quiet.advanceSchedule ..).owner a (Quiet.ownerKnown_of_automations hautomations a ha)

/-- A firing's admission keeps the store's invariant: the predicate of its insert says
that nothing else with its key is in flight. -/
theorem StoreInv.admitted {f : Firing} {generatedId : Id} {children : List (Id × Option String)}
    {grants : Option TeamGrantsVersion} (h : StoreInv db)
    (hfree : db.Unused (f.guardedInsert generatedId children grants).invocation.id)
    (hx : f.params.triggerKey ≠ none → db.OwnerKnown f.automation.id)
    (hb : db.insertInvocationGuarded (f.guardedInsert generatedId children grants) =
      .committed true db') : StoreInv db' := by
  obtain ⟨hadmits, invocations, d, hi, hd, rfl⟩ := insertInvocationGuarded_committed hb
  rw [← hadmits] at hi
  have hadd := h.addInvocation hi hfree hx
  refine StoreInv.quiet ?_ (Quiet.advanceSchedule ..)
  refine hadd.addChildren ((mem_insert?_invocations hi).mpr (.inr rfl)) rfl hd ?_ ?_
  · intro c hc
    obtain ⟨target, _, rfl⟩ := List.mem_map.mp hc
    rfl
  · intro j hj key hauto hsource hki hkj hfj
    have hscope : f.overlapScope = .concurrencyKey key := by
      unfold Firing.overlapScope
      rw [show f.params.source = .event from hsource,
        show f.params.concurrencyKey = some key from hki]
    rcases (mem_insert?_invocations hi).mp hj with hj | rfl
    · have hover := h.overlaps hj hkj hfj
      have hfalse : db.overlapPredicate f.automation.id f.overlapScope = false := by
        have hadm : db.admits (f.guardedInsert generatedId children grants) = true := hadmits.symm
        simp only [admits, Bool.and_eq_true, Bool.not_eq_true'] at hadm
        exact hadm.1.1
      rw [hscope, ← show j.automationId = f.automation.id from hauto, hover] at hfalse
      cases hfalse
    · exact h.not_inFlight hfree hfj

/-- A skip or a denial keeps it too: it has no trigger key and no run. -/
theorem StoreInv.childless (h : StoreInv db) (hfree : db.Unused i.id)
    (hkey : i.triggerKey = none) : StoreInv (db.insertChildless i).2 := by
  have hframe := insertChildless_frame db i
  rcases insertChildless_invocations db i with hsame | hi
  · exact h.quiet (.of_eq hsame hframe.2.1 (Quiet.ownerKnown_of_automations hframe.1))
  · refine (h.addInvocation hi hfree (absurd hkey)).quiet ?_
    exact .of_eq rfl hframe.2.1 (Quiet.ownerKnown_of_automations hframe.1)

end Store

/-! ## The invariant over the firings -/

namespace OverlapInv

variable {s t : FiringState}

theorem initial (automations : Table AutomationRow.id) (teams : Table TeamRow.id) :
    OverlapInv (.initial (.created automations teams)) where
  store :=
    { runOwner := fun _ hr => absurd hr List.not_mem_nil
      keyExclusive := fun _ hi => absurd hi List.not_mem_nil
      executor := fun _ hi => absurd hi List.not_mem_nil }
  coherent _ hf := absurd hf List.not_mem_nil
  storeIssued _ _ :=
    ⟨fun _ hi => absurd hi List.not_mem_nil, fun _ hr => absurd hr List.not_mem_nil⟩
  ownedIssued _ hf := absurd hf List.not_mem_nil
  apart m n f g hf := by cases hf
  unused _ hf := absurd hf List.not_mem_nil
  executor _ hf := absurd hf List.not_mem_nil

variable {db' : AutomationDb}

/-- A quiet statement, with every firing where it was. -/
theorem quiet (h : OverlapInv s) (q : Quiet s.db db') :
    OverlapInv { s with db := db' } where
  store := h.store.quiet q
  coherent := h.coherent
  storeIssued id hid := q.unused (h.storeIssued id hid)
  ownedIssued := h.ownedIssued
  apart := h.apart
  unused f hf hpc id hid := q.unused (h.unused f hf hpc id hid)
  executor f hf hu := q.owner _ (h.executor f hf hu)

theorem fresh_issued {ids : List Id} (h : s.fresh ids = true) : ∀ id ∈ ids, id ∉ s.issued := by
  simp only [FiringState.fresh, Bool.and_eq_true, List.all_eq_true, decide_eq_true_eq] at h
  exact h.2

variable {answer : FiringAnswer}

variable {f f' : Firing}

/-- What an identifier of a firing is after a step: its own before, or new. -/
theorem owned_step {db db' : AutomationDb} (hc : f.Coherent)
    (hst : Firing.Stepped db f answer db' f') :
    ∀ id ∈ f'.owned, id ∈ f.owned ∨ id ∈ answer.ids := by
  intro id hid
  rcases hst.prepared with hsame | ⟨generatedId, children, grants, rfl, hpc, hnew⟩
  · refine .inl ?_
    unfold Firing.owned at hid ⊢
    rwa [hsame, hst.params] at hid
  · -- the invocation takes the caller's identifier, if it brought one
    have hown := hc.own
    rw [hpc] at hown
    unfold Firing.owned at hid ⊢
    rw [hnew] at hid
    rw [hown.1]
    rcases List.mem_cons.mp hid with rfl | hid
    · simp only [Firing.guardedInsert, FiringAnswer.ids]
      cases f.params.invocationId with
      | none => exact .inr (.head _)
      | some own => exact .inl (.head _)
    · refine .inr (List.mem_cons_of_mem generatedId ?_)
      simpa [Firing.guardedInsert, Firing.child] using hid

/-- The executor a firing's copy shows is the row's. -/
theorem executor_step {db db' : AutomationDb} (hst : Firing.Stepped db f answer db' f')
    (hmono : ∀ a, db.OwnerKnown a → db'.OwnerKnown a)
    (h : f.automation.userId ≠ none → db.OwnerKnown f.automation.id) :
    f'.automation.userId ≠ none → db'.OwnerKnown f'.automation.id := by
  intro hu
  rcases hst.automation with hsame | ⟨userId, rfl, hrow, hnew⟩ | ⟨rfl, hnew⟩
  · rw [hsame] at hu ⊢
    exact hmono _ (h hu)
  · rw [hnew]
    obtain ⟨row, hget, huser⟩ := (Option.any_eq_true _ _).mp hrow
    refine ⟨{ row with userId := some userId }, ?_, nofun⟩
    rw [repairOwner, AutomationDb.updateAutomations, Table.get?_update, hget]
    simp [Table.key_of_get? hget, Option.isNone_iff_eq_none.mp huser]
  · rw [hnew] at hu ⊢
    cases hg : db'.getById f.automation.id with
    | none =>
      rw [hg] at hu
      exact h hu
    | some a =>
      rw [hg] at hu
      refine ⟨a, ?_, hu⟩
      rw [show (some a).getD f.automation = a from rfl, Firing.getById_id hg]
      exact (Option.filter_eq_some_iff.mp hg).1

/-- A firing that took a step, over a store that keeps its invariant: what the step
stores is under its own identifiers or new ones, and if it did not admit the firing,
not under its own. -/
theorem resumed {n : Nat}
    (h : OverlapInv s) (hf : s.firings[n]? = some f) (hfresh : s.fresh answer.ids = true)
    (hs : f.step s.db answer = some (db', f')) (hstore : StoreInv db')
    (hmono : ∀ a, s.db.OwnerKnown a → db'.OwnerKnown a)
    (hunused : ∀ id, s.db.Unused id → id ∉ answer.ids →
      (id ∉ f.owned ∨ Firing.admittedId f'.pc = none) → db'.Unused id)
    (hnew : Firing.admittedId f'.pc = none → ∀ id ∈ f'.owned, db'.Unused id) :
    OverlapInv ⟨db', s.firings.set n f', answer.ids ++ s.issued⟩ := by
  have hst := Firing.step_stepped hs
  have hmem := List.mem_of_getElem? hf
  have hc := h.coherent f hmem
  have hnotIssued := fresh_issued hfresh
  have hother : ∀ (m : Nat) g, m ≠ n → s.firings[m]? = some g → ∀ id ∈ g.owned,
      id ∉ f'.owned ∧ id ∉ f.owned ∧ id ∉ answer.ids := by
    intro m g hmn hg id hid
    have hissued := h.ownedIssued g (List.mem_of_getElem? hg) id hid
    have hapart := h.apart m n g f hg hf hmn id hid
    refine ⟨?_, hapart, fun ha => hnotIssued id ha hissued⟩
    intro hid'
    rcases owned_step hc hst id hid' with hown | hans
    · exact hapart hown
    · exact hnotIssued id hans hissued
  have hget : ∀ (m : Nat) g, (s.firings.set n f')[m]? = some g →
      (m = n ∧ g = f') ∨ (m ≠ n ∧ s.firings[m]? = some g) := by
    intro m g hg
    rw [List.getElem?_set] at hg
    split at hg
    next hmn =>
      split at hg
      next => exact .inl ⟨hmn.symm, (Option.some.inj hg).symm⟩
      next => cases hg
    next hmn => exact .inr ⟨fun he => hmn he.symm, hg⟩
  refine ⟨hstore, ?_, ?_, ?_, ?_, ?_, ?_⟩
  · intro g hg
    rcases List.mem_or_eq_of_mem_set hg with hg | rfl
    · exact h.coherent g hg
    · exact hc.step hs
  · intro id hid
    simp only [List.mem_append, not_or] at hid
    refine hunused id (h.storeIssued id hid.2) hid.1 (.inl ?_)
    exact fun hown => hid.2 (h.ownedIssued f hmem id hown)
  · intro g hg id hid
    rw [List.mem_append]
    rcases List.mem_or_eq_of_mem_set hg with hg | rfl
    · exact .inr (h.ownedIssued g hg id hid)
    · rcases owned_step hc hst id hid with hown | hans
      · exact .inr (h.ownedIssued f hmem id hown)
      · exact .inl hans
  · intro l m f₁ f₂ h₁ h₂ hlm id hid
    rcases hget l f₁ h₁ with ⟨rfl, rfl⟩ | ⟨hl, hg₁⟩
    · rcases hget m f₂ h₂ with ⟨rfl, _⟩ | ⟨hm, hg₂⟩
      · exact absurd rfl hlm
      · exact fun hid₂ => (hother m f₂ hm hg₂ id hid₂).1 hid
    · rcases hget m f₂ h₂ with ⟨_, rfl⟩ | ⟨hm, hg₂⟩
      · exact (hother l f₁ hl hg₁ id hid).1
      · exact h.apart l m f₁ f₂ hg₁ hg₂ hlm id hid
  · intro g hg hpc id hid
    obtain ⟨m, hm⟩ := List.mem_iff_getElem?.mp hg
    rcases hget m g hm with ⟨_, rfl⟩ | ⟨hmn, hm⟩
    · exact hnew hpc id hid
    · obtain ⟨_, hnotOwn, hnotNew⟩ := hother m g hmn hm id hid
      exact hunused id (h.unused g (List.mem_of_getElem? hm) hpc id hid) hnotNew (.inl hnotOwn)
  · intro g hg
    rcases List.mem_or_eq_of_mem_set hg with hg | rfl
    · exact fun hu => hmono _ (h.executor g hg hu)
    · exact executor_step hst hmono (h.executor f hmem)

/-- A firing's step that inserts nothing. -/
theorem resumed_quiet {n : Nat} (h : OverlapInv s) (hf : s.firings[n]? = some f)
    (hfresh : s.fresh answer.ids = true) (hs : f.step s.db answer = some (db', f'))
    (q : Quiet s.db db') :
    OverlapInv ⟨db', s.firings.set n f', answer.ids ++ s.issued⟩ := by
  have hmem := List.mem_of_getElem? hf
  refine h.resumed hf hfresh hs (h.store.quiet q) q.owner (fun id hid _ _ => q.unused hid) ?_
  intro hpc id hid
  rcases owned_step (h.coherent f hmem) (Firing.step_stepped hs) id hid with hown | hnew
  · exact q.unused (h.unused f hmem (Firing.admittedId_before hs hpc) id hown)
  · exact q.unused (h.storeIssued id (fresh_issued hfresh id hnew))

/-- A firing's step that records a skip or a denial. -/
theorem resumed_childless {i : AutomationInvocationRow} {now : Millis} {n : Nat} (h : OverlapInv s)
    (hf : s.firings[n]? = some f) (hfresh : s.fresh (FiringAnswer.generated i.id now).ids = true)
    (hs : f.step s.db (.generated i.id now) = some (db', f')) (hkey : i.triggerKey = none)
    (hpc : Firing.admittedId f'.pc = none) (q : Quiet (s.db.insertChildless i).2 db') :
    OverlapInv ⟨db', s.firings.set n f', [i.id] ++ s.issued⟩ := by
  have hmem := List.mem_of_getElem? hf
  have hframe := insertChildless_frame s.db i
  have hfree : s.db.Unused i.id :=
    h.storeIssued _ (fresh_issued hfresh _ (List.mem_singleton_self _))
  have hunused : ∀ id, s.db.Unused id → id ∉ [i.id] → db'.Unused id := by
    intro id hid hne
    refine q.unused ⟨?_, ?_⟩
    · intro j hj
      rcases insertChildless_invocations s.db i with hsame | hi
      · exact hid.1 j (hsame ▸ hj)
      · rcases (mem_insert?_invocations hi).mp hj with hj | rfl
        · exact hid.1 j hj
        · exact fun he => hne (List.mem_singleton.mpr he.symm)
    · rw [hframe.2.1]
      exact hid.2
  refine h.resumed hf hfresh hs ((h.store.childless hfree hkey).quiet q)
    (fun a ha => q.owner a (Quiet.ownerKnown_of_automations hframe.1 a ha))
    (fun id hid hne _ => hunused id hid hne) ?_
  intro _ id hid
  -- only the insert's answer adds to what a firing owns, and this is not one
  have hown : id ∈ f.owned := by
    rcases (Firing.step_stepped hs).prepared with hsame | ⟨_, _, _, hans, _⟩
    · unfold Firing.owned at hid ⊢
      rwa [hsame, (Firing.step_stepped hs).params] at hid
    · cases hans
  refine hunused id (h.unused f hmem (Firing.admittedId_before hs hpc) id hown) ?_
  intro he
  rw [List.mem_singleton.mp he] at hown
  exact fresh_issued hfresh _ (List.mem_singleton_self _) (h.ownedIssued f hmem _ hown)

theorem begun {caller : Caller} {f : Firing} (h : OverlapInv s)
    (hfresh : s.fresh caller.ids = true) (hb : caller.begin s.db = some f) :
    OverlapInv { s with firings := s.firings ++ [f], issued := caller.ids ++ s.issued } := by
  obtain ⟨hauto, hget, hprep, hids⟩ := Caller.begin_reads hb
  have hnotIssued := fresh_issued hfresh
  have howned : ∀ id ∈ f.owned, id ∈ caller.ids := by
    intro id hid
    unfold Firing.owned at hid
    rw [hprep] at hid
    exact hids id (Option.mem_toList.mp hid)
  have hcases : ∀ (m : Nat) g, (s.firings ++ [f])[m]? = some g →
      s.firings[m]? = some g ∨ (m = s.firings.length ∧ g = f) := by
    intro m g hg
    rcases Nat.lt_or_ge m s.firings.length with hlt | hge
    · rw [List.getElem?_append_left hlt] at hg
      exact .inl hg
    · rw [List.getElem?_append_right hge] at hg
      obtain ⟨hlt, hg⟩ := List.getElem?_eq_some_iff.mp hg
      simp only [List.length_singleton] at hlt
      exact .inr ⟨by omega, by simpa using hg.symm⟩
  refine ⟨h.store, ?_, ?_, ?_, ?_, ?_, ?_⟩
  · intro g hg
    rcases List.mem_append.mp hg with hg | hg
    · exact h.coherent g hg
    · rw [List.mem_singleton.mp hg]
      exact (Caller.begin_coherent hb).1
  · intro id hid
    exact h.storeIssued id fun hi => hid (List.mem_append_right _ hi)
  · intro g hg id hid
    rcases List.mem_append.mp hg with hg | hg
    · exact List.mem_append_right _ (h.ownedIssued g hg id hid)
    · rw [List.mem_singleton.mp hg] at hid
      exact List.mem_append_left _ (howned id hid)
  · intro l m f₁ f₂ h₁ h₂ hlm id hid
    rcases hcases l f₁ h₁ with hg₁ | ⟨rfl, rfl⟩
    · rcases hcases m f₂ h₂ with hg₂ | ⟨_, rfl⟩
      · exact h.apart l m f₁ f₂ hg₁ hg₂ hlm id hid
      · intro hid₂
        exact hnotIssued id (howned id hid₂) (h.ownedIssued f₁ (List.mem_of_getElem? hg₁) id hid)
    · rcases hcases m f₂ h₂ with hg₂ | ⟨rfl, _⟩
      · intro hid₂
        exact hnotIssued id (howned id hid) (h.ownedIssued f₂ (List.mem_of_getElem? hg₂) id hid₂)
      · exact absurd rfl hlm
  · intro g hg hpc id hid
    rcases List.mem_append.mp hg with hg | hg
    · exact h.unused g hg hpc id hid
    · rw [List.mem_singleton.mp hg] at hid
      exact h.storeIssued id (hnotIssued id (howned id hid))
  · intro g hg hu
    rcases List.mem_append.mp hg with hg | hg
    · exact h.executor g hg hu
    · rw [List.mem_singleton.mp hg] at hu ⊢
      exact ⟨f.automation, hget, hu⟩

/-- **One step keeps the invariant.** -/
theorem step {act : FiringAct} (h : OverlapInv s) (hs : firings.step s act = some t) :
    OverlapInv t := by
  simp only [firings] at hs
  cases act with
  | begin caller =>
    simp only [firingStep] at hs
    split at hs
    next hfresh =>
      obtain ⟨f, hf, rfl⟩ := Option.map_eq_some_iff.mp hs
      exact h.begun hfresh hf
    next => cases hs
  | other statement =>
    cases hs
    exact h.quiet (.storeStatement statement)
  | resume n answer =>
    simp only [firingStep] at hs
    split at hs
    next hfresh =>
      obtain ⟨f, hf, hs⟩ := Option.bind_eq_some_iff.mp hs
      obtain ⟨⟨db', f'⟩, hstep, rfl⟩ := Option.map_eq_some_iff.mp hs
      have hmem := List.mem_of_getElem? hf
      have hc := h.coherent f hmem
      cases (Firing.step_stepped hstep).wrote with
      | nothing =>
        exact h.resumed_quiet hf hfresh hstep (.of_eq rfl rfl fun _ ha => ha)
      | ownerRepaired userId =>
        exact h.resumed_quiet hf hfresh hstep (.updateAutomations _ _ _ fun _ _ => nofun)
      | recovered =>
        exact h.resumed_quiet hf hfresh hstep (.updateAutomations _ _ _ fun _ ha => ha)
      | accepted =>
        exact h.resumed_quiet hf hfresh hstep (.of_eq rfl rfl fun _ ha => ha)
      | skipped id now hans hpc ha =>
        subst hans
        exact h.resumed_childless (i := f.skippedInvocation id _ now) hf hfresh hstep rfl ha
          (.advanceSchedule ..)
      | denied id now hans hpc hslot ha =>
        subst hans
        exact h.resumed_childless (i := f.deniedInvocation id _ now) hf hfresh hstep rfl ha
          (.updateAutomations _ _ _ fun _ hu => hu)
      | @batch _ _ p inserted hpc hp hb ha =>
        have hnone : Firing.admittedId f.pc = none := by rw [hpc]; rfl
        have hown : p.invocation.id ∈ f.owned := by
          unfold Firing.owned
          rw [hp]
          exact .head _
        have hfree := h.unused f hmem hnone _ hown
        cases inserted with
        | false => exact h.resumed_quiet hf hfresh hstep (.refused hfree hb)
        | true =>
          have hadm := insertInvocationGuarded_admitted hb
          obtain ⟨hexec, generatedId, children, grants, rfl⟩ := hc.prepared p hp
          refine h.resumed hf hfresh hstep ?_ hadm.owner ?_ ?_
          · exact h.store.admitted hfree (fun hk => h.executor f hmem (hexec hk)) hb
          · intro id hid _ hnot
            -- what the batch stored is the firing's own
            rcases hnot with hnot | hnot
            · refine ⟨?_, ?_⟩
              · intro i hi
                rcases (hadm.invocations i).mp hi with hi | rfl
                · exact hid.1 i hi
                · exact fun he => hnot (he ▸ hown)
              · intro r hr
                rcases (hadm.runs r).mp hr with hr | ⟨c, hc, rfl⟩
                · exact hid.2 r hr
                · intro he
                  refine hnot ?_
                  unfold Firing.owned
                  rw [hp, ← he]
                  exact List.mem_cons_of_mem _ (List.mem_map.mpr ⟨c, hc, rfl⟩)
            · rw [ha] at hnot
              cases hnot
          · intro hnot
            rw [ha] at hnot
            cases hnot
    next => cases hs

end OverlapInv

/-! ## Admission -/

variable {s t : FiringState}

/-- What a step adds without a skip reason was admitted by the predicate of its insert. -/
theorem OverlapInv.admission {act : FiringAct} (h : OverlapInv s) (hs : firings.step s act = some t)
    {i : AutomationInvocationRow} (hi : i ∈ t.db.invocations.table.rows)
    (hnew : s.db.invocations.table.get? i.id = none) (hskip : i.skipReason = none)
    (hkey : i.source = .event → i.concurrencyKey = none) :
    (s.db.countActiveInvocations i.automationId : Int) < s.db.limit i.automationId := by
  have hquiet : ¬Quiet s.db t.db := by
    intro q
    obtain ⟨j, hj, _, rfl⟩ := q.invocation_before hi
    exact Table.get?_eq_none.mp hnew j hj rfl
  have hchildless : ∀ {j : AutomationInvocationRow}, j.skipReason ≠ none →
      ¬Quiet (s.db.insertChildless j).2 t.db := by
    intro j hj q
    obtain ⟨l, hl, _, rfl⟩ := q.invocation_before hi
    rcases insertChildless_invocations s.db j with hsame | hins
    · rw [hsame] at hl
      exact Table.get?_eq_none.mp hnew l hl rfl
    · rcases (mem_insert?_invocations hins).mp hl with hl | rfl
      · exact Table.get?_eq_none.mp hnew l hl rfl
      · exact hj hskip
  simp only [firings] at hs
  cases act with
  | begin caller =>
    simp only [firingStep] at hs
    split at hs
    next =>
      obtain ⟨f, _, rfl⟩ := Option.map_eq_some_iff.mp hs
      exact (hquiet (.of_eq rfl rfl fun _ ha => ha)).elim
    next => cases hs
  | other statement =>
    cases hs
    exact (hquiet (.storeStatement statement)).elim
  | resume n answer =>
    simp only [firingStep] at hs
    split at hs
    next =>
      obtain ⟨f, hf, hs⟩ := Option.bind_eq_some_iff.mp hs
      obtain ⟨⟨db', f'⟩, hstep, rfl⟩ := Option.map_eq_some_iff.mp hs
      have hmem := List.mem_of_getElem? hf
      cases (Firing.step_stepped hstep).wrote with
      | nothing => exact (hquiet (.of_eq rfl rfl fun _ ha => ha)).elim
      | ownerRepaired => exact (hquiet (.updateAutomations _ _ _ fun _ _ => nofun)).elim
      | recovered => exact (hquiet (.updateAutomations _ _ _ fun _ ha => ha)).elim
      | accepted => exact (hquiet (.of_eq rfl rfl fun _ ha => ha)).elim
      | skipped id now =>
        refine (hchildless ?_ (.advanceSchedule (f.skippedInvocation id _ now) _ none)).elim
        nofun
      | @denied _ reason _ id now =>
        have hne : (f.deniedInvocation id reason now).skipReason ≠ none := nofun
        exact (hchildless hne (.updateAutomations _ _ _ fun _ ha => ha)).elim
      | @batch _ _ p inserted hpc hp hb ha =>
        have hown : p.invocation.id ∈ f.owned := by
          unfold Firing.owned
          rw [hp]
          exact .head _
        have hfree := h.unused f hmem (by rw [hpc]; rfl) _ hown
        cases inserted with
        | false => exact (hquiet (.refused hfree hb)).elim
        | true =>
          have hadm := insertInvocationGuarded_admitted hb
          rcases (hadm.invocations i).mp hi with hold | rfl
          · exact absurd rfl (Table.get?_eq_none.mp hnew i hold)
          · obtain ⟨_, generatedId, children, grants, rfl⟩ :=
              (h.coherent f hmem).prepared p hp
            have hscope : f.overlapScope = .automation := by
              unfold Firing.overlapScope
              split
              next hsource hk =>
                rw [show f.params.concurrencyKey = none from hkey hsource] at hk
                cases hk
              next => rfl
            have hadmits := hadm.admits
            simp only [admits, Firing.guardedInsert, hscope, overlapPredicate,
              storedConcurrencyLimit_eq, Bool.and_eq_true, Bool.not_eq_true',
              decide_eq_false_iff_not, not_le] at hadmits
            exact hadmits.1.1
    next => cases hs

/-! ## Later deliveries -/

/-- An invocation keeps its trigger key. -/
def AutomationDb.KeyOwnedBy (db : AutomationDb) (a : Id) (key : String) (id : Id) : Prop :=
  ∃ i ∈ db.invocations.table.rows, i.id = id ∧ i.automationId = a ∧ i.triggerKey = some key

variable {key : String}

/-- The lookup finds the key's invocation before any receipt. -/
theorem AutomationDb.KeyOwnedBy.found {db : AutomationDb} {a id : Id} (h : db.KeyOwnedBy a key id) :
    db.getInvocationIdByTriggerKey a key = some id := by
  obtain ⟨i, hi, rfl, rfl, hkey⟩ := h
  have hsome : (db.invocations.table.find? fun j =>
      j.automationId = i.automationId && j.triggerKey = some key).isSome = true :=
    List.find?_isSome.mpr ⟨i, hi, by simp [hkey]⟩
  obtain ⟨j, hj⟩ := Option.isSome_iff_exists.mp hsome
  obtain ⟨hget, hp⟩ := Table.find?_some hj
  simp only [Bool.and_eq_true, decide_eq_true_eq] at hp
  have hij : j = i := by
    refine db.invocations.triggers j (Table.mem_rows_iff.mpr hget) i hi (i.automationId, key) ?_ ?_
    · simp [AutomationInvocationRow.trigger, hp.1, hp.2]
    · simp [AutomationInvocationRow.trigger, hkey]
  simp only [getInvocationIdByTriggerKey, hj, hij]

/-- A delivery on its way to be told of invocation `id`: it has an executor, so nothing
stops it before the lookup. -/
structure Told (id : Id) (f : Firing) : Prop where
  automation : f.automation.id = f.params.automation.id
  executor : f.automation.userId ≠ none
  pc : f.pc = .resolvingOwner ∨ f.pc = .findingOwner ∨
    (∃ reason advance, f.pc = .findingSkipOwner reason advance) ∨
    f.pc = .done (.deduplicated (some id))

theorem Told.step {id a : Id} {f f' : Firing} {db db' : AutomationDb} {answer : FiringAnswer}
    (h : Told id f) (ha : f.params.automation.id = a) (hkey : f.params.triggerKey = some key)
    (hk : db.KeyOwnedBy a key id) (hs : f.step db answer = some (db', f')) : Told id f' := by
  have hfound := hk.found
  rw [← ha] at hfound
  rcases h.pc with hpc | hpc | ⟨reason, advance, hpc⟩ | hpc
  · cases answer with
    | identity userId now =>
      have hneeds : needsCanonicalOwner f.automation = false := by
        cases hu : f.automation.userId with
        | none => exact absurd hu h.executor
        | some _ => simp [needsCanonicalOwner, hu]
      simp only [Firing.step, hpc, hneeds] at hs
      cases hs
      refine ⟨h.automation, h.executor, .inr (.inl ?_)⟩
      simp [Firing.withOwner, h.executor, hkey]
    | _ => simp [Firing.step, hpc] at hs
  · cases answer with
    | stored now =>
      simp only [Firing.step, hpc, hkey, Option.getD_some, h.automation, hfound] at hs
      cases hs
      exact ⟨h.automation, h.executor, .inr (.inr (.inr rfl))⟩
    | _ => simp [Firing.step, hpc] at hs
  · cases answer with
    | stored now =>
      simp only [Firing.step, hpc, hkey, Option.getD_some, hfound] at hs
      cases hs
      exact ⟨h.automation, h.executor, .inr (.inr (.inr rfl))⟩
    | _ => simp [Firing.step, hpc] at hs
  · simp [Firing.step, hpc] at hs

/-- A delivery begins on the way: its copy of the row has the row's executor. -/
theorem Told.begun {id : Id} {db : AutomationDb} {caller : Caller} {f : Firing}
    (hb : caller.begin db = some f) (hx : db.OwnerKnown f.params.automation.id)
    (hkey : f.params.triggerKey = some key) : Told id f := by
  obtain ⟨hauto, hget, _, _⟩ := Caller.begin_reads hb
  have hexec : f.automation.userId ≠ none := by
    obtain ⟨row, hrow, hu⟩ := hx
    rw [hauto, hget] at hrow
    cases hrow
    exact hu
  refine ⟨by rw [hauto], hexec, ?_⟩
  cases caller with
  | tick automationId now successor =>
    obtain ⟨a, _, rfl⟩ := Option.map_eq_some_iff.mp hb
    cases hkey
  | trigger automationId =>
    obtain ⟨a, _, rfl⟩ := Option.map_eq_some_iff.mp hb
    cases hkey
  | event automationId triggerKey concurrencyKey claim =>
    obtain ⟨a, _, rfl⟩ := Option.map_eq_some_iff.mp hb
    exact .inl rfl
  | skipEvent automationId triggerKey concurrencyKey reason =>
    obtain ⟨a, ha, rfl⟩ := Option.map_eq_some_iff.mp hb
    have hne := (Option.filter_eq_some_iff.mp ha).2
    simp only [Bool.and_eq_true, decide_eq_true_eq] at hne
    refine .inr (.inr (.inl ⟨reason, none, ?_⟩))
    simp [Firing.recordSkip, Firing.ofEvent, hne.2]

/-- From the moment a key has its invocation: the key keeps it, the executor stays known,
and the deliveries that begin from there on are told. -/
structure LaterTold (a : Id) (key : String) (id : Id) (begun : Nat) (s : FiringState) : Prop where
  owned : s.db.KeyOwnedBy a key id
  executor : s.db.OwnerKnown a
  count : begun ≤ s.firings.length
  told : ∀ n f, begun ≤ n → s.firings[n]? = some f → f.params.automation.id = a →
    f.params.triggerKey = some key → Told id f

/-- Nothing is ever deleted: an invocation stays, and an executor stays known. -/
structure Grows (db db' : AutomationDb) : Prop where
  invocation : ∀ i ∈ db.invocations.table.rows, ∃ i' ∈ db'.invocations.table.rows, i.Same i'
  owner : ∀ a, db.OwnerKnown a → db'.OwnerKnown a

namespace Grows

variable {db db' db'' : AutomationDb}

theorem trans (h : Grows db db') (h' : Grows db' db'') : Grows db db'' where
  invocation i hi := by
    obtain ⟨_, hi, _, rfl⟩ := h.invocation i hi
    obtain ⟨_, hi, countedAt, rfl⟩ := h'.invocation _ hi
    exact ⟨_, hi, countedAt, rfl⟩
  owner a ha := h'.owner a (h.owner a ha)

theorem of_quiet (q : Quiet db db') : Grows db db' where
  invocation _ hi := q.invocation_after hi
  owner := q.owner

/-- The tables of a store that grew by one invocation or none. -/
theorem of_insert {i : AutomationInvocationRow} (hautomations : db'.automations = db.automations)
    (hi : db'.invocations = db.invocations ∨ db.invocations.insert? i = some db'.invocations) :
    Grows db db' where
  invocation j hj := by
    refine ⟨j, ?_, j.failureCountedAt, rfl⟩
    rcases hi with hsame | hi
    · rw [hsame]
      exact hj
    · exact (mem_insert?_invocations hi).mpr (.inl hj)
  owner := Quiet.ownerKnown_of_automations hautomations

theorem childless (i : AutomationInvocationRow) : Grows db (db.insertChildless i).2 :=
  of_insert (insertChildless_frame db i).1 (insertChildless_invocations db i)

theorem batch {p : GuardedInsert} {inserted : Bool}
    (hb : db.insertInvocationGuarded p = .committed inserted db') : Grows db db' := by
  obtain ⟨_, invocations, d, hi, hd, rfl⟩ := insertInvocationGuarded_committed hb
  obtain ⟨hautomations, hinvocations, _, _⟩ := insertChildren_frame hd
  refine trans (of_insert hautomations (i := p.invocation) ?_)
    (of_quiet (Quiet.advanceSchedule ..))
  rw [hinvocations]
  split at hi
  next => exact .inr hi
  next =>
    cases hi
    exact .inl rfl

theorem firingStep {act : FiringAct} (hs : firings.step s act = some t) :
    Grows s.db t.db := by
  simp only [firings] at hs
  cases act with
  | begin caller =>
    simp only [Automation.firingStep] at hs
    split at hs
    next =>
      obtain ⟨f, _, rfl⟩ := Option.map_eq_some_iff.mp hs
      exact of_quiet (.of_eq rfl rfl fun _ ha => ha)
    next => cases hs
  | other statement =>
    cases hs
    exact of_quiet (.storeStatement statement)
  | resume n answer =>
    simp only [Automation.firingStep] at hs
    split at hs
    next =>
      obtain ⟨f, _, hs⟩ := Option.bind_eq_some_iff.mp hs
      obtain ⟨⟨db', f'⟩, hstep, rfl⟩ := Option.map_eq_some_iff.mp hs
      cases (Firing.step_stepped hstep).wrote with
      | nothing => exact of_quiet (.of_eq rfl rfl fun _ ha => ha)
      | ownerRepaired => exact of_quiet (.updateAutomations _ _ _ fun _ _ => nofun)
      | recovered => exact of_quiet (.updateAutomations _ _ _ fun _ ha => ha)
      | accepted => exact of_quiet (.of_eq rfl rfl fun _ ha => ha)
      | skipped id now => exact (childless _).trans (of_quiet (.advanceSchedule ..))
      | denied id now =>
        exact (childless _).trans (of_quiet (.updateAutomations _ _ _ fun _ ha => ha))
      | batch _ _ hb _ => exact batch hb
    next => cases hs

theorem keyOwnedBy (h : Grows db db') {a id : Id} (hk : db.KeyOwnedBy a key id) :
    db'.KeyOwnedBy a key id := by
  obtain ⟨i, hi, hid, hauto, hkey⟩ := hk
  obtain ⟨_, hi', _, rfl⟩ := h.invocation i hi
  exact ⟨_, hi', hid, hauto, hkey⟩

end Grows

theorem LaterTold.step {a id : Id} {begun : Nat} {act : FiringAct} (h : LaterTold a key id begun s)
    (hs : firings.step s act = some t) :
    LaterTold a key id begun t := by
  have hgrows := Grows.firingStep hs
  have howned := hgrows.keyOwnedBy h.owned
  have hexec := hgrows.owner a h.executor
  simp only [firings] at hs
  cases act with
  | begin caller =>
    simp only [firingStep] at hs
    split at hs
    next =>
      obtain ⟨f, hf, rfl⟩ := Option.map_eq_some_iff.mp hs
      have hcount := h.count
      refine ⟨howned, hexec, by simp only [List.length_append]; omega, ?_⟩
      intro n g hn hg hga hkey
      rcases Nat.lt_or_ge n s.firings.length with hlt | hge
      · rw [List.getElem?_append_left hlt] at hg
        exact h.told n g hn hg hga hkey
      · rw [List.getElem?_append_right hge] at hg
        have hgf : g = f := List.mem_singleton.mp (List.mem_of_getElem? hg)
        subst hgf
        exact Told.begun hf (hga ▸ h.executor) hkey
    next => cases hs
  | other statement =>
    cases hs
    exact ⟨howned, hexec, h.count, h.told⟩
  | resume m answer =>
    simp only [firingStep] at hs
    split at hs
    next =>
      obtain ⟨f, hf, hs⟩ := Option.bind_eq_some_iff.mp hs
      obtain ⟨⟨db', f'⟩, hstep, rfl⟩ := Option.map_eq_some_iff.mp hs
      have hparams := (Firing.step_stepped hstep).params
      refine ⟨howned, hexec, by simpa using h.count, ?_⟩
      intro n g hn hg hga hkey
      rw [List.getElem?_set] at hg
      split at hg
      next hmn =>
        split at hg
        next =>
          cases hg
          rw [hparams] at hga hkey
          exact (h.told m f (hmn ▸ hn) hf hga hkey).step hga hkey h.owned hstep
        next => cases hg
      next => exact h.told n g hn hg hga hkey
    next => cases hs

/-! ## The result -/

theorem OverlapInv.limited {s : FiringState} (h : OverlapInv s) : OverlapLimited s where
  admission _ _ hs _ hi hnew hskip hkey := h.admission hs hi hnew hskip hkey
  keyExclusive := h.store.keyExclusive
  refusedChildless f hf hpc p hp r hr := by
    have howned : ∀ id ∈ p.invocation.id :: p.children.map AutomationRunRow.id,
        s.db.Unused id := by
      intro id hid
      refine h.unused f hf hpc id ?_
      unfold Firing.owned
      rw [hp]
      exact hid
    constructor
    · intro he
      obtain ⟨i, hi, hid, _⟩ := h.store.runOwner r hr
      exact (howned _ (.head _)).1 i hi (hid.trans he)
    · intro hmem
      exact (howned _ (.tail _ hmem)).2 r hr rfl
  skipChildless i hi hskip r hr he := by
    obtain ⟨j, hj, hid, _, hnone⟩ := h.store.runOwner r hr
    have hji : j = i := Table.eq_of_key hj hi (hid.trans he)
    exact hskip (hji ▸ hnone)
  keyOwner i hi j hj key hauto hki hkj := by
    refine s.db.invocations.triggers i hi j hj (i.automationId, key) ?_ ?_
    · simp [AutomationInvocationRow.trigger, hki]
    · simp [AutomationInvocationRow.trigger, hkj, hauto]
  keyTold i hi key hkey t ht n f hn hf hauto hfkey outcome hpc := by
    have hlater : LaterTold i.automationId key i.id s.firings.length s := by
      refine ⟨⟨i, hi, rfl, rfl, hkey⟩, h.store.executor i hi (by simp [hkey]), le_rfl, ?_⟩
      intro n f hn hf
      obtain ⟨hlt, _⟩ := List.getElem?_eq_some_iff.mp hf
      omega
    have htold := (ht.inv (LaterTold i.automationId key i.id s.firings.length) hlater
      fun _ _ _ hl _ hs => hl.step hs).told n f hn hf hauto hfkey
    rcases htold.pc with hp | hp | ⟨_, _, hp⟩ | hp
    · cases hpc.symm.trans hp
    · cases hpc.symm.trans hp
    · cases hpc.symm.trans hp
    · cases hpc.symm.trans hp
      rfl

/-- Two deliveries of one event, both past the overlap check before either is admitted,
and a third one, after the admission. -/
def redeliveredRun : List FiringAct :=
  [.begin (.event 1 "deploy:42" (some "env:prod") none),
    .begin (.event 1 "deploy:42" (some "env:prod") none),
    .resume 0 (.identity none 10), .resume 0 (.stored 10), .resume 0 (.stored 10),
    .resume 1 (.identity none 11), .resume 1 (.stored 11), .resume 1 (.stored 11),
    .resume 0 (.prepared 20 [(21, none)] none), .resume 1 (.prepared 30 [(31, none)] none),
    .resume 0 (.stored 12),
    .begin (.event 1 "deploy:42" (some "env:prod") none), .resume 2 (.identity none 13),
    .resume 2 (.stored 13), .resume 1 (.stored 14), .resume 1 (.stored 15)]

def eventAutomation : AutomationRow where
  id := 1
  triggerType := .webhook
  userId := some 7

end BackgroundAgents.Automation

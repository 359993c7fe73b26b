import BackgroundAgents.Automation.FailureService
import BackgroundAgents.Automation.Overlap

/-!
# What the rest of the store leaves to the failure service

`Aside` collects what a step that is none of the failure service's keeps:

* the runs of every invocation stored, unless it is a statement on runs, which
  `RunStatement.exec_rows` is about;
* the invocations, whose failures it does not count;
* the streaks, but for a resume, and the deletions;
* `oneShots`: no one-shot becomes settled by it.

The last one is the long part. A one-shot whose slot fired has no slot ahead of
it only after the batch of that firing, which leaves it enabled only while a run
of the firing is active; a skip or a denial disables it at once, and every edit
gives it a slot or leaves it as it is.
-/

namespace BackgroundAgents.Automation

open AutomationDb
open BackgroundAgents.Transition

/-! ## Settled one-shots -/

/-- An enabled one-shot with no slot ahead of it. -/
structure AutomationRow.Spent (a : AutomationRow) : Prop where
  schedule : a.triggerType = .schedule
  once : a.scheduleOnceAt.isSome = true
  enabled : a.enabled = true
  live : a.deletedAt = none
  noSlot : a.nextRunAt = none

/-- The slot of a one-shot was consumed. -/
def AutomationDb.SlotFired (db : AutomationDb) (a : AutomationRow) : Prop :=
  ∃ i ∈ db.invocations.table.rows,
    i.automationId = a.id ∧ i.source = .schedule ∧ i.scheduledAt = a.scheduleOnceAt

/-- No run of the automation is active. -/
def AutomationDb.Idle (db : AutomationDb) (automationId : Id) : Prop :=
  ∀ r ∈ db.runs.rows, r.automationId = automationId → r.status.active = false

section Rows

variable {db db' : AutomationDb} {a a' : AutomationRow}

theorem matchesRun_eq_false {p : AutomationRunRow → Bool} :
    db.matchesRun p = false ↔ ∀ r ∈ db.runs.rows, p r = false := by
  unfold matchesRun Table.find?
  simp

theorem oneShotSettled_iff :
    db.oneShotSettled a = true ↔ a.Spent ∧ db.SlotFired a ∧ db.Idle a.id := by
  have hfired : (db.invocations.table.find? fun i => i.automationId = a.id &&
      i.source = .schedule && i.scheduledAt = a.scheduleOnceAt).isSome = true ↔
        db.SlotFired a := by
    unfold Table.find? SlotFired
    simp [and_assoc]
  have hidle : (!db.matchesRun fun r => r.automationId = a.id && r.status.active) = true ↔
      db.Idle a.id := by
    rw [Bool.not_eq_true', matchesRun_eq_false]
    simp [Idle]
  unfold oneShotSettled
  rw [Bool.and_eq_true, Bool.and_eq_true, hfired, hidle]
  constructor
  · rintro ⟨⟨h, hf⟩, hi⟩
    simp only [Bool.and_eq_true, decide_eq_true_eq, Option.isNone_iff_eq_none] at h
    exact ⟨⟨h.1.1.1.1, h.1.1.1.2, h.1.1.2, h.1.2, h.2⟩, hf, hi⟩
  · rintro ⟨h, hf, hi⟩
    simp [h.schedule, h.once, h.enabled, h.live, h.noSlot, hf, hi]

/-! ## Edits of a row -/

/-- An edit of a row that is none of the failure service's. -/
structure RowEdit (forgets : Bool) (a a' : AutomationRow) : Prop where
  live : a'.deletedAt = none → a.deletedAt = none
  streak : a'.consecutiveFailures = a.consecutiveFailures ∨
    (forgets = true ∧ a'.consecutiveFailures = 0)
  spent : a'.Spent → a.Spent ∧ a'.scheduleOnceAt = a.scheduleOnceAt

theorem RowEdit.refl (forgets : Bool) (a : AutomationRow) : RowEdit forgets a a where
  live h := h
  streak := .inl rfl
  spent h := ⟨h, rfl⟩

/-- The resume of an automation starts its streak anew. -/
def ScheduleEdit.forgets (id : Id) : ScheduleEdit → Bool
  | .resume id' _ => id' = id
  | _ => false

def FiringAct.forgets (id : Id) : FiringAct → Bool
  | .other (.edit edit) => edit.forgets id
  | _ => false

/-- What a step that is none of the failure service's keeps. -/
structure Aside (act : FiringAct) (db db' : AutomationDb) : Prop where
  children : ∀ i ∈ db.invocations.table.rows, db'.children i.id = db.children i.id
  kept : ∀ i ∈ db.invocations.table.rows, i ∈ db'.invocations.table.rows
  born : ∀ i ∈ db'.invocations.table.rows,
    i ∈ db.invocations.table.rows ∨ i.failureCountedAt = none
  rows : ∀ a' ∈ db'.automations.rows, ∃ a ∈ db.automations.rows, a.id = a'.id ∧
    (a'.deletedAt = none → a.deletedAt = none) ∧
    (a'.consecutiveFailures = a.consecutiveFailures ∨
      (act.forgets a.id = true ∧ a'.consecutiveFailures = 0)) ∧
    (db'.oneShotSettled a' = true → db.oneShotSettled a = true)

variable {act : FiringAct}

/-- A settled one-shot was one before, when its row was edited and nothing else. -/
theorem RowEdit.oneShot {forgets : Bool} (h : RowEdit forgets a a') (hid : a'.id = a.id)
    (hi : db'.invocations = db.invocations) (hr : db'.runs = db.runs)
    (hs : db'.oneShotSettled a' = true) : db.oneShotSettled a = true := by
  obtain ⟨hspent, hfired, hidle⟩ := oneShotSettled_iff.mp hs
  obtain ⟨hspent, hslot⟩ := h.spent hspent
  refine oneShotSettled_iff.mpr ⟨hspent, ?_, ?_⟩
  · unfold SlotFired at hfired ⊢
    rwa [hi, hid, hslot] at hfired
  · unfold Idle at hidle ⊢
    rwa [hr, hid] at hidle

theorem Aside.updateAutomations (p : AutomationRow → Bool) (f : AutomationRow → AutomationRow)
    (hf : ∀ a, (f a).id = a.id) (h : ∀ a, p a = true → RowEdit (act.forgets a.id) a (f a)) :
    Aside act db (db.updateAutomations p f hf) where
  children _ _ := rfl
  kept _ hi := hi
  born _ hi := .inl hi
  rows a' ha' := by
    obtain ⟨a, ha, rfl⟩ := List.mem_map.mp ha'
    have hid : (if p a then f a else a).id = a.id := by
      split
      · exact hf a
      · rfl
    have hedit : RowEdit (act.forgets a.id) a (if p a then f a else a) := by
      split
      next hp => exact h a hp
      next => exact .refl _ a
    exact ⟨a, ha, hid.symm, hedit.live, hedit.streak, hedit.oneShot hid rfl rfl⟩

/-- A step on tables that the failure service does not read. -/
theorem Aside.of_eq (ha : db'.automations = db.automations) (hi : db'.invocations = db.invocations)
    (hr : db'.runs = db.runs) : Aside act db db' where
  children i _ := by rw [AutomationDb.children, hr, AutomationDb.children]
  kept i h := by rwa [hi]
  born i h := .inl (by rwa [hi] at h)
  rows a h := by
    rw [ha] at h
    exact ⟨a, h, rfl, fun h => h, .inl rfl, (RowEdit.refl true a).oneShot rfl hi hr⟩

theorem Aside.edit {edit : ScheduleEdit} (h : editable edit = true) :
    Aside (.other (.edit edit)) db (edit.exec db) := by
  cases edit with
  | pause id =>
    refine .updateAutomations _ _ _ fun a _ => ⟨fun h => h, .inl rfl, fun hs => ?_⟩
    exact absurd hs.enabled Bool.false_ne_true
  | autoPause id =>
    refine .updateAutomations _ _ _ fun a _ => ⟨fun h => h, .inl rfl, fun hs => ?_⟩
    exact absurd hs.enabled Bool.false_ne_true
  | softDelete id now =>
    refine .updateAutomations _ _ _ fun a _ => ⟨nofun, .inl rfl, fun hs => ?_⟩
    exact absurd hs.live nofun
  | resume id nextRunAt =>
    refine .updateAutomations _ _ _ fun a hp => ?_
    simp only [Bool.and_eq_true, decide_eq_true_eq, Bool.or_eq_true] at hp
    refine ⟨fun h => h, .inr ⟨?_, rfl⟩, fun hs => ?_⟩
    · exact decide_eq_true hp.1.1.symm
    · -- a one-shot is resumed with its slot ahead of it
      rcases hp.2 with hnone | hslot
      · have honce := hs.once
        simp only [Option.isNone_iff_eq_none] at hnone
        rw [show a.scheduleOnceAt = none from hnone] at honce
        cases honce
      · have hno := hs.noSlot
        rw [show nextRunAt = none from hno] at hslot
        cases hslot.1
  | updateAutomation id fields =>
    refine .updateAutomations _ _ _ fun a hp => ?_
    simp only [editable, Bool.and_eq_true, Option.isNone_iff_eq_none, decide_eq_true_eq] at h
    have henabled : (fields.apply a).enabled = a.enabled := by
      simp [AutomationFields.apply, h.1.1]
    refine ⟨fun h => h, .inl ?_, fun hs => ?_⟩
    · simp [AutomationFields.apply, h.1.2]
    · have hen := hs.enabled
      rw [henabled] at hen
      have hno := hs.noSlot
      have honce := hs.once
      simp only [AutomationFields.apply] at hno honce ⊢
      cases hf : fields.scheduleOnceAt with
      | none =>
        rw [hf] at hno honce
        cases hn : fields.nextRunAt with
        | none =>
          rw [hn] at hno
          exact ⟨⟨hs.schedule, honce, hen, hs.live, hno⟩, rfl⟩
        | some slot =>
          rw [hn] at hno
          exact absurd (hn.trans (congrArg some hno)) h.2
      | some once =>
        rw [hf] at hno honce
        cases once with
        | none => cases honce
        | some once =>
          simp only [hen, if_true] at hno
          split at hno
          next hsame => exact ⟨⟨hs.schedule, hsame ▸ rfl, hen, hs.live, hno⟩, hsame.symm⟩
          next => cases hno

theorem Aside.ledger {st : LedgerStatement} (h : outside (.other (.ledger st)) = true) :
    Aside act db (st.exec db) := by
  cases st with
  | incrementConsecutiveFailures id => cases h
  | resetConsecutiveFailures id => cases h
  | disableSettledOneShots id => cases h
  | tryMarkInvocationFailureCounted id now => cases h
  | changeExecutor id userId =>
    exact .updateAutomations _ _ _ fun a _ => ⟨fun h => h, .inl rfl,
      fun hs => ⟨⟨hs.schedule, hs.once, hs.enabled, hs.live, hs.noSlot⟩, rfl⟩⟩
  | insertFollowUpClaim id key claim invocation expiresAt =>
    simp only [LedgerStatement.exec, insertFollowUpClaim]
    cases db.receipts.insert? ⟨id, key, .claimed claim invocation expiresAt⟩ <;>
      exact .of_eq rfl rfl rfl
  | reclaimFollowUp id key claim invocation expiresAt now => exact .of_eq rfl rfl rfl
  | acceptFollowUpReceipt id key claim invocation acceptedAt => exact .of_eq rfl rfl rfl
  | releaseFollowUpReceipt id key claim => exact .of_eq rfl rfl rfl
  | bumpGrantsVersion team => exact .of_eq rfl rfl rfl

/-! ## Firings -/

theorem Aside.trans {db'' : AutomationDb} (h : Aside act db db') (h' : Aside act db' db'') :
    Aside act db db'' where
  children i hi := (h'.children i (h.kept i hi)).trans (h.children i hi)
  kept i hi := h'.kept i (h.kept i hi)
  born i hi := by
    rcases h'.born i hi with hi | hnone
    · exact h.born i hi
    · exact .inr hnone
  rows a'' ha'' := by
    obtain ⟨a', ha', hid', hlive', hstreak', hshot'⟩ := h'.rows a'' ha''
    obtain ⟨a, ha, hid, hlive, hstreak, hshot⟩ := h.rows a' ha'
    refine ⟨a, ha, hid.trans hid', fun hn => hlive (hlive' hn), ?_, fun hs => hshot (hshot' hs)⟩
    rcases hstreak' with he' | ⟨hf, hzero⟩
    · rw [he']
      exact hstreak
    · exact .inr ⟨hid ▸ hf, hzero⟩

variable {i : AutomationInvocationRow}

/-- A slot is inserted only for a one-shot that still has it ahead. -/
theorem not_spent_of_guard (hg : db.scheduledInvocationGuard i = true)
    (ha : a ∈ db.automations.rows) (hauto : i.automationId = a.id) (hsource : i.source = .schedule)
    :
    ¬a.Spent := by
  intro hs
  have hget : db.getById i.automationId = some a := by
    unfold getById
    rw [hauto, Table.mem_rows_iff.mp ha]
    simp [hs.live]
  have honce := hs.once
  simp only [scheduledInvocationGuard, hsource, hget, Option.any_some, hs.noSlot] at hg
  cases hslot : a.scheduleOnceAt with
  | none =>
    rw [hslot] at honce
    cases honce
  | some slot => simp [hslot] at hg

/-- An invocation that its slot's guard lets in settles no one-shot. -/
theorem oneShot_of_insert (hg : db.scheduledInvocationGuard i = true) (ha : a ∈ db.automations.rows)
    (hi : ∀ j, j ∈ db'.invocations.table.rows → j ∈ db.invocations.table.rows ∨ j = i)
    (hr : ∀ r ∈ db.runs.rows, r ∈ db'.runs.rows) (hs : db'.oneShotSettled a = true) :
    db.oneShotSettled a = true := by
  obtain ⟨hspent, ⟨j, hj, hauto, hsource, hslot⟩, hidle⟩ := oneShotSettled_iff.mp hs
  refine oneShotSettled_iff.mpr ⟨hspent, ?_, fun r hmem => hidle r (hr r hmem)⟩
  rcases hi j hj with hj | rfl
  · exact ⟨j, hj, hauto, hsource, hslot⟩
  · exact absurd hspent (not_spent_of_guard hg ha hauto hsource)

theorem Aside.childless (hnone : i.failureCountedAt = none) :
    Aside act db (db.insertChildless i).2 := by
  unfold insertChildless
  split
  next hg =>
    split
    next invocations hins =>
      refine ⟨fun _ _ => rfl, fun j hj => (mem_insert?_invocations hins).mpr (.inl hj), ?_, ?_⟩
      · intro j hj
        rcases (mem_insert?_invocations hins).mp hj with hj | rfl
        · exact .inl hj
        · exact .inr hnone
      · intro a ha
        exact ⟨a, ha, rfl, fun h => h, .inl rfl,
          oneShot_of_insert hg ha (fun j => (mem_insert?_invocations hins).mp) fun _ hr => hr⟩
    next => exact .of_eq rfl rfl rfl
  next => exact .of_eq rfl rfl rfl

/-- The advance after an insert: a one-shot is left enabled only while a run of the
invocation is active. -/
theorem Aside.advance {advance : Option ScheduleAdvance} {grants : Option TeamGrantsVersion}
    (hruns : ∀ r ∈ db.runs.rows, r.invocationId = i.id → r.automationId = i.automationId) :
    Aside act db (db.advanceSchedule i advance grants) := by
  cases advance with
  | none => exact .of_eq rfl rfl rfl
  | some advance =>
    refine ⟨fun _ _ => rfl, fun _ hj => hj, fun _ hj => .inl hj, ?_⟩
    intro a' ha'
    obtain ⟨a, ha, rfl⟩ := List.mem_map.mp ha'
    by_cases hp : db.ownsSlot i advance.fromSlot grants a = true
    · rw [if_pos hp]
      refine ⟨a, ha, rfl, fun h => h, .inl rfl, fun hs => ?_⟩
      obtain ⟨hspent, _, hidle⟩ := oneShotSettled_iff.mp hs
      simp only [ownsSlot, Bool.and_eq_true, decide_eq_true_eq] at hp
      have honce : a.scheduleOnceAt.isSome = true := hspent.once
      have henabled := hspent.enabled
      simp only [honce, Bool.true_and] at henabled
      split at henabled
      next => cases henabled
      next hactive =>
        simp only [Bool.not_eq_true', Bool.not_eq_false] at hactive
        obtain ⟨r, hr, hmatch⟩ := List.find?_isSome.mp hactive
        simp only [Bool.and_eq_true, decide_eq_true_eq] at hmatch
        have hra : r.automationId = a.id := (hruns r hr hmatch.1).trans hp.1.1.1.1.symm
        have hinactive : r.status.active = false := hidle r hr hra
        rw [hmatch.2] at hinactive
        cases hinactive
    · rw [if_neg hp]
      exact ⟨a, ha, rfl, fun h => h, .inl rfl, (RowEdit.refl true a).oneShot rfl rfl rfl⟩

/-- The runs of an invocation have its automation. -/
theorem StoreInv.run_automation (h : StoreInv db) (hi : i ∈ db.invocations.table.rows)
    {r : AutomationRunRow} (hr : r ∈ db.runs.rows) (hri : r.invocationId = i.id) :
    r.automationId = i.automationId := by
  obtain ⟨j, hj, hid, hauto, _⟩ := h.runOwner r hr
  rw [← hauto, Table.eq_of_key hj hi (hid.trans hri)]

/-- Nothing runs under an identifier that nothing is stored under. -/
theorem StoreInv.no_runs (h : StoreInv db) {id : Id} (hfree : db.Unused id) {r : AutomationRunRow}
    (hr : r ∈ db.runs.rows) : r.invocationId ≠ id := by
  intro he
  obtain ⟨j, hj, hid, _⟩ := h.runOwner r hr
  exact hfree.1 j hj (hid.trans he)

theorem Aside.batch {f : Firing} {generatedId : Id} {targets : List (Id × Option String)}
    {grants : Option TeamGrantsVersion} {inserted : Bool} (h : StoreInv db)
    (hfree : db.Unused (f.guardedInsert generatedId targets grants).invocation.id)
    (hb : db.insertInvocationGuarded (f.guardedInsert generatedId targets grants) =
      .committed inserted db') : Aside act db db' := by
  obtain ⟨hadmits, invocations, d, hi, hd, rfl⟩ := insertInvocationGuarded_committed hb
  obtain ⟨hautomations, hinvocations, _, _⟩ := insertChildren_frame hd
  rw [← hadmits] at hi
  cases inserted with
  | false =>
    cases hi
    rw [insertChildren_absent hfree.1] at hd
    cases hd
    exact .advance fun r hr he => absurd he (h.no_runs hfree hr)
  | true =>
    have hruns : ∀ r, r ∈ d.runs.rows → r ∈ db.runs.rows ∨
        r.automationId = (f.guardedInsert generatedId targets grants).invocation.automationId := by
      intro r hr
      rcases (mem_insertChildren hd r).mp hr with hr | ⟨_, c, hc, rfl⟩
      · exact .inl hr
      · obtain ⟨target, _, rfl⟩ := List.mem_map.mp hc
        exact .inr rfl
    have hguard : db.scheduledInvocationGuard
        (f.guardedInsert generatedId targets grants).invocation = true := by
      have hadm := hadmits.symm
      simp only [admits, Bool.and_eq_true] at hadm
      exact hadm.2
    refine @Aside.trans _ d _ _ ⟨?_, ?_, ?_, ?_⟩ (.advance ?_)
    · intro i hmem
      exact children_insertChildren hd fun he => hfree.1 i hmem he.symm
    · intro i hmem
      rw [hinvocations]
      exact (mem_insert?_invocations hi).mpr (.inl hmem)
    · intro i hmem
      rw [hinvocations] at hmem
      rcases (mem_insert?_invocations hi).mp hmem with hmem | rfl
      · exact .inl hmem
      · exact .inr rfl
    · intro a ha
      rw [hautomations] at ha
      refine ⟨a, ha, rfl, fun h => h, .inl rfl, oneShot_of_insert hguard ha ?_ ?_⟩
      · intro j hj
        rw [hinvocations] at hj
        exact (mem_insert?_invocations hi).mp hj
      · exact fun r hr => (mem_insertChildren hd r).mpr (.inl hr)
    · intro r hr he
      rcases hruns r hr with hr | hauto
      · exact absurd he (h.no_runs hfree hr)
      · exact hauto

end Rows

/-- **What a step that is none of the failure service's keeps**, other than a statement
on runs. -/
theorem firing_aside {s t : FiringState} {act : FiringAct} (h : OverlapInv s)
    (hout : outside act = true) (hrun : ∀ st, act ≠ .other (.run st))
    (hs : firingStep s act = some t) : Aside act s.db t.db := by
  cases act with
  | begin caller =>
    simp only [firingStep] at hs
    split at hs
    next =>
      obtain ⟨f, _, rfl⟩ := Option.map_eq_some_iff.mp hs
      exact .of_eq rfl rfl rfl
    next => cases hs
  | other statement =>
    cases hs
    cases statement with
    | run st => exact absurd rfl (hrun st)
    | edit edit => exact .edit hout
    | ledger st => exact .ledger hout
  | resume n answer =>
    simp only [firingStep] at hs
    split at hs
    next hfresh =>
      obtain ⟨f, hf, hs⟩ := Option.bind_eq_some_iff.mp hs
      obtain ⟨⟨db', f'⟩, hstep, rfl⟩ := Option.map_eq_some_iff.mp hs
      have hmem := List.mem_of_getElem? hf
      have hnew : ∀ id ∈ answer.ids, s.db.Unused id := fun id hid =>
        h.storeIssued id (OverlapInv.fresh_issued hfresh id hid)
      cases (Firing.step_stepped hstep).wrote with
      | nothing => exact .of_eq rfl rfl rfl
      | ownerRepaired userId =>
        exact .updateAutomations _ _ _ fun a _ => ⟨fun h => h, .inl rfl,
          fun hs => ⟨⟨hs.schedule, hs.once, hs.enabled, hs.live, hs.noSlot⟩, rfl⟩⟩
      | recovered =>
        exact .updateAutomations _ _ _ fun a _ => ⟨fun h => h, .inl rfl,
          fun hs => absurd hs.noSlot (fun h => by cases h)⟩
      | accepted => exact .of_eq rfl rfl rfl
      | skipped id now hans =>
        subst hans
        have hfree := hnew id (.head _)
        refine .trans (.childless rfl) (.advance ?_)
        intro r hr he
        rw [(insertChildless_frame ..).2.1] at hr
        exact absurd he (h.store.no_runs hfree hr)
      | denied id now hans =>
        refine .trans (.childless rfl) (.updateAutomations _ _ _ fun a _ => ?_)
        exact ⟨fun h => h, .inl rfl, fun hs => absurd hs.enabled Bool.false_ne_true⟩
      | @batch _ _ p inserted hpc hp hb ha =>
        have hown : p.invocation.id ∈ f.owned := by
          unfold Firing.owned
          rw [hp]
          exact .head _
        have hfree := h.unused f hmem (by rw [hpc]; rfl) _ hown
        obtain ⟨_, generatedId, targets, grants, rfl⟩ := (h.coherent f hmem).prepared p hp
        exact .batch h.store hfree hb
    next => cases hs

end BackgroundAgents.Automation

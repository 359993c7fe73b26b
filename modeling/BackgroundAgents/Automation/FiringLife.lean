import BackgroundAgents.Automation.StoreLaws

/-!
# What a firing carries, and what it writes

A firing keeps the parameters it began with; what it prepared is its own guarded
insert; an advance it still has to make is the handover of its own slot
(`Firing.Coherent`, over every step). `Firing.step_stepped` says what a step makes of
the locals and lists what it may write.
-/

namespace BackgroundAgents.Automation

open AutomationDb
open BackgroundAgents.Transition

/-! ## One firing -/

namespace Firing

/-- A delivery of a trigger key acts for the automation's executor. -/
def HasExecutor (f : Firing) : Prop :=
  f.params.triggerKey ≠ none → f.automation.userId ≠ none

/-- What an await still has to do is about the firing's own slot, nothing is prepared
before the owner is known, and nothing goes on without one. -/
def PcOwn (f : Firing) : FiringPc → Prop
  | .resolvingOwner => f.prepared = none
  | .rereadingOwner => f.prepared = none
  | .findingOwner => f.prepared = none ∧ f.HasExecutor
  | .checkingOverlap => f.prepared = none ∧ f.HasExecutor
  | .preparing => f.prepared = none ∧ f.HasExecutor
  | .recovering nextRunAt =>
    f.params.source = .schedule ∧ f.params.advanceToNextRunAt = some (some nextRunAt)
  | .findingSkipOwner _ advance => advance = none ∨ advance = f.advance
  | .skipping _ advance => advance = none ∨ advance = f.advance
  | _ => True

/-- What a firing's locals hold. -/
structure Coherent (f : Firing) : Prop where
  automation : f.automation.id = f.params.automation.id
  unattended : f.params.triggerKey ≠ none → f.params.executionPrincipal = false
  prepared : ∀ p, f.prepared = some p → f.HasExecutor ∧
    ∃ generatedId children grants, p = f.guardedInsert generatedId children grants
  own : f.PcOwn f.pc

variable {f f' : Firing} {db db' : AutomationDb} {answer : FiringAnswer}

theorem pcOwn_finish (f : Firing) (o : StartOutcome) : f.PcOwn (f.finish o) := by
  cases o with
  | unauthorized reason =>
    simp only [finish]
    split <;> trivial
  | _ => trivial

theorem pcOwn_recordSkip (f : Firing) (reason : String) {advance : Option ScheduleAdvance}
    (h : advance = none ∨ advance = f.advance) : f.PcOwn (f.recordSkip reason advance) := by
  unfold recordSkip
  split
  next =>
    split
    next => exact h
    next => exact h
  next => exact h

theorem pcOwn_recordOverlapSkip (f : Firing) (advanceSchedule : Bool) :
    f.PcOwn (f.recordOverlapSkip advanceSchedule) := by
  unfold recordOverlapSkip
  split
  next => trivial
  next =>
    refine pcOwn_recordSkip f _ ?_
    split
    next => exact .inr rfl
    next => exact .inl rfl

theorem pcOwn_standDown (f : Firing) : f.PcOwn f.standDown := by
  unfold standDown
  split <;> trivial

theorem pcOwn_duplicateKey (f : Firing) : f.PcOwn f.duplicateKey := by
  unfold duplicateKey
  split
  next hs ha => exact ⟨hs, ha⟩
  next => exact pcOwn_standDown f

theorem pcOwn_admitted (f : Firing) (id : Id) : f.PcOwn (f.admitted id) := by
  unfold admitted
  split <;> trivial

theorem pcOwn_refused (f : Firing) (grants : Option TeamGrantsVersion) :
    f.PcOwn (f.refused grants) := by
  unfold refused
  split
  next => trivial
  next => exact pcOwn_recordOverlapSkip f _

/-- A step that only moves the await. -/
theorem Coherent.at {pc : FiringPc} (h : f.Coherent) (hpc : f.PcOwn pc) :
    Coherent { f with pc } :=
  ⟨h.automation, h.unattended, h.prepared, hpc⟩

/-- Before anything is prepared, the copy of the row may still be replaced. -/
theorem Coherent.withOwner {automation : AutomationRow} (hid : automation.id = f.params.automation.id)
    (hu : f.params.triggerKey ≠ none → f.params.executionPrincipal = false)
    (hp : f.prepared = none) : (f.withOwner automation).Coherent where
  automation := hid
  unattended := hu
  prepared p h := by
    rw [show (f.withOwner automation).prepared = f.prepared from rfl, hp] at h
    cases h
  own := by
    show (f.withOwner automation).PcOwn (if _ then _ else _)
    split
    next => exact pcOwn_finish (f.withOwner automation) (.unauthorized none)
    next hnone =>
      have hexec : (f.withOwner automation).HasExecutor := by
        intro hkey huser
        refine hnone ?_
        rw [hu hkey, show automation.userId = none from huser]
        rfl
      split
      next => exact ⟨hp, hexec⟩
      next => exact ⟨hp, hexec⟩

theorem getById_id {id : Id} {a : AutomationRow} (h : db.getById id = some a) : a.id = id :=
  Table.key_of_get? (Option.filter_eq_some_iff.mp h).1

theorem Coherent.step (h : f.Coherent) (hs : f.step db answer = some (db', f')) :
    f'.Coherent := by
  have hown := h.own
  unfold Firing.step at hs
  split at hs
  next hpc =>
    rw [hpc] at hown
    simp only at hs
    split at hs
    next =>
      split at hs
      next =>
        cases hs
        exact Coherent.withOwner h.automation h.unattended hown
      next =>
        cases hs
        refine ⟨h.automation, h.unattended, ?_, hown⟩
        intro p hp
        rw [show f.prepared = none from hown] at hp
        cases hp
    next =>
      cases hs
      exact Coherent.withOwner h.automation h.unattended hown
  next hpc =>
    rw [hpc] at hown
    cases hs
    refine Coherent.withOwner ?_ h.unattended hown
    cases hg : db.getById f.automation.id with
    | none => exact h.automation
    | some a => exact (getById_id hg).trans h.automation
  next hpc =>
    rw [hpc] at hown
    split at hs
    next =>
      cases hs
      exact h.at trivial
    next =>
      cases hs
      exact h.at hown
  next hpc =>
    rw [hpc] at hown
    split at hs
    next =>
      cases hs
      exact h.at (pcOwn_recordOverlapSkip f true)
    next =>
      cases hs
      exact h.at hown
  next =>
    cases hs
    exact h.at (pcOwn_finish f _)
  next hpc =>
    rw [hpc] at hown
    split at hs
    next =>
      cases hs
      refine ⟨h.automation, h.unattended, ?_, trivial⟩
      rintro p ⟨⟩
      exact ⟨hown.2, _, _, _, rfl⟩
    next => cases hs
  next =>
    obtain ⟨p, hp, hs⟩ := Option.map_eq_some_iff.mp hs
    split at hs
    next =>
      cases hs
      exact h.at (pcOwn_duplicateKey f)
    next =>
      cases hs
      exact h.at trivial
    next =>
      cases hs
      exact h.at (pcOwn_admitted f _)
    next =>
      cases hs
      exact h.at (pcOwn_refused f _)
  next =>
    cases hs
    exact h.at (pcOwn_standDown f)
  next =>
    cases hs
    exact h.at trivial
  next =>
    split at hs
    next =>
      cases hs
      exact h.at (pcOwn_recordOverlapSkip f _)
    next =>
      cases hs
      exact h.at trivial
  next reason advance _ hpc =>
    split at hs
    next =>
      cases hs
      exact h.at trivial
    next =>
      cases hs
      rw [hpc] at hown
      exact h.at hown
  next =>
    cases hs
    exact h.at trivial
  next =>
    split at hs
    next =>
      cases hs
      exact h.at trivial
    next => cases hs
  next =>
    obtain ⟨slot, _, hs⟩ := Option.map_eq_some_iff.mp hs
    cases hs
    exact h.at trivial
  next => cases hs

/-! ### The writes of a step -/

/-- The invocation whose admission an await follows. -/
def admittedId : FiringPc → Option Id
  | .accepting id => some id
  | .done (.started id) => some id
  | _ => none

/-- What one step wrote, and whether it admitted the firing. -/
inductive Wrote (db : AutomationDb) (f : Firing) (answer : FiringAnswer) :
    AutomationDb → Firing → Prop where
  | nothing {f' : Firing} : admittedId f'.pc = none → Wrote db f answer db f'
  | ownerRepaired {f' : Firing} (userId : Id) : admittedId f'.pc = none →
    Wrote db f answer (db.repairOwner f.automation.id userId) f'
  | batch {db' : AutomationDb} {f' : Firing} {p : GuardedInsert} {inserted : Bool} :
    f.pc = .inserting → f.prepared = some p →
    db.insertInvocationGuarded p = .committed inserted db' →
    admittedId f'.pc = (if inserted then some p.invocation.id else none) →
    Wrote db f answer db' f'
  | recovered {f' : Firing} {nextRunAt : Millis} : f.pc = .recovering nextRunAt →
    admittedId f'.pc = none →
    Wrote db f answer (db.advanceNextRunAt f.automation.id nextRunAt) f'
  | skipped {f' : Firing} {reason : String} {advance : Option ScheduleAdvance} (id : Id)
    (now : Millis) : answer = .generated id now → f.pc = .skipping reason advance →
    admittedId f'.pc = none →
    Wrote db f answer (db.insertSkippedInvocation (f.skippedInvocation id reason now) advance).2 f'
  | accepted {f' : Firing} (key : String) (claimId invocationId : Id) (now : Millis) :
    f.pc = .accepting invocationId → admittedId f'.pc = some invocationId →
    Wrote db f answer (db.acceptFollowUpReceipt f.automation.id key claimId invocationId now) f'
  | denied {f' : Firing} {reason : Option String} {slot : Millis} (id : Id) (now : Millis) :
    answer = .generated id now → f.pc = .denying reason → f.params.scheduledAt = some slot → admittedId f'.pc = none →
    Wrote db f answer (db.recordAuthorizationDenied (f.deniedInvocation id reason now) slot) f'

theorem admittedId_finish {f : Firing} {reason : Option String} :
    admittedId (f.finish (.unauthorized reason)) = none := by
  simp only [finish]
  split <;> rfl

theorem admittedId_recordSkip (f : Firing) (reason : String) (advance : Option ScheduleAdvance) :
    admittedId (f.recordSkip reason advance) = none := by
  unfold recordSkip
  split
  next => split <;> rfl
  next => rfl

theorem admittedId_recordOverlapSkip (f : Firing) (advanceSchedule : Bool) :
    admittedId (f.recordOverlapSkip advanceSchedule) = none := by
  unfold recordOverlapSkip
  split
  next => rfl
  next => exact admittedId_recordSkip f _ _

theorem admittedId_standDown (f : Firing) : admittedId f.standDown = none := by
  unfold standDown
  split <;> rfl

theorem admittedId_duplicateKey (f : Firing) : admittedId f.duplicateKey = none := by
  unfold duplicateKey
  split
  next => rfl
  next => exact admittedId_standDown f

theorem admittedId_admitted (f : Firing) (id : Id) : admittedId (f.admitted id) = some id := by
  unfold admitted
  split <;> rfl

theorem admittedId_refused (f : Firing) (grants : Option TeamGrantsVersion) :
    admittedId (f.refused grants) = none := by
  unfold refused
  split
  next => rfl
  next => exact admittedId_recordOverlapSkip f _

theorem admittedId_withOwner (f : Firing) (automation : AutomationRow) :
    admittedId (f.withOwner automation).pc = none := by
  show admittedId (if _ then _ else _) = none
  split
  next => exact admittedId_finish
  next => split <;> rfl

/-- What a step makes of the firing's locals, and what it wrote. -/
structure Stepped (db : AutomationDb) (f : Firing) (answer : FiringAnswer) (db' : AutomationDb)
    (f' : Firing) : Prop where
  params : f'.params = f.params
  prepared : f'.prepared = f.prepared ∨ ∃ generatedId children grants,
    answer = .prepared generatedId children grants ∧ f.pc = .preparing ∧
      f'.prepared = some (f.guardedInsert generatedId children grants)
  automation : f'.automation = f.automation ∨
    (∃ userId, db' = db.repairOwner f.automation.id userId ∧
      ((db.automations.get? f.automation.id).any fun a => a.userId.isNone) = true ∧
      f'.automation = { f.automation with userId := some userId }) ∨
    (db' = db ∧ f'.automation = (db.getById f.automation.id).getD f.automation)
  wrote : Wrote db f answer db' f'

/-- **What a step does.** -/
theorem step_stepped (hs : f.step db answer = some (db', f')) : Stepped db f answer db' f' := by
  unfold Firing.step at hs
  split at hs
  next =>
    simp only at hs
    split at hs
    next =>
      split at hs
      next huser =>
        cases hs
        exact ⟨rfl, .inl rfl, .inr (.inl ⟨_, rfl, huser, rfl⟩),
          .ownerRepaired _ (admittedId_withOwner _ _)⟩
      next =>
        cases hs
        exact ⟨rfl, .inl rfl, .inl rfl, .ownerRepaired _ rfl⟩
    next =>
      cases hs
      exact ⟨rfl, .inl rfl, .inl rfl, .nothing (admittedId_withOwner _ _)⟩
  next =>
    cases hs
    exact ⟨rfl, .inl rfl, .inr (.inr ⟨rfl, rfl⟩), .nothing (admittedId_withOwner _ _)⟩
  next =>
    split at hs
    next =>
      cases hs
      exact ⟨rfl, .inl rfl, .inl rfl, .nothing rfl⟩
    next =>
      cases hs
      exact ⟨rfl, .inl rfl, .inl rfl, .nothing rfl⟩
  next =>
    split at hs
    next =>
      cases hs
      exact ⟨rfl, .inl rfl, .inl rfl, .nothing (admittedId_recordOverlapSkip f true)⟩
    next =>
      cases hs
      exact ⟨rfl, .inl rfl, .inl rfl, .nothing rfl⟩
  next =>
    cases hs
    exact ⟨rfl, .inl rfl, .inl rfl, .nothing admittedId_finish⟩
  next hpc =>
    split at hs
    next =>
      cases hs
      exact ⟨rfl, .inr ⟨_, _, _, rfl, hpc, rfl⟩, .inl rfl, .nothing rfl⟩
    next => cases hs
  next hpc =>
    obtain ⟨p, hp, hs⟩ := Option.map_eq_some_iff.mp hs
    split at hs
    next =>
      cases hs
      exact ⟨rfl, .inl rfl, .inl rfl, .nothing (admittedId_duplicateKey f)⟩
    next =>
      cases hs
      exact ⟨rfl, .inl rfl, .inl rfl, .nothing rfl⟩
    next hb =>
      cases hs
      exact ⟨rfl, .inl rfl, .inl rfl, .batch hpc hp hb (admittedId_admitted f _)⟩
    next hb =>
      cases hs
      exact ⟨rfl, .inl rfl, .inl rfl, .batch hpc hp hb (admittedId_refused f _)⟩
  next hpc =>
    cases hs
    exact ⟨rfl, .inl rfl, .inl rfl, .recovered hpc (admittedId_standDown f)⟩
  next =>
    cases hs
    exact ⟨rfl, .inl rfl, .inl rfl, .nothing rfl⟩
  next =>
    split at hs
    next =>
      cases hs
      exact ⟨rfl, .inl rfl, .inl rfl, .nothing (admittedId_recordOverlapSkip f _)⟩
    next =>
      cases hs
      exact ⟨rfl, .inl rfl, .inl rfl, .nothing rfl⟩
  next =>
    split at hs
    next =>
      cases hs
      exact ⟨rfl, .inl rfl, .inl rfl, .nothing rfl⟩
    next =>
      cases hs
      exact ⟨rfl, .inl rfl, .inl rfl, .nothing rfl⟩
  next id now hpc =>
    cases hs
    exact ⟨rfl, .inl rfl, .inl rfl, .skipped id now rfl hpc rfl⟩
  next now hpc =>
    split at hs
    next claimId key _ _ =>
      cases hs
      exact ⟨rfl, .inl rfl, .inl rfl, .accepted key claimId _ now hpc rfl⟩
    next => cases hs
  next id now hpc =>
    obtain ⟨slot, hslot, hs⟩ := Option.map_eq_some_iff.mp hs
    cases hs
    exact ⟨rfl, .inl rfl, .inl rfl, .denied id now rfl hpc hslot rfl⟩
  next => cases hs

/-- A firing that a step leaves unadmitted was so before. -/
theorem admittedId_before (hs : f.step db answer = some (db', f'))
    (h : admittedId f'.pc = none) : admittedId f.pc = none := by
  cases hpc : f.pc with
  | accepting invocationId =>
    cases answer with
    | stored now =>
      -- the receipt is accepted and the firing has started
      simp only [Firing.step, hpc] at hs
      split at hs
      next =>
        cases hs
        cases h
      next => cases hs
    | _ => simp [Firing.step, hpc] at hs
  | done outcome =>
    simp [Firing.step, hpc] at hs
  | _ => rfl

end Firing

/-- A firing that has prepared nothing yet. -/
theorem Firing.Coherent.begun {f : Firing} (ha : f.automation = f.params.automation)
    (hu : f.params.triggerKey ≠ none → f.params.executionPrincipal = false)
    (hp : f.prepared = none) (hpc : f.PcOwn f.pc) : f.Coherent where
  automation := by rw [ha]
  unattended := hu
  prepared p h := by
    rw [hp] at h
    cases h
  own := hpc

/-- A firing as its caller begins it. -/
theorem Caller.begin_coherent {caller : Caller} {db : AutomationDb} {f : Firing}
    (h : caller.begin db = some f) : f.Coherent ∧ Firing.admittedId f.pc = none := by
  cases caller with
  | tick automationId now successor =>
    obtain ⟨a, _, rfl⟩ := Option.map_eq_some_iff.mp h
    exact ⟨.begun rfl (fun _ => rfl) rfl rfl, rfl⟩
  | trigger automationId =>
    obtain ⟨a, _, rfl⟩ := Option.map_eq_some_iff.mp h
    exact ⟨.begun rfl (absurd rfl) rfl rfl, rfl⟩
  | event automationId triggerKey concurrencyKey claim =>
    obtain ⟨a, _, rfl⟩ := Option.map_eq_some_iff.mp h
    exact ⟨.begun rfl (fun _ => rfl) rfl rfl, rfl⟩
  | skipEvent automationId triggerKey concurrencyKey reason =>
    obtain ⟨a, _, rfl⟩ := Option.map_eq_some_iff.mp h
    let f := Firing.ofEvent a triggerKey concurrencyKey none
    exact ⟨.begun rfl (fun _ => rfl) rfl (f.pcOwn_recordSkip reason (.inl rfl)),
      f.admittedId_recordSkip reason none⟩

/-- The row a caller reads, and the identifiers it brings. -/
theorem Caller.begin_reads {caller : Caller} {db : AutomationDb} {f : Firing}
    (h : caller.begin db = some f) :
    f.params.automation = f.automation ∧
      db.automations.get? f.automation.id = some f.automation ∧ f.prepared = none ∧
      ∀ id, f.params.invocationId = some id → id ∈ caller.ids := by
  have hget : ∀ {id : Id} {a : AutomationRow}, db.getById id = some a →
      db.automations.get? a.id = some a := by
    intro id a ha
    rw [Firing.getById_id ha]
    exact (Option.filter_eq_some_iff.mp ha).1
  cases caller with
  | tick automationId now successor =>
    obtain ⟨a, ha, rfl⟩ := Option.map_eq_some_iff.mp h
    have hmem := List.mem_of_find?_eq_some ha
    exact ⟨rfl, Table.mem_rows_iff.mp (List.mem_filter.mp hmem).1, rfl, nofun⟩
  | trigger automationId =>
    obtain ⟨a, ha, rfl⟩ := Option.map_eq_some_iff.mp h
    exact ⟨rfl, hget ha, rfl, nofun⟩
  | event automationId triggerKey concurrencyKey claim =>
    obtain ⟨a, ha, rfl⟩ := Option.map_eq_some_iff.mp h
    refine ⟨rfl, hget (Option.filter_eq_some_iff.mp ha).1, rfl, ?_⟩
    intro id hid
    obtain ⟨⟨claimId, invocationId⟩, rfl, rfl⟩ := Option.map_eq_some_iff.mp hid
    exact .tail _ (.head _)
  | skipEvent automationId triggerKey concurrencyKey reason =>
    obtain ⟨a, ha, rfl⟩ := Option.map_eq_some_iff.mp h
    exact ⟨rfl, hget (Option.filter_eq_some_iff.mp ha).1, rfl, nofun⟩

end BackgroundAgents.Automation

import BackgroundAgents.Automation.FiringLife

/-!
# Cron slots

Who moves `next_run_at`. `cronSlots a` is the system of firings with a log of
every change of automation `a`'s schedule: what the change found, what it left,
and whether a firing or an edit made it.

The schedule is kept (`ScheduleKept`) when every move by a firing found the very
slot that firing had claimed. The guarded batch, the skip and the denial are all
compare-and-sets on the slot. The recovery from a duplicate key is not: it is
only monotonic, so a loser moves a schedule that a pause had cleared, and one
whose successor lies beyond the winner's takes the schedule past the winner's.
`slots_fired_once` is the result for the runs without such a recovery, and
`recovery_skips_slot` the two runs with one.
-/

namespace BackgroundAgents.Automation

open AutomationDb
open BackgroundAgents.Transition

/-- Where the schedule of an automation stands. -/
def AutomationDb.scheduled (db : AutomationDb) (a : Id) : Option Millis :=
  (db.automations.get? a).bind AutomationRow.nextRunAt

/-! ## The log of the schedule -/

inductive MoveCause where
  | firing (slot : Option Millis)
  | edit
  | other
  deriving DecidableEq, Repr

/-- A change of `next_run_at`. -/
structure ScheduleMove where
  cause : MoveCause
  found : Option Millis
  left : Option Millis
  deriving DecidableEq, Repr

/-- The system with the moves of one schedule, latest first. -/
structure SlotState where
  base : FiringState
  moves : List ScheduleMove

/-- Who acts. -/
def moveCause (s : FiringState) : FiringAct → MoveCause
  | .begin _ => .other
  | .resume i _ => .firing (s.firings[i]?.bind fun f => f.params.scheduledAt)
  | .other (.edit _) => .edit
  | .other _ => .other

/-- The log after a step from `s` to `t`. -/
def recordMove (a : Id) (s t : FiringState) (act : FiringAct) (moves : List ScheduleMove) :
    List ScheduleMove :=
  if t.db.scheduled a = s.db.scheduled a then moves
  else ⟨moveCause s act, s.db.scheduled a, t.db.scheduled a⟩ :: moves

def cronSlots (a : Id) : System SlotState FiringAct where
  step s act :=
    (firingStep s.base act).map fun t =>
      { base := t, moves := recordMove a s.base t act s.moves }

def SlotState.initial (db : AutomationDb) : SlotState where
  base := .initial db
  moves := []

/-! ## What is kept -/

/-- The moves lead from `start` to where the schedule stands now, each from where the
one before left it. -/
def Unbroken (start : Option Millis) : List ScheduleMove → Option Millis → Prop
  | [], now => now = start
  | m :: earlier, now => m.left = now ∧ m.found ≠ m.left ∧ Unbroken start earlier m.found

/-- A firing moves the schedule only from its own slot; everybody else is an edit. -/
def ScheduleMove.ByOwner (m : ScheduleMove) : Prop :=
  m.cause = .edit ∨ ∃ slot, m.cause = .firing (some slot) ∧ m.found = some slot

/-- **No slot is skipped or fired twice.** Every slot has one schedule invocation at
most. Whoever moved the schedule is an edit or the firing of the slot it found, so a
firing that lost its slot moved nothing. And a successor that was left behind stays
until an edit or a firing of its own moves it. -/
structure ScheduleKept (a : Id) (start : Option Millis) (s : SlotState) : Prop where
  oneInvocation : ∀ i ∈ s.base.db.invocations.table.rows,
    ∀ j ∈ s.base.db.invocations.table.rows, ∀ slot,
      i.source = .schedule → i.automationId = a → i.scheduledAt = some slot →
      j.source = .schedule → j.automationId = a → j.scheduledAt = some slot → i = j
  movedByOwner : ∀ m ∈ s.moves, m.ByOwner
  unbroken : Unbroken start s.moves (s.base.db.scheduled a)
  successorStays : ∀ later m earlier, s.moves = later ++ m :: earlier →
    (∀ x ∈ later, x.cause ≠ .edit ∧ x.cause ≠ .firing m.left) → s.base.db.scheduled a = m.left

/-- The duplicate-key recovery of a firing leaves the schedule to whoever owns it: the
schedule still stands at the firing's slot, or at its successor or beyond. -/
def recoveryKeepsSlot (a : Id) (s : SlotState) : FiringAct → Bool
  | .resume i _ =>
    match s.base.firings[i]? with
    | some f =>
      match f.pc with
      | .recovering nextRunAt =>
        f.automation.id ≠ a || (s.base.db.scheduled a).any fun found =>
          f.params.scheduledAt = some found || nextRunAt ≤ found
      | _ => true
    | none => true
  | _ => true

/-! ## The log -/

theorem Unbroken.step {start now next : Option Millis} {moves : List ScheduleMove}
    {cause : MoveCause} (h : Unbroken start moves now) :
    Unbroken start (if next = now then moves else ⟨cause, now, next⟩ :: moves) next := by
  split
  next heq => exact heq ▸ h
  next hne => exact ⟨rfl, fun he => hne he.symm, h⟩

/-- The oldest of the moves above `m` found what `m` left. -/
theorem Unbroken.stays {start now : Option Millis} {m : ScheduleMove}
    {earlier later : List ScheduleMove} (h : Unbroken start (later ++ m :: earlier) now)
    (hown : ∀ x ∈ later, x.ByOwner)
    (hleft : ∀ x ∈ later, x.cause ≠ .edit ∧ x.cause ≠ .firing m.left) : now = m.left := by
  induction later generalizing now with
  | nil => exact h.1.symm
  | cons x later ih =>
    have hfound : x.found = m.left :=
      ih h.2.2 (fun y hy => hown y (.tail _ hy)) fun y hy => hleft y (.tail _ hy)
    obtain ⟨hedit, hfiring⟩ := hleft x (.head _)
    rcases hown x (.head _) with he | ⟨slot, hc, hf⟩
    · exact absurd he hedit
    · rw [← hfound, hf] at hfiring
      exact absurd hc hfiring

/-! ## What a statement does to the schedule -/

section Statements

variable {db db' : AutomationDb} {a : Id}

theorem scheduled_of_automations (h : db'.automations = db.automations) :
    db'.scheduled a = db.scheduled a := by
  rw [scheduled, scheduled, h]

theorem scheduled_update (p : AutomationRow → Bool) (f : AutomationRow → AutomationRow)
    (hf : ∀ r, (f r).id = r.id) :
    (db.updateAutomations p f hf).scheduled a =
      (db.automations.get? a).bind fun r => if p r then (f r).nextRunAt else r.nextRunAt := by
  rw [scheduled, updateAutomations, Table.get?_update, Option.bind_map]
  congr 1
  funext r
  simp only [Function.comp]
  split <;> rfl

/-- An update moves the schedule of `a` only through a row of `a` that it matches. -/
theorem scheduled_update_cases (p : AutomationRow → Bool) (f : AutomationRow → AutomationRow)
    (hf : ∀ r, (f r).id = r.id) :
    (db.updateAutomations p f hf).scheduled a = db.scheduled a ∨
      ∃ r, r.id = a ∧ p r = true ∧ db.scheduled a = r.nextRunAt := by
  rw [scheduled_update, scheduled]
  cases hg : db.automations.get? a with
  | none => exact .inl rfl
  | some r =>
    simp only [Option.bind_some]
    split
    next hp => exact .inr ⟨r, Table.key_of_get? hg, hp, rfl⟩
    next => exact .inl rfl

/-- An update that leaves `next_run_at` alone. -/
theorem scheduled_update_of_kept (p : AutomationRow → Bool) (f : AutomationRow → AutomationRow)
    (hf : ∀ r, (f r).id = r.id) (hk : ∀ r, (f r).nextRunAt = r.nextRunAt) :
    (db.updateAutomations p f hf).scheduled a = db.scheduled a := by
  rw [scheduled_update, scheduled]
  congr 1
  funext r
  split
  · exact hk r
  · rfl

/-- The handover is a compare-and-set on the slot. -/
theorem scheduled_advanceSchedule (i : AutomationInvocationRow)
    (advance : Option ScheduleAdvance) (grants : Option TeamGrantsVersion) :
    (db.advanceSchedule i advance grants).scheduled a = db.scheduled a ∨
      ∃ x, advance = some x ∧ db.scheduled a = some x.fromSlot := by
  unfold advanceSchedule
  split
  next => exact .inl rfl
  next x =>
    have hcases : (db.bindScheduleAdvance i x grants).scheduled a = db.scheduled a ∨
        ∃ r : AutomationRow, r.id = a ∧ db.ownsSlot i x.fromSlot grants r = true ∧
          db.scheduled a = r.nextRunAt :=
      scheduled_update_cases _ _ _
    rcases hcases with h | ⟨r, _, hp, hr⟩
    · exact .inl h
    · refine .inr ⟨x, rfl, ?_⟩
      simp only [ownsSlot, Bool.and_eq_true, decide_eq_true_eq] at hp
      rw [hr, hp.1.1.2]

/-- So is the pause that records a denial. -/
theorem scheduled_recordAuthorizationDenied (i : AutomationInvocationRow) (slot : Millis) :
    (db.recordAuthorizationDenied i slot).scheduled a = db.scheduled a ∨
      db.scheduled a = some slot := by
  have hchildless : (db.insertChildless i).2.scheduled a = db.scheduled a :=
    scheduled_of_automations (insertChildless_frame db i).1
  rw [← hchildless]
  rcases scheduled_update_cases
      (fun r => r.id = i.automationId && r.deletedAt.isNone && r.enabled &&
        r.nextRunAt = some slot && (r.scheduleOnceAt.isNone || r.scheduleOnceAt = r.nextRunAt))
      (fun r => { r with enabled := false, nextRunAt := none }) (fun _ => rfl) with
    h | ⟨r, _, hp, hr⟩
  · exact .inl h
  · refine .inr ?_
    simp only [Bool.and_eq_true, decide_eq_true_eq] at hp
    rw [hr, hp.1.2]

/-- The recovery is only monotonic. -/
theorem scheduled_advanceNextRunAt (id : Id) (nextRunAt : Millis) :
    (db.advanceNextRunAt id nextRunAt).scheduled a = db.scheduled a ∨
      (id = a ∧ ∀ found, db.scheduled a = some found → found < nextRunAt) := by
  rcases scheduled_update_cases
      (fun r => r.id = id && (r.nextRunAt.isNone || r.nextRunAt.any (· < nextRunAt)))
      (fun r => { r with nextRunAt := some nextRunAt }) (fun _ => rfl) with h | ⟨r, hid, hp, hr⟩
  · exact .inl h
  · simp only [Bool.and_eq_true, decide_eq_true_eq] at hp
    refine .inr ⟨hp.1.symm.trans hid, ?_⟩
    intro found hfound
    rw [hr] at hfound
    simpa [hfound] using hp.2

theorem scheduled_runStatement (st : RunStatement) :
    (st.exec db).scheduled a = db.scheduled a :=
  scheduled_of_automations (st.exec_frame db).1

theorem scheduled_ledgerStatement (st : LedgerStatement) :
    (st.exec db).scheduled a = db.scheduled a := by
  cases st with
  | incrementConsecutiveFailures id => exact scheduled_update_of_kept _ _ _ fun _ => rfl
  | resetConsecutiveFailures id => exact scheduled_update_of_kept _ _ _ fun _ => rfl
  | disableSettledOneShots id => exact scheduled_update_of_kept _ _ _ fun _ => rfl
  | tryMarkInvocationFailureCounted id now => rfl
  | changeExecutor id userId => exact scheduled_update_of_kept _ _ _ fun _ => rfl
  | insertFollowUpClaim id key claim invocation expiresAt =>
    simp only [LedgerStatement.exec, insertFollowUpClaim]
    cases db.receipts.insert? ⟨id, key, .claimed claim invocation expiresAt⟩ <;> rfl
  | reclaimFollowUp id key claim invocation expiresAt now => rfl
  | acceptFollowUpReceipt id key claim invocation acceptedAt => rfl
  | releaseFollowUpReceipt id key claim => rfl
  | bumpGrantsVersion team => rfl

end Statements

/-! ## What a firing does to the schedule -/

/-- A firing's batch hands over the slot the firing claimed. -/
theorem Firing.advance_fromSlot {f : Firing} {x : ScheduleAdvance} (h : f.advance = some x) :
    f.params.scheduledAt = some x.fromSlot := by
  unfold Firing.advance at h
  split at h
  next hs _ =>
    cases h
    exact hs
  next => cases h

/-- **A firing moves the schedule from its own slot, or recovers.** -/
theorem Firing.step_scheduled {f f' : Firing} {db db' : AutomationDb} {answer : FiringAnswer}
    (hc : f.Coherent) (hs : f.step db answer = some (db', f')) (a : Id) :
    db'.scheduled a = db.scheduled a ∨
      (∃ slot, f.params.scheduledAt = some slot ∧ db.scheduled a = some slot) ∨
      ∃ nextRunAt, f.pc = .recovering nextRunAt ∧ f.automation.id = a ∧
        ∀ found, db.scheduled a = some found → found < nextRunAt := by
  have hown := hc.own
  cases (Firing.step_stepped hs).wrote with
  | nothing => exact .inl rfl
  | ownerRepaired userId => exact .inl (scheduled_update_of_kept _ _ _ fun _ => rfl)
  | @batch _ _ p inserted hpc hp hb =>
    obtain ⟨_, invocations, d, _, hd, rfl⟩ := insertInvocationGuarded_committed hb
    have hsame : d.scheduled a = db.scheduled a :=
      scheduled_of_automations (insertChildren_frame hd).1
    rw [← hsame]
    rcases scheduled_advanceSchedule p.invocation p.advanceSchedule
        p.teamGrantsVersion with h | ⟨x, hx, hslot⟩
    · exact .inl h
    · obtain ⟨_, _, _, _, rfl⟩ := hc.prepared p hp
      exact .inr (.inl ⟨_, Firing.advance_fromSlot hx, hslot⟩)
  | @recovered _ nextRunAt hpc =>
    rcases scheduled_advanceNextRunAt f.automation.id nextRunAt with h | h
    · exact .inl h
    · exact .inr (.inr ⟨nextRunAt, hpc, h⟩)
  | @skipped _ reason advance id now _ hpc =>
    rw [hpc] at hown
    have hsame : (db.insertChildless (f.skippedInvocation id reason now)).2.scheduled a =
        db.scheduled a :=
      scheduled_of_automations (insertChildless_frame db _).1
    rw [← hsame]
    rcases scheduled_advanceSchedule (f.skippedInvocation id reason now) advance none with
      h | ⟨x, hx, hslot⟩
    · exact .inl h
    · rcases hown with hnone | hadv
      · rw [hnone] at hx
        cases hx
      · exact .inr (.inl ⟨_, Firing.advance_fromSlot (hadv ▸ hx), hslot⟩)
  | accepted key claimId invocationId now => exact .inl rfl
  | denied id now _ hpc hslot =>
    rcases scheduled_recordAuthorizationDenied (f.deniedInvocation id _ now) _ with h | h
    · exact .inl h
    · exact .inr (.inl ⟨_, hslot, h⟩)

/-! ## The invariant -/

/-- The firings are coherent and the log is an owner's. -/
structure SlotInv (a : Id) (start : Option Millis) (s : SlotState) : Prop where
  coherent : ∀ f ∈ s.base.firings, f.Coherent
  movedByOwner : ∀ m ∈ s.moves, m.ByOwner
  unbroken : Unbroken start s.moves (s.base.db.scheduled a)

namespace SlotInv

variable {a : Id} {start : Option Millis} {s t : SlotState}

theorem initial (a : Id) (db : AutomationDb) :
    SlotInv a (db.scheduled a) (.initial db) where
  coherent _ hf := absurd hf List.not_mem_nil
  movedByOwner _ hm := absurd hm List.not_mem_nil
  unbroken := rfl

/-- A step that meets the condition moves the schedule as its owner. -/
theorem move_byOwner {act : FiringAct} {t : FiringState} (h : SlotInv a start s)
    (hok : recoveryKeepsSlot a s act = true) (hs : firingStep s.base act = some t)
    (hne : t.db.scheduled a ≠ s.base.db.scheduled a) :
    (⟨moveCause s.base act, s.base.db.scheduled a, t.db.scheduled a⟩ : ScheduleMove).ByOwner := by
  cases act with
  | begin caller =>
    simp only [firingStep] at hs
    split at hs
    next =>
      obtain ⟨f, _, rfl⟩ := Option.map_eq_some_iff.mp hs
      exact absurd rfl hne
    next => cases hs
  | resume i answer =>
    simp only [firingStep] at hs
    split at hs
    next =>
      obtain ⟨f, hf, hs⟩ := Option.bind_eq_some_iff.mp hs
      obtain ⟨⟨db', f'⟩, hstep, rfl⟩ := Option.map_eq_some_iff.mp hs
      have hc := h.coherent f (List.mem_of_getElem? hf)
      rcases Firing.step_scheduled hc hstep a with hsame | ⟨slot, hslot, hfound⟩ |
        ⟨nextRunAt, hpc, hid, hlt⟩
      · exact absurd hsame hne
      · exact .inr ⟨slot, by simp [moveCause, hf, hslot], hfound⟩
      · -- the recovery moves the schedule only from where it may
        simp only [recoveryKeepsSlot, hf, hpc, hid, ne_eq, not_true, decide_false,
          Bool.false_or] at hok
        obtain ⟨found, hfound, hok⟩ := (Option.any_eq_true _ _).mp hok
        rw [Bool.or_eq_true, decide_eq_true_eq, decide_eq_true_eq] at hok
        rcases hok with hslot | hle
        · exact .inr ⟨found, by simp [moveCause, hf, hslot], hfound⟩
        · exact absurd (hlt found hfound) (Nat.not_lt.mpr hle)
    next => cases hs
  | other statement =>
    cases hs
    cases statement with
    | run st => exact absurd (scheduled_runStatement st) hne
    | edit st => exact .inl rfl
    | ledger st => exact absurd (scheduled_ledgerStatement st) hne

theorem firings_coherent {act : FiringAct} {t : FiringState} (h : ∀ f ∈ s.base.firings, f.Coherent)
    (hs : firingStep s.base act = some t) : ∀ f ∈ t.firings, f.Coherent := by
  cases act with
  | begin caller =>
    simp only [firingStep] at hs
    split at hs
    next =>
      obtain ⟨f, hf, rfl⟩ := Option.map_eq_some_iff.mp hs
      intro g hg
      rcases List.mem_append.mp hg with hg | hg
      · exact h g hg
      · rw [List.mem_singleton.mp hg]
        exact (Caller.begin_coherent hf).1
    next => cases hs
  | resume i answer =>
    simp only [firingStep] at hs
    split at hs
    next =>
      obtain ⟨f, hf, hs⟩ := Option.bind_eq_some_iff.mp hs
      obtain ⟨⟨db', f'⟩, hstep, rfl⟩ := Option.map_eq_some_iff.mp hs
      intro g hg
      rcases List.mem_or_eq_of_mem_set hg with hg | rfl
      · exact h g hg
      · exact (h f (List.mem_of_getElem? hf)).step hstep
    next => cases hs
  | other statement =>
    cases hs
    exact h

theorem step {act : FiringAct} (h : SlotInv a start s) (hok : recoveryKeepsSlot a s act = true)
    (hs : (cronSlots a).step s act = some t) : SlotInv a start t := by
  obtain ⟨u, hu, rfl⟩ := Option.map_eq_some_iff.mp hs
  refine ⟨firings_coherent h.coherent hu, ?_, h.unbroken.step⟩
  intro m hm
  simp only [recordMove] at hm
  split at hm
  next => exact h.movedByOwner m hm
  next hne =>
    rcases List.mem_cons.mp hm with rfl | hm
    · exact h.move_byOwner hok hu hne
    · exact h.movedByOwner m hm

theorem kept (h : SlotInv a start s) : ScheduleKept a start s where
  oneInvocation i hi j hj slot hsi hai hti hsj haj htj := by
    refine s.base.db.invocations.slots i hi j hj (a, slot) ?_ ?_
    · simp [AutomationInvocationRow.slot, hsi, hti, hai]
    · simp [AutomationInvocationRow.slot, hsj, htj, haj]
  movedByOwner := h.movedByOwner
  unbroken := h.unbroken
  successorStays later m earlier heq hlater := by
    have hu := h.unbroken
    rw [heq] at hu
    refine hu.stays ?_ hlater
    intro x hx
    exact h.movedByOwner x (heq ▸ List.mem_append_left _ hx)

end SlotInv

/-! ## The result -/

/-- **Every slot fires once and none is skipped**, for any number of overlapping ticks
over any statements of the rest of the system, in a run in which no duplicate-key
recovery finds the schedule cleared, or moved off its slot to before its own successor. -/
theorem slots_fired_once {a : Id} {db : AutomationDb} {s : SlotState}
    (h : (cronSlots a).Reachable (fun s act => recoveryKeepsSlot a s act = true) (.initial db) s) :
    ScheduleKept a (db.scheduled a) s :=
  (h.inv (SlotInv a (db.scheduled a)) (.initial a db) fun _ _ _ hi hok hs => hi.step hok hs).kept

/-! ## Runs -/

/-- One recurring automation that may run twice at once, due at 100. -/
def dueAutomation : AutomationRow where
  id := 1
  maxConcurrentRuns := 2
  nextRunAt := some 100
  userId := some 7

def dueDb : AutomationDb where
  automations := ⟨[dueAutomation], by decide⟩
  invocations := .empty
  runs := .empty
  receipts := .empty
  teams := .empty

/-- Two ticks read the slot 100, with their successors, and both prepare to fire it. -/
def twoTicks (first second : Millis) : List FiringAct :=
  [.begin (.tick 1 150 first), .begin (.tick 1 150 second),
    .resume 0 (.identity none 150), .resume 0 (.stored 150), .resume 0 (.prepared 10 [(11, none)] none),
    .resume 1 (.identity none 205), .resume 1 (.stored 205), .resume 1 (.prepared 20 [(21, none)] none)]

/-- The second loses the slot, and recovers. -/
def loserRecovers : List FiringAct :=
  [.resume 0 (.stored 160), .resume 1 (.stored 206), .resume 1 (.stored 207)]

/-- Both ticks saw the same successor: the loser's recovery finds it already there. -/
theorem slots_fired_once_duplicate :
    ∃ s, (cronSlots 1).run (fun s act => recoveryKeepsSlot 1 s act = true) (.initial dueDb)
        (twoTicks 200 200 ++ loserRecovers) = some s ∧
      s.moves = [⟨.firing (some 100), some 100, some 200⟩] ∧ ScheduleKept 1 (some 100) s := by
  have hrun : ((cronSlots 1).run (fun s act => recoveryKeepsSlot 1 s act = true)
      (.initial dueDb) (twoTicks 200 200 ++ loserRecovers)).map SlotState.moves =
        some [⟨.firing (some 100), some 100, some 200⟩] := by decide
  obtain ⟨s, hs, hmoves⟩ := Option.map_eq_some_iff.mp hrun
  exact ⟨s, hs, hmoves, slots_fired_once (System.run_reachable hs)⟩

/-- The loser's tick began before the boundary and computed its successor after it. -/
def straddlingRun : List FiringAct :=
  twoTicks 200 300 ++ loserRecovers

/-- The automation is paused after the winner fired, and the loser recovers. -/
def pausedRun : List FiringAct :=
  twoTicks 200 200 ++ [.resume 0 (.stored 160), .resume 1 (.stored 206),
    .other (.edit (.pause 1)), .resume 1 (.stored 207)]

/-- **A slot skipped, and a pause undone.** The loser of slot 100 takes the schedule from
the winner's successor 200 to its own 300, and from the pause to 200. -/
theorem recovery_skips_slot :
    ∃ s t, (cronSlots 1).Reachable anyStep (.initial dueDb) s ∧
      s.moves.head? = some ⟨.firing (some 100), some 200, some 300⟩ ∧
      ¬ ScheduleKept 1 (some 100) s ∧
      (cronSlots 1).Reachable anyStep (.initial dueDb) t ∧
      t.moves.head? = some ⟨.firing (some 100), none, some 200⟩ ∧
      ¬ ScheduleKept 1 (some 100) t := by
  have hstraddling : ((cronSlots 1).run anyStep (.initial dueDb) straddlingRun).map
      (fun s => s.moves.head?) = some (some ⟨.firing (some 100), some 200, some 300⟩) := by decide
  have hpaused : ((cronSlots 1).run anyStep (.initial dueDb) pausedRun).map
      (fun s => s.moves.head?) = some (some ⟨.firing (some 100), none, some 200⟩) := by decide
  -- the firing of a slot moved a schedule that did not stand there
  have hnot : ∀ (s : SlotState) (found left : Option Millis), found ≠ some 100 →
      s.moves.head? = some ⟨.firing (some 100), found, left⟩ →
      ¬ ScheduleKept 1 (some 100) s := by
    intro s found left hne hmove hkept
    rcases hkept.movedByOwner _ (List.mem_of_mem_head? hmove) with he | ⟨slot, hc, hf⟩
    · cases he
    · cases hc
      exact hne hf
  obtain ⟨s, hs, hsm⟩ := Option.map_eq_some_iff.mp hstraddling
  obtain ⟨t, ht, htm⟩ := Option.map_eq_some_iff.mp hpaused
  exact ⟨s, t, System.run_reachable hs, hsm, hnot s _ _ (by decide) hsm,
    System.run_reachable ht, htm, hnot t _ _ (by decide) htm⟩

end BackgroundAgents.Automation

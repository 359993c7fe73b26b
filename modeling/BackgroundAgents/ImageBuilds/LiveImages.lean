import BackgroundAgents.ImageBuilds.Guards

/-!
# A live image or its source is never torn down

Every turn of every worker is a deed done with care (`Worker.turn_guard`), so in every
run `Guarded` holds. The runs are those in which artifact ids are distinct for each
build and a lease passes on only once its delivery is done with the build (`Orderly`):
the attempt has ended and its result is on record before the lease expires, reading
the clock and claiming are one instant, and a delivery that gives a build up has
marked it failed by then.

The last of these is no promise of the code's: `failAndCleanup` tears the source of
its row down without another look at the status. And an attempt is also followed by
another one when its artifact could not be recorded and has been deleted again
(`captured_twice_and_torn_down`).
-/

namespace BackgroundAgents.ImageBuilds

open BackgroundAgents.Transition

/-! ## The runs -/

/-- The lease that worker `i` is about to claim. -/
def FinalizerState.claimAt (s : FinalizerState) (i : Nat) : Option StoreOp :=
  match s.workers[i]? with
  | some (.process token (.claiming job now _)) =>
    some (.claimLease job.buildId job.completionHash token now (now + finalizationLeaseMs))
  | _ => none

/-- The build an artifact was received for. -/
def Event.origin : Event → Option (ArtifactId × BuildId)
  | .received image b _ => some (image, b)
  | _ => none

def Event.attempt : Event → Option (BuildId × LeaseToken)
  | .started b _ token => some (b, token)
  | _ => none

def Worker.givesUp : Worker → Option (BuildId × LeaseToken)
  | .process token (.failing b _) => some (b, token)
  | _ => none

instance (s : FinalizerState) (b : BuildId) (token : LeaseToken) : Decidable (Passable s b token) :=
  decidable_of_iff
    ((∀ e ∈ s.history, e.attempt = some (b, token) → .persisted token ∈ s.history) ∧
      ∀ w ∈ s.workers, w.givesUp ≠ some (b, token))
    ⟨fun h => ⟨fun _ hp => h.1 _ hp rfl, fun _ hw => h.2 _ hw rfl⟩, fun h => by
      refine ⟨fun e he hattempt => ?_, fun w hw hgives => ?_⟩
      · cases e with
        | started b' p token' =>
          cases hattempt
          exact h.settled p he
        | _ => cases hattempt
      · cases w with
        | process token' stage =>
          cases stage with
          | failing b' error =>
            cases hgives
            exact h.notFailing error hw
          | _ => cases hgives
        | _ => cases hgives⟩

/-- What is asked of every step of a run. -/
def Orderly (s : FinalizerState) : FinalizerStep → Prop
  | .work i (.written w) => ∀ op ∈ s.claimAt i, w.applied = true → ∀ r ∈ s.builds.rows,
      op.write.touches s.builds r = true →
        ∀ earlier ∈ r.finalizationLeaseToken, Passable s r.id earlier
  | .work i (.artifact image) => ∀ f ∈ s.attemptAt i, ∀ e ∈ s.history, ∀ o ∈ e.origin,
      o.1 = image → o.2 = f.key.buildId
  | _ => True

instance (s : FinalizerState) : ∀ a, Decidable (Orderly s a)
  | .work i (.written w) =>
    inferInstanceAs (Decidable (∀ op ∈ s.claimAt i, w.applied = true → ∀ r ∈ s.builds.rows,
      op.write.touches s.builds r = true →
        ∀ earlier ∈ r.finalizationLeaseToken, Passable s r.id earlier))
  | .work i (.artifact image) =>
    inferInstanceAs (Decidable (∀ f ∈ s.attemptAt i, ∀ e ∈ s.history, ∀ o ∈ e.origin,
      o.1 = image → o.2 = f.key.buildId))
  | .work _ (.row _) | .work _ (.reserve _ _ _) | .work _ (.failed _ _ _) | .work _ (.bind _ _)
  | .work _ (.reconciled _) | .work _ .done | .work _ (.raised _) | .trigger _ _ | .deliver _ _
  | .listReapable _ | .listSessionCleanup _ | .listUnresolvedOperations _ | .write _ =>
    .isTrue trivial

/-! ## One turn -/

variable {s s' : FinalizerState} {i : Nat} {a : Answer} {w : Worker} {t : Turn}
  {own : Option LeaseToken} {op : Option StoreOp}

/-- A turn of the worker `w` that keeps the guards. -/
structure TurnGuard (s : FinalizerState) (i : Nat) (w : Worker) (t : Turn) : Prop where
  deed : ∃ own op, Deed s (s.take i t) own op t.events ∧
    ∀ token, own = some token → w.token? = some token
  next : ∀ n, t.next = some n →
    WorkerGuard (s.take i t) n ∧ (n.token? = none ∨ n.token? = w.token?)
  spawned : ∀ n ∈ t.spawned, WorkerGuard (s.take i t) n ∧ n.token? = none

theorem Apart.symm {v w : Worker} (h : Apart v w) : Apart w v :=
  fun token hw hv => h token hv hw

theorem Apart.of_none {v w : Worker} (h : w.token? = none) : Apart v w := by
  intro token _ hw
  rw [h] at hw
  cases hw

theorem Guarded.take (hg : Guarded s) (hget : s.workers[i]? = some w) (ht : TurnGuard s i w t) :
    Guarded (s.take i t) := by
  obtain ⟨own, op, hd, hown⟩ := ht.deed
  refine hd.guarded hg ?_ ?_
  · intro n hn
    rcases List.mem_append.mp hn with hn | hn
    · rcases mem_advance_pairwise (fun _ _ h => h.symm) hg.apart hget hn with hn | ⟨hmem, hapart⟩
      · exact (ht.next n hn).1
      · refine WorkerGuard.deed hg hd hmem fun token hn ho => ?_
        exact hapart token (hown token ho) hn
    · exact (ht.spawned n hn).1
  · refine List.pairwise_append.mpr ⟨?_, ?_, ?_⟩
    · refine pairwise_advance (fun _ _ h => h.symm) hg.apart hget fun n hn y hy => ?_
      rcases (ht.next n hn).2 with hnone | hsame
      · exact (Apart.of_none hnone).symm
      · exact fun token hn hy' => hy token (hsame ▸ hn) hy'
    · exact List.pairwise_of_forall_mem_list fun v hv w hw => Apart.of_none (ht.spawned w hw).2
    · exact fun v _ w hw => Apart.of_none (ht.spawned w hw).2

/-! ### Deeds of a turn -/

/-- Events that say nothing of sources, deletions and new attempts. -/
def Event.inert : Event → Bool
  | .ended _ _ | .compensated _ _ | .persisted _ | .deleted _ | .settled _ => true
  | _ => false

/-- A deed all of whose events are inert. -/
theorem Deed.inert (hbuilds : s.written t.op = s.written op)
    (hinert : ∀ e ∈ t.events, e.inert = true)
    (careful : ∀ o, op = some o → Careful s (s.take i t) own o)
    (owned : ∀ e ∈ t.events, ∀ token, e.token? = some token → own = some token ∧ token ∈ s.tokens)
    (settles : ∀ token, .persisted token ∈ t.events → ∀ b p, .started b p token ∈ s.history →
      Repeatable (s.take i t).history token ∨
        At (s.take i t) b fun r => r.providerImageId ≠ none ∨ r.status = .failed) :
    Deed s (s.take i t) own op t.events where
  builds := hbuilds
  issued := fun _ h => h
  careful := careful
  history := rfl
  tokens := fun _ h => h
  owned := owned
  receives _ _ _ h := absurd (hinert _ h) nofun
  deletes _ h := absurd (hinert _ h) nofun
  tears _ h := absurd (hinert _ h) nofun
  starts _ _ _ h := absurd (hinert _ h) nofun
  settles := settles

/-- A turn that notes nothing. -/
theorem Deed.quiet (hev : t.events = []) (hbuilds : s.written t.op = s.written op)
    (careful : ∀ o, op = some o → Careful s (s.take i t) own o) :
    Deed s (s.take i t) own op t.events := by
  refine .inert hbuilds ?_ careful ?_ ?_ <;>
  · rw [hev]
    nofun

variable {x : WriteAnswer} {o : StoreOp}

/-- A worker that ends after a statement. -/
theorem TurnGuard.ends {b : ImageBuildTable}
    (careful : Careful s (s.take i (issue b o x fun _ => {})) none o) :
    TurnGuard s i w (issue b o x fun _ => {}) where
  deed := by
    refine ⟨none, _, .quiet rfl rfl ?_, fun _ h => nomatch h⟩
    intro o' ho
    rw [issue_op ho]
    exact careful
  next := Turn.ends rfl
  spawned _ h := absurd h List.not_mem_nil

variable {n : Worker}

theorem Deed.go : Deed s (s.take i { next := some n }) none none [] :=
  .quiet (t := { next := some n }) rfl rfl fun _ h => nomatch h

/-- A turn that goes on, with no statement and nothing noted. -/
theorem TurnGuard.goes (hn : WorkerGuard (s.take i { next := some n }) n)
    (htoken : n.token? = w.token?) :
    TurnGuard s i w { next := some n } where
  deed := ⟨none, none, .quiet rfl rfl (fun _ h => nomatch h), fun _ h => nomatch h⟩
  next := by
    rintro _ ⟨⟩
    exact ⟨hn, .inr htoken⟩
  spawned _ h := absurd h List.not_mem_nil

theorem TurnGuard.stops : TurnGuard s i w {} where
  deed := ⟨none, none, .quiet rfl rfl (fun _ h => nomatch h), fun _ h => nomatch h⟩
  next := Turn.ends rfl
  spawned _ h := absurd h List.not_mem_nil

variable {b : BuildId}

/-- A source is torn down once its build is over. -/
theorem Deed.tearing (hevents : t.events = [.tornDown b])
    (careful : ∀ o, t.op = some o → Careful s (s.take i t) own o) (hover : Over (s.take i t) b) :
    Deed s (s.take i t) own t.op t.events where
  builds := rfl
  issued := fun _ h => h
  careful := careful
  history := rfl
  tokens := fun _ h => h
  owned := by simp [hevents, Event.token?]
  receives := by simp [hevents]
  deletes := by simp [hevents]
  tears := by
    intro b' hb
    rw [hevents] at hb
    cases List.mem_singleton.mp hb
    exact hover
  starts := by simp [hevents]
  settles := by simp [hevents]

theorem TurnGuard.tears (hover : Over s b)
    (hn : WorkerGuard (s.take i { next := some n, events := [.tornDown b] }) n)
    (htoken : n.token? = none) :
    TurnGuard s i w { next := some n, events := [.tornDown b] } where
  deed := ⟨none, none, .tearing rfl (fun _ h => nomatch h) ⟨hover.issued, hover.off⟩,
    fun _ h => nomatch h⟩
  next := by
    rintro _ ⟨⟩
    exact ⟨hn, .inl htoken⟩
  spawned _ h := absurd h List.not_mem_nil

theorem cleanupTerminalBuild_guard {target : ImageBuildRow} (hover : Over s target.id) :
    TurnGuard s i w (cleanupTerminalBuild target) := by
  unfold cleanupTerminalBuild
  split
  next => exact .stops
  next =>
    split
    next => exact .stops
    next => exact .tears hover trivial rfl

theorem CleanupStage.turn_guard {stage : CleanupStage} (hw : WorkerGuard s (.cleanup stage))
    (h : stage.turn s.builds a = some t) : TurnGuard s i (.cleanup stage) t := by
  unfold CleanupStage.turn at h
  split at h
  next target _ =>
    cases h
    exact cleanupTerminalBuild_guard hw
  next target session =>
    cases h
    exact .goes trivial rfl
  next =>
    cases h
    exact .stops
  next target session x =>
    cases h
    exact .ends trivial
  next => cases h

/-- The terminal actions of the reaper need no care. -/
theorem IsReap.careful {image : Option ArtifactId} (h : IsReap o image) :
    Careful s s' own o := by
  obtain ⟨id, rfl | rfl⟩ := h
  · trivial
  · trivial

/-- An artifact is deleted whose build is dead. -/
theorem TurnGuard.deletes (hg : Guarded s) {image : ArtifactId} (hreceived : Received s image b)
    (hdead : Dead s b)
    (hn : WorkerGuard (s.take i { next := some n, events := [.deleteCalled image] }) n)
    (htoken : n.token? = none) :
    TurnGuard s i w { next := some n, events := [.deleteCalled image] } where
  deed := by
    have hissues : Issues s (s.take i { next := some n, events := [.deleteCalled image] })
        none none := ⟨rfl, fun _ h => h, fun _ h => nomatch h⟩
    refine ⟨none, none, ?_, fun _ h => nomatch h⟩
    exact
      { toIssues := hissues, history := rfl, tokens := fun _ h => h
        owned := by simp [Event.token?]
        receives := by simp
        deletes := by
          intro X hX
          cases List.mem_singleton.mp hX
          refine ⟨hg.notLive hissues hreceived ⟨hdead.issued, hdead.discarded⟩, ?_⟩
          intro b' hb' _ _ _ r hr hid
          exact hdead.over.off r hr (hid.trans (hg.distinct _ _ _ hb' hreceived))
        tears := by simp
        starts := by simp
        settles := by simp }
  next := by
    rintro _ ⟨⟩
    exact ⟨hn, .inl htoken⟩
  spawned _ h := absurd h List.not_mem_nil

theorem ReapStage.turn_guard (hg : Guarded s) {stage : ReapStage}
    (hw : WorkerGuard s (.reap stage)) (h : stage.turn s.builds a = some t) :
    TurnGuard s i (.reap stage) t := by
  unfold ReapStage.turn at h
  split at h
  next row _ =>
    split at h
    next =>
      cases h
      exact .goes ⟨_, reapCommit_isReap row⟩ rfl
    next image himage =>
      cases h
      have hreceived := hw.2 image himage
      refine .deletes hg hreceived hw.1 ?_ rfl
      refine ⟨⟨row.id, ?_, ⟨hw.1.issued, hw.1.discarded⟩⟩, _, reapCommit_isReap row⟩
      obtain ⟨ref, hrec⟩ := hreceived
      exact ⟨ref, List.mem_cons_of_mem _ hrec⟩
  next image commit =>
    cases h
    refine ⟨⟨none, none, ?_, fun _ h => nomatch h⟩, ?_, fun _ h => absurd h List.not_mem_nil⟩
    · exact .inert rfl (by simp [Event.inert]) (fun _ h => nomatch h) (by simp [Event.token?])
        (by simp)
    · rintro _ ⟨⟩
      exact ⟨hw.2, .inl rfl⟩
  next =>
    cases h
    exact .stops
  next commit x =>
    cases h
    obtain ⟨image, hreap⟩ := hw
    exact .ends hreap.careful
  next => cases h

theorem ReconcileStage.turn_guard {stage : ReconcileStage} (h : stage.turn s.builds a = some t) :
    TurnGuard s i (.reconcile stage) t := by
  have hsettled : ∀ row ref, TurnGuard s i (.reconcile stage)
      { next := some (.reconcile (.clearing row ref)), events := [.settled ref] } := by
    intro row ref
    refine ⟨⟨none, none, ?_, fun _ h => nomatch h⟩, ?_, fun _ h => absurd h List.not_mem_nil⟩
    · exact .inert rfl (by simp [Event.inert]) (fun _ h => nomatch h) (by simp [Event.token?])
        (by simp)
    · rintro _ ⟨⟩
      exact ⟨trivial, .inl rfl⟩
  unfold ReconcileStage.turn at h
  split at h
  next row now =>
    split at h
    next =>
      cases h
      exact .stops
    next ref _ =>
      cases h
      exact .goes trivial rfl
  next row ref now outcome =>
    split at h
    next =>
      cases h
      exact .stops
    next =>
      split at h
      next =>
        cases h
        exact .stops
      next =>
        cases h
        exact hsettled row ref
    next =>
      cases h
      exact hsettled row ref
  next =>
    cases h
    exact .stops
  next row ref x =>
    cases h
    exact .ends trivial
  next => cases h

/-- A turn that notes nothing. -/
theorem TurnGuard.quiet (careful : ∀ o, t.op = some o → Careful s (s.take i t) none o)
    (hevents : t.events = []) (hspawned : t.spawned = [])
    (hnext : ∀ n, t.next = some n → WorkerGuard (s.take i t) n ∧
      (n.token? = none ∨ n.token? = w.token?)) :
    TurnGuard s i w t where
  deed := ⟨none, _, .quiet hevents rfl careful, fun _ h => nomatch h⟩
  next := hnext
  spawned n hn := by
    rw [hspawned] at hn
    cases hn

/-- A statement without effect leaves the table. -/
theorem FinalizerState.written_of_not_changes (h : o.write.changes s.builds = false) :
    s.written (some o) = s.builds :=
  Write.run_of_not_changes h

theorem Trigger.cleanupFailedBuild_guard {g : Trigger} (hover : Over s g.build.id)
    (session : Option SessionId) : TurnGuard s i w (g.cleanupFailedBuild session) := by
  cases session with
  | none => exact .stops
  | some id => exact .tears hover hover.issued rfl

/-- After a failing statement that had an effect, its build has failed. -/
theorem failed_of_changes (hadd : o.write.adds s.builds = none)
    (hrem : ∀ r, o.write.removes r = false)
    (hid : ∀ r, o.write.touches s.builds r = true → r.id = b)
    (hset : ∀ r, (o.write.set r).status = .failed) (hc : o.write.changes s.builds = true)
    {x : ImageBuildRow} (hx : x ∈ (o.write.run s.builds).rows) (hxid : x.id = b) :
    x.status = .failed := by
  obtain ⟨r, hr, ht⟩ := (Write.changes_iff hadd hrem).mp hc
  have hrow := Write.row_of_touches ht (hrem _)
  have hrid : (o.write.set r).id = b := (o.write.keeps r).trans (hid r ht)
  rw [row_unique hx (Write.mem_run_of_row hr hrow) (hxid.trans hrid.symm)]
  exact hset r

theorem Trigger.turn_guard {g : Trigger} {stage : TriggerStage} (hw : g.build.id ∈ s.issued)
    (h : g.turn s.builds stage a = some t) : TurnGuard s i (.trigger g stage) t := by
  have hgo : ∀ st : TriggerStage, TurnGuard s i (.trigger g stage)
      { next := some (.trigger g st) } := fun st => .goes hw rfl
  unfold Trigger.turn at h
  split at h
  next =>
    split at h
    next =>
      cases h
      exact .stops
    next =>
      cases h
      exact hgo _
  next =>
    cases h
    exact hgo _
  next =>
    cases h
    exact hgo _
  next x =>
    cases h
    refine .quiet (fun o ho => by rw [issue_op ho]; trivial) ?_ ?_ ?_
    · simp only [issue]
      split <;> rfl
    · simp only [issue]
      split <;> rfl
    · intro n hn
      simp only [issue] at hn
      split at hn <;>
      · cases hn
        exact ⟨hw, .inl rfl⟩
  next session id x =>
    cases h
    refine .quiet (fun o ho => by rw [issue_op ho]; trivial) rfl rfl ?_
    rintro n ⟨⟩
    exact ⟨hw, .inl rfl⟩
  next =>
    cases h
    exact .stops
  next =>
    cases h
    exact hgo _
  next session error x =>
    cases h
    cases x with
    | lost => exact .quiet (fun o ho => by rw [issue_op ho]; trivial) rfl rfl (Turn.ends rfl)
    | refused => exact .quiet (fun _ h => by cases h) rfl rfl (Turn.ends rfl)
    | answered =>
      cases hc : (StoreOp.markBuildFailed g.build.id g.build.provider error).write.changes
        s.builds with
      | false =>
        refine .quiet (fun o ho => by rw [issue_op ho]; trivial) ?_ ?_ ?_
        · simp [issue, hc]
        · simp [issue, hc]
        · intro n hn
          simp only [issue, hc] at hn
          cases hn
          exact ⟨hw, .inl rfl⟩
      | true =>
        simp only [issue, hc]
        cases session with
        | none =>
          refine .quiet ?_ rfl rfl (Turn.ends rfl)
          rintro o ⟨⟩
          trivial
        | some id =>
          refine ⟨⟨none, some (.markBuildFailed g.build.id g.build.provider error), ?_,
            fun _ h => by cases h⟩, ?_, fun _ h => absurd h List.not_mem_nil⟩
          · refine .tearing rfl ?_ ⟨hw, fun x hx hid => ?_⟩
            · rintro o ⟨⟩
              trivial
            · have hfailed := failed_of_changes (b := g.build.id) rfl (fun _ => rfl)
                (fun r ht => (of_decide_eq_true ht).1) (fun _ => rfl) hc hx hid
              show x.status ≠ .building
              rw [hfailed]
              intro h
              cases h
          · rintro _ ⟨⟩
            exact ⟨hw, .inl rfl⟩
  next session _ =>
    split at h
    next =>
      cases h
      exact .stops
    next current hcurrent =>
      split at h
      next =>
        cases h
        exact .stops
      next =>
        split at h
        next hdisc =>
          cases h
          refine cleanupFailedBuild_guard ⟨hw, ?_⟩ session
          intro r hr hid
          rw [row_unique hr (Table.mem_of_get? hcurrent)
            (hid.trans (Table.key_of_get? hcurrent).symm)]
          exact ImageBuildStatus.ne_building_of_discarded hdisc
        next =>
          cases h
          exact .stops
  next =>
    cases h
    exact .stops
  next =>
    cases h
    exact .stops
  next => cases h

/-! ### Turns of a delivery -/

variable {token : LeaseToken} {f : Finalization} {image : ArtifactId} {error : String}

variable {job : ImageBuildFinalizationJob} {now : Millis}

theorem ProcessStage.read_guard (hg : Guarded s) (htoken : token ∈ s.tokens)
    (hw : Unstarted s token) :
    TurnGuard s i (.process token (.reading job)) (read s.builds token job now) := by
  unfold read
  split
  next => exact .stops
  next build hbuild =>
    have hmem := Table.mem_of_get? hbuild
    split
    next => exact .stops
    next =>
      split
      next hoff =>
        refine cleanupTerminalBuild_guard ⟨hg.issued build hmem, ?_⟩
        intro r hr hid
        rwa [row_unique hr hmem hid]
      next =>
        split
        next => exact .stops
        next => exact .goes ⟨htoken, hw⟩ rfl

/-- **A lease is claimed** only from a delivery that is done with the build. -/
theorem ProcessStage.claiming_guard (htoken : token ∈ s.tokens) {expired : Bool}
    (hget : s.workers[i]? = some (.process token (.claiming job now expired)))
    (hok : Orderly s (.work i (.written x))) (hw : Unstarted s token)
    (h : turn s.builds token (.claiming job now expired) (.written x) = some t) :
    TurnGuard s i (.process token (.claiming job now expired)) t := by
  have hev : t.events = [] := by
    cases h
    simp only [issue]
    split <;> rfl
  have hop : ∀ o, t.op = some o → x.applied = true ∧
      o = .claimLease job.buildId job.completionHash token now (now + finalizationLeaseMs) := by
    intro o ho
    cases h
    cases x with
    | refused => cases ho
    | answered => exact ⟨rfl, issue_op ho⟩
    | lost => exact ⟨rfl, issue_op ho⟩
  refine ⟨⟨some token, t.op, .quiet hev rfl ?_, ?_⟩, ?_, ?_⟩
  · intro o ho
    obtain ⟨happlied, rfl⟩ := hop o ho
    refine ⟨rfl, ?_⟩
    intro r hr hid htouches earlier hearlier
    have hclaim : s.claimAt i = some (.claimLease job.buildId job.completionHash token now
        (now + finalizationLeaseMs)) := by
      simp [FinalizerState.claimAt, hget]
    have hpass := hok _ hclaim happlied r hr htouches earlier hearlier
    rwa [hid] at hpass
  · rintro _ ⟨⟩
    rfl
  · cases h
    intro n hn
    simp only [issue] at hn
    split at hn
    next =>
      cases hn
      refine ⟨⟨htoken, ?_⟩, .inr rfl⟩
      intro e he
      refine hw e ?_
      simpa only [FinalizerState.take, hev, List.nil_append] using he
    next => cases hn
  · cases h
    intro n hn
    simp only [issue] at hn
    split at hn <;> cases hn

/-- **A delivery that holds the lease** resumes what is recorded, gives up, or attempts;
an attempt is its build's first or may follow all earlier ones. -/
theorem ProcessStage.reread_guard (hg : Guarded s) (htoken : token ∈ s.tokens) {expired : Bool}
    (hw : Unstarted s token) :
    TurnGuard s i (.process token (.rereading job expired))
      (reread s.builds token job expired) := by
  unfold reread
  split
  next => exact .stops
  next build hbuild =>
    have hmem := Table.mem_of_get? hbuild
    have hissued := hg.issued build hmem
    split
    next => exact .stops
    next hlease =>
      have hlease : build.finalizationLeaseToken = some token := by simpa using hlease
      have hnever : ∀ b p, .started b p token ∉ s.history := fun b p h => hw _ h rfl
      split
      next => exact .stops
      next session _ =>
        split
        next image himage =>
          refine .goes ⟨htoken, rfl, hissued, hg.artifacts build hmem image himage, ?_, trivial⟩ rfl
          intro r hr hid _
          rw [row_unique hr hmem hid]
          exact himage
        next hnone =>
          split
          next =>
            refine .goes ⟨htoken, ⟨hissued, fun b p h => absurd h (hnever b p)⟩, ?_⟩ rfl
            intro r hr hid _
            rw [row_unique hr hmem hid]
            exact hlease
          next =>
            refine ⟨⟨some token, none, ?_, fun _ h => h⟩, ?_, fun _ h => absurd h List.not_mem_nil⟩
            · exact
                { builds := rfl, issued := fun _ h => h, careful := fun _ h => nomatch h
                  history := rfl, tokens := fun _ h => h
                  owned := by
                    intro e he token' he'
                    cases List.mem_singleton.mp he
                    cases he'
                    exact ⟨rfl, htoken⟩
                  receives := by simp
                  deletes := by simp
                  tears := by simp
                  settles := by simp
                  starts := by
                    intro b p token' h
                    cases List.mem_singleton.mp h
                    refine ⟨rfl, rfl, hissued, hw, ?_, ?_⟩
                    · intro r hr hid
                      rw [row_unique hr hmem hid]
                      exact hlease
                    · intro p' other hother
                      by_contra hrep
                      rcases (hg.attempts _ _ _ hother).kept hrep build hmem rfl with
                        hl | himage | ⟨_, hl⟩
                      · rw [hlease] at hl
                        cases hl
                        exact hnever _ _ hother
                      · exact himage hnone
                      · rw [hlease] at hl
                        cases hl }
            · rintro _ ⟨⟩
              refine ⟨⟨htoken, rfl, ⟨hissued, ?_⟩, ⟨_, List.mem_cons_self⟩, ?_, ?_⟩, .inr rfl⟩
              · intro b p h
                rcases List.mem_cons.mp h with h | h
                · cases h
                  rfl
                · exact absurd h (hnever b p)
              · intro h
                rcases List.mem_cons.mp h with h | h
                · cases h
                · exact hw _ h rfl
              · intro r hr hid _
                rw [row_unique hr hmem hid]
                exact hlease

/-- Reserving an operation leaves the attempt as it is. -/
theorem ProcessStage.reserving_guard (htoken : token ∈ s.tokens) {ref : OperationRef}
    {deadlineAt : Millis} (hw : StageGuard s token (.attempting f))
    (h : turn s.builds token (.attempting f) (.reserve ref deadlineAt x) = some t) :
    TurnGuard s i (.process token (.attempting f)) t := by
  obtain ⟨hftoken, hattempt⟩ := hw
  have hev : t.events = [] := by
    cases h
    simp only [issue]
    split <;> rfl
  have hspawned : t.spawned = [] := by
    cases h
    simp only [issue]
    split <;> rfl
  have careful : ∀ o, t.op = some o → Careful s (s.take i t) none o := by
    cases h
    intro o ho
    rw [issue_op ho]
    trivial
  have hd : Deed s (s.take i t) none t.op t.events := .quiet hev rfl careful
  refine .quiet careful hev hspawned fun n hn => ?_
  obtain ⟨f', rfl, hkey, htok⟩ : ∃ f' : Finalization, n = .process token (.attempting f') ∧
      f'.key = f.key ∧ f'.token = f.token := by
    cases h
    simp only [issue] at hn
    split at hn <;>
    · cases hn
      exact ⟨_, rfl, rfl, rfl⟩
  refine ⟨⟨htoken, htok.trans hftoken, ?_⟩, .inr rfl⟩
  rw [hkey]
  exact hattempt.deed hd (fun h => by cases h)

/-- What arrives is the build's own, and nobody has asked for its deletion since. -/
theorem ProcessStage.artifact_guard (htoken : token ∈ s.tokens)
    (hget : s.workers[i]? = some (.process token (.attempting f)))
    (hok : Orderly s (.work i (.artifact image)))
    (hw : StageGuard s token (.attempting f)) :
    TurnGuard s i (.process token (.attempting f))
      { next := some (.process token (.recording f image))
        events := [.received image f.key.buildId f.ref] } := by
  have hd : Deed s (s.take i
      { next := some (.process token (.recording f image))
        events := [.received image f.key.buildId f.ref] }) none none
      [.received image f.key.buildId f.ref] :=
    { builds := rfl, issued := fun _ h => h, careful := fun _ h => by cases h
      history := rfl, tokens := fun _ h => h
      owned := by simp [Event.token?]
      receives := by
        intro X b ref h
        cases List.mem_singleton.mp h
        refine ⟨rfl, hw.2.works.issued, ?_⟩
        rintro b' ⟨ref', hother⟩
        have hsame := hok f (by simp [FinalizerState.attemptAt, hget]) _ hother _ rfl rfl
        exact hsame.symm
      deletes := by simp
      tears := by simp
      starts := by simp
      settles := by simp }
  refine ⟨⟨none, none, hd, fun _ h => by cases h⟩, ?_, fun _ h => absurd h List.not_mem_nil⟩
  rintro _ ⟨⟩
  refine ⟨⟨htoken, hw.1, hw.2.deed hd (fun h => by cases h), ⟨_, List.mem_cons_self⟩, ?_⟩, .inr rfl⟩
  intro r _ _ _ hdoomed
  exact hdoomed.1 rfl

/-- An attempt ends: its outcome is noted, and it still holds its lease. -/
theorem ProcessStage.fail_guard (htoken : token ∈ s.tokens)
    (hw : Attempting s token f.key.buildId) (failure : AttemptFailure) (error : String) :
    TurnGuard s i (.process token (.attempting f)) (fail token f failure error) := by
  have hev : (fail token f failure error).events = [.ended token failure] := by
    cases failure <;> rfl
  have hop : (fail token f failure error).op = none := by
    cases failure <;> rfl
  have hspawned : (fail token f failure error).spawned = [] := by
    cases failure <;> rfl
  have hbuilds : (s.take i (fail token f failure error)).builds = s.builds := by
    simp only [FinalizerState.take, hop, FinalizerState.written]
  have hmem : ∀ e, e ∈ (s.take i (fail token f failure error)).history ↔
      e = .ended token failure ∨ e ∈ s.history := by
    intro e
    simp only [FinalizerState.take, hev, List.singleton_append, List.mem_cons]
  have hworks : WorksOn (s.take i (fail token f failure error)) token f.key.buildId := by
    refine ⟨hw.works.issued, fun b p h => ?_⟩
    rcases (hmem _).mp h with h | h
    · cases h
    · exact hw.works.only b p h
  have hleased : Leased (s.take i (fail token f failure error)) f.key.buildId token := by
    intro r hr
    rw [hbuilds] at hr
    exact hw.leased r hr
  have hattempt : Attempting (s.take i (fail token f failure error)) token f.key.buildId := by
    obtain ⟨p, hp⟩ := hw.started
    refine ⟨hworks, ⟨p, (hmem _).mpr (.inr hp)⟩, fun h => ?_, hleased⟩
    rcases (hmem _).mp h with h | h
    · cases h
    · exact hw.unsettled h
  refine ⟨⟨some token, none, ?_, fun _ h => h⟩, ?_, ?_⟩
  · refine .inert (by rw [hop]) ?_ (fun _ h => by cases h) ?_ ?_
    · simp [hev, Event.inert]
    · simpa [hev, Event.token?] using htoken
    · simp [hev]
  · intro n hn
    cases failure with
    | definitelyNotCreated =>
      cases hn
      exact ⟨⟨htoken, hattempt, .inl List.mem_cons_self⟩, .inr rfl⟩
    | pending =>
      cases hn
      exact ⟨⟨htoken, hattempt, .inr (.inl List.mem_cons_self)⟩, .inr rfl⟩
    | ambiguous =>
      cases hn
      exact ⟨⟨htoken, hworks, hleased⟩, .inr rfl⟩
    | other =>
      cases hn
      exact ⟨⟨htoken, hworks, hleased⟩, .inr rfl⟩
  · intro n hn
    rw [hspawned] at hn
    cases hn

/-- A row that a statement of the delivery shows or has failed settles its attempts. -/
theorem WorksOn.settles (hw : WorksOn s token b)
    (h : At s' b fun r => r.providerImageId ≠ none ∨ r.status = .failed) :
    ∀ b' p, .started b' p token ∈ s.history →
      At s' b' fun r => r.providerImageId ≠ none ∨ r.status = .failed := by
  intro b' p hstart
  rw [hw.only b' p hstart]
  exact h

/-- What a delivery notes of a statement: that its attempt's result is on record. -/
theorem Deed.persisting (htoken : token ∈ s.tokens)
    (hbuilds : s.written t.op = s.written op)
    (hev : ∀ e ∈ t.events, e = .persisted token)
    (careful : ∀ o, op = some o → Careful s (s.take i t) (some token) o)
    (settles : .persisted token ∈ t.events → ∀ b p, .started b p token ∈ s.history →
      Repeatable (s.take i t).history token ∨
        At (s.take i t) b fun r => r.providerImageId ≠ none ∨ r.status = .failed) :
    Deed s (s.take i t) (some token) op t.events := by
  refine .inert hbuilds ?_ careful ?_ ?_
  · intro e he
    rw [hev e he]
    rfl
  · intro e he token' he'
    rw [hev e he] at he'
    cases he'
    exact ⟨rfl, htoken⟩
  · intro token' h b p hstart
    cases hev _ h
    exact settles h b p hstart

theorem WorksOn.persisted (hw : WorksOn s token b) (hev : ∀ e ∈ t.events, e = .persisted token) :
    WorksOn (s.take i t) token b where
  issued := hw.issued
  only b' p h := by
    rcases List.mem_append.mp h with h | h
    · cases hev _ h
    · exact hw.only b' p h

/-- A statement without effect leaves the table, whatever its caller learns. -/
theorem written_of_no_effect {k : Option Bool → Turn} (h : tookEffect s.builds o x = false) :
    s.written (issue s.builds o x k).op = s.builds := by
  cases x with
  | refused => rfl
  | answered => exact FinalizerState.written_of_not_changes h
  | lost => exact FinalizerState.written_of_not_changes h

/-- The table after a statement that had an effect. -/
theorem written_of_effect {k : Option Bool → Turn} (h : tookEffect s.builds o x = true) :
    s.written (issue s.builds o x k).op = o.write.run s.builds ∧
      o.write.changes s.builds = true := by
  cases x with
  | refused => cases h
  | answered => exact ⟨rfl, h⟩
  | lost => exact ⟨rfl, h⟩

theorem mem_noted {c : Bool} {e : Event} (h : e ∈ if c then [Event.persisted token] else []) :
    e = .persisted token ∧ c = true := by
  cases c with
  | false => cases h
  | true => exact ⟨List.mem_singleton.mp h, rfl⟩

/-- A row that one row of the next table determines. -/
theorem At.of_row {P : ImageBuildRow → Prop} {x : ImageBuildRow} (hx : x ∈ s.builds.rows)
    (hid : x.id = b) (h : P x) : At s b P := by
  intro r hr hr'
  rw [row_unique hr hx (hr'.trans hid.symm)]
  exact h

/-- **The lease is released** once the attempt may be repeated. -/
theorem ProcessStage.releasing_guard (htoken : token ∈ s.tokens)
    (hw : StageGuard s token (.releasing f))
    (h : turn s.builds token (.releasing f) (.written x) = some t) :
    TurnGuard s i (.process token (.releasing f)) t := by
  cases h
  refine ⟨⟨some token, _, .persisting htoken rfl (fun e he => (mem_noted he).1) ?_ ?_,
    fun _ h => h⟩, Turn.ends rfl, fun _ h => absurd h List.not_mem_nil⟩
  · intro o ho
    rw [issue_op ho]
    exact ⟨rfl, .inl (hw.2.mono fun _ h => List.mem_append_right _ h)⟩
  · exact fun _ _ _ _ => .inl (hw.2.mono fun _ h => List.mem_append_right _ h)

/-- **An artifact goes onto its row** under the lease, or the delivery looks again. -/
theorem ProcessStage.recording_guard (htoken : token ∈ s.tokens)
    (hw : StageGuard s token (.recording f image))
    (h : turn s.builds token (.recording f image) (.written x) = some t) :
    TurnGuard s i (.process token (.recording f image)) t := by
  obtain ⟨hftoken, hattempt, hreceived, hfresh⟩ := hw
  cases htook : tookEffect s.builds (.recordArtifact f.key token image) x with
  | false =>
    have hbuilds : s.written t.op = s.written none := by
      cases h
      exact written_of_no_effect htook
    obtain ⟨hev, hspawned, error, hnext⟩ : t.events = [] ∧ t.spawned = [] ∧
        ∃ error, t.next = some (.process token (.checkingRecord f image error)) := by
      cases h
      cases x with
      | refused => exact ⟨by simp [issue, htook], rfl, _, rfl⟩
      | lost => exact ⟨by simp [issue, htook], rfl, _, rfl⟩
      | answered =>
        have hc : (StoreOp.recordArtifact f.key token image).write.changes s.builds = false :=
          htook
        refine ⟨by simp [issue, hc, htook], by simp [issue, hc], _, by simp only [issue, hc]; rfl⟩
    have hd : Deed s (s.take i t) none none t.events :=
      .quiet hev hbuilds fun _ h => by cases h
    refine ⟨⟨none, none, hd, fun _ h => by cases h⟩, ?_, ?_⟩
    · intro n hn
      rw [hnext] at hn
      cases hn
      exact ⟨⟨htoken, hftoken, hattempt.works.deed hd (fun h => by cases h), hreceived.deed hd,
        .inl (hattempt.deed hd (fun h => by cases h))⟩, .inr rfl⟩
    · intro n hn
      rw [hspawned] at hn
      cases hn
  | true =>
    have hop : ∀ o, t.op = some o → o = .recordArtifact f.key token image := by
      cases h
      exact fun o ho => issue_op ho
    have hev : ∀ e ∈ t.events, e = .persisted token := by
      cases h
      intro e he
      cases x with
      | refused => cases htook
      | lost => exact (mem_noted he).1
      | answered =>
        simp only [issue] at he
        split at he <;> exact (mem_noted he).1
    obtain ⟨r, hr, hid, himage⟩ : ∃ r ∈ (s.take i t).builds.rows, r.id = f.key.buildId ∧
        r.providerImageId = some image := by
      cases h
      obtain ⟨hwritten, hc⟩ := written_of_effect (k := _) htook
      show ∃ r ∈ (s.written _).rows, _
      rw [hwritten]
      exact recordArtifact_row hc
    have hshown : Exhibits (s.take i t) f.key.buildId image := .of_row hr hid fun _ => himage
    have hd : Deed s (s.take i t) (some token) t.op t.events := by
      refine .persisting htoken rfl hev ?_ fun _ b p hstart => .inr ?_
      · intro o ho
        rw [hop o ho]
        refine ⟨rfl, hreceived, ?_⟩
        intro r hr hid hbuilding hdoomed
        rcases Doomed.of_append hdoomed with h | h
        · cases hev _ h
        · exact hfresh r hr hid hbuilding h
      · exact hattempt.works.settles (.of_row hr hid (.inl (by rw [himage]; intro h; cases h))) b p hstart
    refine ⟨⟨some token, _, hd, fun _ h => h⟩, ?_, ?_⟩
    · have hmark : WorkerGuard (s.take i t) (.process token (.marking (f.markReady image)
          .selecting)) :=
        ⟨htoken, congrArg some hftoken, hattempt.works.issued, hreceived.deed hd, hshown, trivial⟩
      have hcheck : ∀ error, WorkerGuard (s.take i t)
          (.process token (.checkingRecord f image error)) := fun error =>
        ⟨htoken, hftoken, hattempt.works.persisted hev, hreceived.deed hd, .inr hshown⟩
      cases h
      intro n hn
      simp only [issue] at hn
      split at hn
      next =>
        cases hn
        exact ⟨hmark, .inr rfl⟩
      next =>
        cases hn
        exact ⟨hcheck _, .inr rfl⟩
      next =>
        cases hn
        exact ⟨hcheck _, .inr rfl⟩
    · cases h
      intro n hn
      simp only [issue] at hn
      split at hn <;> cases hn

/-- **An artifact is deleted again** only when its row does not show it, and then no row
does; the build, while it is building, is leased to the delivery that deletes. -/
theorem ProcessStage.checkingRecord_guard (hg : Guarded s) (htoken : token ∈ s.tokens)
    (hw : StageGuard s token (.checkingRecord f image error))
    (h : turn s.builds token (.checkingRecord f image error) (.row now) = some t) :
    TurnGuard s i (.process token (.checkingRecord f image error)) t := by
  obtain ⟨hftoken, hworks, hreceived, hheld⟩ := hw
  simp only [turn] at h
  split at h
  next hany =>
    cases h
    obtain ⟨r, hr, himage⟩ := (Option.any_eq_true _ _).mp hany
    have himage : r.providerImageId = some image := of_decide_eq_true himage
    refine .goes ⟨htoken, congrArg some hftoken, hworks.issued, hreceived, ?_, trivial⟩ rfl
    exact .of_row (Table.mem_of_get? hr) (Table.key_of_get? hr) fun _ => himage
  next hany =>
    cases h
    -- the artifact is on no row: a row that shows it is the build's
    have hnowhere : ∀ r ∈ s.builds.rows, r.providerImageId ≠ some image := by
      intro r hr himage
      have hid := hg.distinct image _ _ (hg.artifacts r hr image himage) hreceived
      refine hany ((Option.any_eq_true _ _).mpr ⟨r, ?_, decide_eq_true himage⟩)
      rw [← hid]
      exact Table.mem_rows_iff.mp hr
    have hheld' : Attempting s token f.key.buildId ∨ Over s f.key.buildId := by
      refine hheld.imp id fun hshown => ⟨hworks.issued, ?_⟩
      intro r hr hid hbuilding
      exact hnowhere r hr (hshown r hr hid hbuilding)
    have hdead : NotLive s image := fun r hr himage => absurd himage (hnowhere r hr)
    refine ⟨⟨some token, none, ?_, fun _ h => h⟩, ?_, fun _ h => absurd h List.not_mem_nil⟩
    · exact
        { builds := rfl, issued := fun _ h => h, careful := fun _ h => by cases h
          history := rfl, tokens := fun _ h => h
          owned := by simp [Event.token?]
          receives := by simp
          deletes := by
            intro X hX
            cases List.mem_singleton.mp hX
            refine ⟨hdead, ?_⟩
            intro b hb other hother hleased r hr hid hbuilding
            have hbf := hg.distinct image _ _ hb hreceived
            rcases hheld' with ha | hover
            · have h1 := hleased r hr hid hbuilding
              have h2 := ha.leased r hr (hid.trans hbf) hbuilding
              rw [h1] at h2
              cases h2
              exact hother rfl
            · exact hover.off r hr (hid.trans hbf) hbuilding
          tears := by simp
          starts := by simp
          settles := by simp }
    · rintro _ ⟨⟩
      have hmem : ∀ {e : Event}, e ∈ .deleteCalled image :: s.history →
          e ≠ .deleteCalled image → e ∈ s.history := by
        intro e he hne
        rcases List.mem_cons.mp he with h | h
        · exact absurd h hne
        · exact h
      have hworks' : WorksOn (s.take i
          { next := some (.process token (.compensating f image error))
            events := [.deleteCalled image] }) token f.key.buildId :=
        ⟨hworks.issued, fun b p h => hworks.only b p (hmem h (fun h => by cases h))⟩
      obtain ⟨ref, hrec⟩ := hreceived
      refine ⟨⟨htoken, hworks', ⟨ref, List.mem_cons_of_mem _ hrec⟩, ?_, hdead⟩, .inr rfl⟩
      refine hheld'.imp (fun ha => ?_) fun hover => ⟨hover.issued, hover.off⟩
      obtain ⟨p, hp⟩ := ha.started
      exact ⟨hworks', ⟨p, List.mem_cons_of_mem _ hp⟩, fun h => ha.unsettled (hmem h (fun h => by cases h)),
        ha.leased⟩

theorem ProcessStage.compensating_guard (htoken : token ∈ s.tokens)
    (hw : StageGuard s token (.compensating f image error))
    (h : turn s.builds token (.compensating f image error) a = some t) :
    TurnGuard s i (.process token (.compensating f image error)) t := by
  obtain ⟨hworks, ⟨ref, hrec⟩, _⟩ := hw
  cases a with
  | raised cleanupError =>
    cases h
    exact .goes ⟨htoken, ⟨hworks.issued, hworks.only⟩, ref, hrec⟩ rfl
  | done =>
    cases h
    refine ⟨⟨some token, none, ?_, fun _ h => h⟩, ?_, fun _ h => absurd h List.not_mem_nil⟩
    · exact .inert rfl (by simp [Event.inert]) (fun _ h => nomatch h)
        (by simpa [Event.token?] using htoken) (by simp)
    · rintro _ ⟨⟩
      refine ⟨⟨htoken, ⟨hworks.issued, fun b p h => hworks.only b p ?_⟩,
        ⟨ref, List.mem_append_right _ hrec⟩, ?_⟩, .inr rfl⟩
      · simpa [FinalizerState.take] using h
      · exact .inr (.inr ⟨image, List.mem_append_left _ (by simp)⟩)
  | _ => cases h

theorem ProcessStage.releasingCompensated_guard (htoken : token ∈ s.tokens)
    (hw : StageGuard s token (.releasingCompensated f image error))
    (h : turn s.builds token (.releasingCompensated f image error) (.written x) = some t) :
    TurnGuard s i (.process token (.releasingCompensated f image error)) t := by
  obtain ⟨hworks, ⟨ref, hrec⟩, hrep⟩ := hw
  have hrep' : Repeatable (s.take i t).history token :=
    hrep.mono fun _ h => List.mem_append_right _ h
  have hev : ∀ e ∈ t.events, e = .persisted token := by
    cases h
    intro e he
    cases x with
    | answered => exact (mem_noted he).1
    | lost => exact (mem_noted he).1
    | refused => cases he
  refine ⟨⟨some token, t.op, .persisting htoken rfl hev ?_ fun _ _ _ _ => .inl hrep',
    fun _ h => h⟩, ?_, ?_⟩
  · intro o ho
    have ho : o = .clearLease f.key.buildId token := by
      cases h
      exact issue_op ho
    rw [ho]
    exact ⟨rfl, .inl hrep'⟩
  · have hquarantine : ∀ message, WorkerGuard (s.take i t)
        (.process token (.quarantining f image message)) := fun _ =>
      ⟨htoken, hworks.persisted hev, ref, List.mem_append_right _ hrec⟩
    cases h
    intro n hn
    cases x with
    | answered => cases hn
    | lost =>
      cases hn
      exact ⟨hquarantine _, .inr rfl⟩
    | refused =>
      cases hn
      exact ⟨hquarantine _, .inr rfl⟩
  · cases h
    cases x <;> exact fun _ h => absurd h List.not_mem_nil

theorem ProcessStage.quarantining_guard (htoken : token ∈ s.tokens)
    (hw : StageGuard s token (.quarantining f image error))
    (h : turn s.builds token (.quarantining f image error) (.written x) = some t) :
    TurnGuard s i (.process token (.quarantining f image error)) t := by
  obtain ⟨hworks, hreceived⟩ := hw
  have hev : ∀ e ∈ t.events, e = .persisted token ∧
      tookEffect s.builds (.quarantineArtifact f.key image error) x = true := by
    cases h
    exact fun e he => mem_noted he
  refine ⟨⟨some token, t.op, .persisting htoken rfl (fun e he => (hev e he).1) ?_ ?_,
    fun _ h => h⟩, ?_, ?_⟩
  · intro o ho
    have ho : o = .quarantineArtifact f.key image error := by
      cases h
      exact issue_op ho
    rw [ho]
    exact hreceived
  · intro hpersisted b p hstart
    right
    obtain ⟨hwritten, hc⟩ : s.written t.op =
        (StoreOp.quarantineArtifact f.key image error).write.run s.builds ∧
        (StoreOp.quarantineArtifact f.key image error).write.changes s.builds = true := by
      cases h
      exact written_of_effect (hev _ hpersisted).2
    obtain ⟨r, hr, ht⟩ := (Write.changes_iff rfl fun _ => rfl).mp hc
    simp only [StoreOp.write, quarantineArtifact, decide_eq_true_eq] at ht
    have hnot : r.status ≠ .ready := by
      intro hs
      rw [hs] at ht
      rcases ht.2.2 with h | h <;> cases h
    obtain ⟨y, hy, hid, himage⟩ := @quarantineArtifact_row _ image _ error
      ⟨r, hr, ht.1, ht.2.1, hnot⟩
    refine hworks.settles (.of_row ?_ hid (.inl (by rw [himage]; intro h; cases h))) b p hstart
    show y ∈ (s.written _).rows
    rw [hwritten]
    exact hy
  · cases h
    exact Turn.ends rfl
  · cases h
    exact fun _ h => absurd h List.not_mem_nil

/-- **A build is given up** under its lease: afterwards it is over, or it was before. -/
theorem ProcessStage.failing_guard (htoken : token ∈ s.tokens)
    (hw : StageGuard s token (.failing b error))
    (h : turn s.builds token (.failing b error) (.written x) = some t) :
    TurnGuard s i (.process token (.failing b error)) t := by
  obtain ⟨hworks, hleased⟩ := hw
  have hev : ∀ e ∈ t.events, e = .persisted token ∧
      tookEffect s.builds (.markFailed b token error) x = true := by
    cases h
    intro e he
    simp only [issue] at he
    split at he <;> exact mem_noted he
  have hop : ∀ o, t.op = some o → o = .markFailed b token error := by
    cases h
    exact fun o ho => issue_op ho
  have hfailed : tookEffect s.builds (.markFailed b token error) x = true →
      At (s.take i t) b fun r => r.status = .failed := by
    intro htook
    obtain ⟨hwritten, hc⟩ : s.written t.op =
        (StoreOp.markFailed b token error).write.run s.builds ∧
        (StoreOp.markFailed b token error).write.changes s.builds = true := by
      cases h
      exact written_of_effect htook
    intro y hy hid
    replace hy : y ∈ (s.written t.op).rows := hy
    rw [hwritten] at hy
    exact failed_of_changes rfl (fun _ => rfl) (fun r ht => (of_decide_eq_true ht).1)
      (fun _ => rfl) hc hy hid
  refine ⟨⟨some token, t.op, .persisting htoken rfl (fun e he => (hev e he).1) ?_ ?_,
    fun _ h => h⟩, ?_, ?_⟩
  · intro o ho
    rw [hop o ho]
    trivial
  · intro hpersisted b' p hstart
    right
    exact hworks.settles (fun r hr hid => .inr (hfailed (hev _ hpersisted).2 r hr hid)) b' p hstart
  · intro n hn
    obtain ⟨rfl, hansw⟩ : n = .process token (.readingFailed b) ∧ x = .answered := by
      cases h
      simp only [issue] at hn
      cases x with
      | answered =>
        simp only [Option.some.injEq] at hn
        exact ⟨hn.symm, rfl⟩
      | lost => cases hn
      | refused => cases hn
    refine ⟨⟨htoken, hworks.issued, ?_⟩, .inr rfl⟩
    cases htook : tookEffect s.builds (.markFailed b token error) x with
    | true =>
      intro r hr hid
      rw [hfailed htook r hr hid]
      intro h
      cases h
    | false =>
      have hbuilds : s.written t.op = s.builds := by
        cases h
        exact written_of_no_effect htook
      intro r hr hid hbuilding
      replace hr : r ∈ (s.written t.op).rows := hr
      rw [hbuilds] at hr
      subst hansw
      have hc : (StoreOp.markFailed b token error).write.changes s.builds = false := htook
      have htouch : (StoreOp.markFailed b token error).write.changes s.builds = true :=
        (Write.changes_iff rfl fun _ => rfl).mpr
          ⟨r, hr, decide_eq_true ⟨hid, hbuilding, hleased r hr hid hbuilding⟩⟩
      rw [hc] at htouch
      cases htouch
  · cases h
    intro n hn
    simp only [issue] at hn
    split at hn <;> cases hn

/-- The last read of a delivery that has settled its build. -/
theorem ProcessStage.terminal_guard (hover : Over s b)
    (h : (match s.builds.get? b with
      | none => some {}
      | some build => some (cleanupTerminalBuild build)) = some t) : TurnGuard s i w t := by
  split at h
  next =>
    cases h
    exact .stops
  next build hbuild =>
    cases h
    refine cleanupTerminalBuild_guard ?_
    have hid : build.id = b := Table.key_of_get? hbuild
    rwa [hid]

theorem ProcessStage.readingUnmarked_guard (htoken : token ∈ s.tokens)
    (hw : StageGuard s token (.readingUnmarked b))
    (h : turn s.builds token (.readingUnmarked b) (.row now) = some t) :
    TurnGuard s i (.process token (.readingUnmarked b)) t := by
  simp only [turn] at h
  split at h
  next =>
    cases h
    exact .goes ⟨htoken, hw⟩ rfl
  next current hcurrent =>
    split at h
    next hoff =>
      cases h
      have hid : current.id = b := Table.key_of_get? hcurrent
      refine cleanupTerminalBuild_guard ⟨hid ▸ hw.1, ?_⟩
      exact .of_row (Table.mem_of_get? hcurrent) rfl hoff
    next =>
      cases h
      exact .goes ⟨htoken, hw⟩ rfl

theorem ProcessStage.releasingUnmarked_guard (hw : StageGuard s token (.releasingUnmarked b))
    (h : turn s.builds token (.releasingUnmarked b) (.written x) = some t) :
    TurnGuard s i (.process token (.releasingUnmarked b)) t := by
  cases h
  refine ⟨⟨some token, _, .quiet rfl rfl ?_, fun _ h => h⟩, Turn.ends rfl,
    fun _ h => absurd h List.not_mem_nil⟩
  intro o ho
  rw [issue_op ho]
  exact ⟨rfl, .inr hw.2⟩

/-! ### Marking a build ready -/

/-- The replaced images are of builds that are dead by now. -/
structure Replaced (s s' : FinalizerState) (images : List SupersededImageBuild) : Prop where
  received : ∀ o ∈ images, ∀ image, o.providerImageId = some image →
    Received s image o.imageBuildId
  dead : ∀ o ∈ images, Dead s' o.imageBuildId

variable {images : List SupersededImageBuild}

theorem mem_deleteReplacedImages {X : ArtifactId}
    (h : .deleteCalled X ∈ (deleteReplacedImages images).2) :
    ∃ o ∈ images, o.providerImageId = some X := by
  simp only [deleteReplacedImages, List.mem_map, List.mem_filterMap] at h
  obtain ⟨_, ⟨o, ho, himage⟩, hX⟩ := h
  cases hp : o.providerImageId with
  | none =>
    rw [hp] at himage
    cases himage
  | some Y =>
    rw [hp] at himage
    cases himage
    cases hX
    exact ⟨o, ho, hp⟩

theorem deleteReplacedImages_workers (h : n ∈ (deleteReplacedImages images).1) :
    ∃ o ∈ images, ∃ X,
      o.providerImageId = some X ∧
        n = .reap (.deleting X (.deleteSupersededImage o.imageBuildId (some X))) := by
  simp only [deleteReplacedImages, List.mem_map, List.mem_filterMap] at h
  obtain ⟨_, ⟨o, ho, himage⟩, hn⟩ := h
  cases hp : o.providerImageId with
  | none =>
    rw [hp] at himage
    cases himage
  | some Y =>
    rw [hp] at himage
    cases himage
    exact ⟨o, ho, Y, hp, hn.symm⟩

/-- **Replaced images are deleted** after the statement that superseded them. -/
theorem TurnGuard.replaces (hg : Guarded s)
    (careful : ∀ o, t.op = some o → Careful s (s.take i t) none o)
    (hevents : t.events = (deleteReplacedImages images).2)
    (hspawned : t.spawned = (deleteReplacedImages images).1)
    (hreplaced : Replaced s (s.take i t) images)
    (hnext : ∀ n, t.next = some n → WorkerGuard (s.take i t) n ∧
      (n.token? = none ∨ n.token? = w.token?)) :
    TurnGuard s i w t := by
  have hissues : Issues s (s.take i t) none t.op := ⟨rfl, fun _ h => h, careful⟩
  have honly : ∀ e ∈ t.events, ∃ X, e = .deleteCalled X := by
    intro e he
    rw [hevents] at he
    simp only [deleteReplacedImages, List.mem_map] at he
    obtain ⟨p, _, rfl⟩ := he
    exact ⟨p.2, rfl⟩
  have hnot : ∀ e, (∀ X, e ≠ .deleteCalled X) → e ∉ t.events := by
    intro e hne he
    obtain ⟨X, rfl⟩ := honly e he
    exact hne X rfl
  have hd : Deed s (s.take i t) none t.op t.events :=
    { toIssues := hissues, history := rfl, tokens := fun _ h => h
      owned := by
        intro e he token htoken
        obtain ⟨X, rfl⟩ := honly e he
        cases htoken
      receives := fun _ _ _ h => absurd h (hnot _ fun _ h => by cases h)
      deletes := by
        intro X hX
        rw [hevents] at hX
        obtain ⟨o, ho, himage⟩ := mem_deleteReplacedImages hX
        have hreceived := hreplaced.received o ho X himage
        have hdead := hreplaced.dead o ho
        refine ⟨hg.notLive hissues hreceived hdead, ?_⟩
        intro b hb _ _ _ r hr hid
        exact hdead.over.off r hr (hid.trans (hg.distinct _ _ _ hb hreceived))
      tears := fun _ h => absurd h (hnot _ fun _ h => by cases h)
      starts := fun _ _ _ h => absurd h (hnot _ fun _ h => by cases h)
      settles := fun _ h => absurd h (hnot _ fun _ h => by cases h) }
  refine ⟨⟨none, _, hd, fun _ h => by cases h⟩, hnext, ?_⟩
  intro n hn
  rw [hspawned] at hn
  obtain ⟨o, ho, X, himage, rfl⟩ := deleteReplacedImages_workers hn
  exact ⟨⟨⟨o.imageBuildId, (hreplaced.received o ho X himage).deed hd, hreplaced.dead o ho⟩,
    _, o.imageBuildId, .inr rfl⟩, rfl⟩

variable {call : MarkReady} {stage : MarkReadyStage}

/-- While it is building, the call's build shows an artifact. -/
theorem Exhibits.shows (h : Exhibits s b image) :
    At s b fun r => r.status = .building → r.providerImageId ≠ none := by
  intro r hr hid hbuilding
  rw [h r hr hid hbuilding]
  nofun

theorem ProcessStage.selecting_guard (hg : Guarded s) (htoken : token ∈ s.tokens)
    (hsel : selects stage = true) (hw : StageGuard s token (.marking call stage)) :
    TurnGuard s i (.process token (.marking call stage)) (mark s.builds token call stage) := by
  obtain ⟨hlease, hissued, hreceived, hshown, hstage⟩ := hw
  cases stage with
  | selecting =>
    unfold mark MarkReady.next
    cases call.select s.builds with
    | none => exact .goes ⟨htoken, hissued, hshown.shows⟩ rfl
    | some build => exact .goes ⟨htoken, hlease, hissued, hreceived, hshown, trivial⟩ rfl
  | selectingOlder build =>
    have holder : ∀ o ∈ call.selectOlder build s.builds, Over s o.imageBuildId ∧
        ∀ image, o.providerImageId = some image → Received s image o.imageBuildId := by
      intro o ho
      simp only [MarkReady.selectOlder, List.mem_map, List.mem_filter] at ho
      obtain ⟨r, ⟨hr, hready⟩, rfl⟩ := ho
      have hready : r.status = .ready := by
        simp only [Bool.and_eq_true, decide_eq_true_eq] at hready
        exact hready.1.1.2
      refine ⟨⟨hg.issued r hr, .of_row hr rfl ?_⟩, hg.artifacts r hr⟩
      rw [hready]
      nofun
    unfold mark MarkReady.next
    dsimp only
    cases hold : call.selectOlder build s.builds with
    | nil => exact .goes ⟨htoken, hstage.deed .go⟩ rfl
    | cons o older =>
      rw [hold] at holder
      refine .goes ⟨htoken, hlease, hissued, hreceived, hshown, hstage.deed .go, ?_⟩ rfl
      exact fun o ho => ⟨(holder o ho).1.deed .go, (holder o ho).2⟩
  | _ => cases hsel

/-- The update that marks a build ready or superseded leaves it so. -/
theorem MarkReady.settled_of_changes {stage : MarkReadyStage} {status : ImageBuildStatus}
    (hc : (StoreOp.markReady call stage).write.changes s.builds = true)
    (hadd : (StoreOp.markReady call stage).write.adds s.builds = none)
    (hrem : ∀ r, (StoreOp.markReady call stage).write.removes r = false)
    (hown : ∀ r, (StoreOp.markReady call stage).write.touches s.builds r = true →
      call.owns r = true)
    (hset : ∀ r, ((StoreOp.markReady call stage).write.set r).status = status)
    {x : ImageBuildRow}
    (hx : x ∈ ((StoreOp.markReady call stage).write.run s.builds).rows)
    (hid : x.id = call.buildId) : x.status = status := by
  obtain ⟨r, hr, ht⟩ := (Write.changes_iff hadd hrem).mp hc
  have hrow := Write.row_of_touches ht (hrem _)
  have hrid := ((StoreOp.markReady call stage).write.keeps r).trans
    (MarkReady.owns_id (hown r ht))
  rw [row_unique hx (Write.mem_run_of_row hr hrow) (hid.trans hrid.symm)]
  exact hset r

/-- The batch that supersedes older rows leaves none of them live. -/
theorem MarkReady.supersedeOlder_dead {older : List SupersededImageBuild}
    {o : SupersededImageBuild} (ho : o ∈ older) (hover : Over s o.imageBuildId) {x : ImageBuildRow}
    (hx : x ∈ ((StoreOp.markReady call (.supersedingOlder older)).write.run s.builds).rows)
    (hid : x.id = o.imageBuildId) : x.status.discarded = true := by
  rcases StoreOp.of_mem_run hx with ⟨r, hr, hrow⟩ | ⟨hrole, _⟩
  · have hrid : r.id = o.imageBuildId := (StoreOp.row_build hrow).id.symm.trans hid
    rcases Write.row_eq hrow with ⟨_, rfl⟩ | ⟨hnot, rfl⟩
    · rfl
    · have hbuilding := hover.off x hr hrid
      have hready : x.status ≠ .ready := by
        intro hs
        have ht : (StoreOp.markReady call (.supersedingOlder older)).write.touches s.builds x =
            true := decide_eq_true ⟨List.mem_map.mpr ⟨o, ho, hrid.symm⟩, hs⟩
        rw [hnot] at ht
        cases ht
      cases hs : x.status with
      | building => exact absurd hs hbuilding
      | ready => exact absurd hs hready
      | failed => rfl
      | superseded => rfl
  · cases hrole

/-- **A statement of a marking call** publishes only what its row shows, and has images
deleted only once their builds are dead. -/
theorem ProcessStage.marking_guard (hg : Guarded s) (htoken : token ∈ s.tokens)
    (hsel : selects stage = false) (hw : StageGuard s token (.marking call stage))
    (h : turn s.builds token (.marking call stage) (.written x) = some t) :
    TurnGuard s i (.process token (.marking call stage)) t := by
  simp only [turn, hsel, Bool.false_eq_true, if_false, Option.some.injEq] at h
  obtain ⟨hlease, hissued, hreceived, hshown, hstage⟩ := hw
  have careful : ∀ {s' o}, t.op = some o → Careful s s' none o := by
    intro s' o ho
    rw [← h] at ho
    rw [issue_op ho]
    refine ⟨?_, hreceived, hshown⟩
    rw [hlease]
    intro h
    cases h
  cases x with
  | lost =>
    subst h
    exact .quiet (fun _ => careful) rfl rfl (Turn.ends rfl)
  | refused =>
    subst h
    exact .quiet (fun _ => careful) rfl rfl (Turn.ends rfl)
  | answered =>
    have hop : t.op = some (.markReady call stage) := by
      subst h
      rfl
    have hrows : ∀ {y}, y ∈ (s.take i t).builds.rows →
        y ∈ ((StoreOp.markReady call stage).write.run s.builds).rows := by
      intro y hy
      replace hy : y ∈ (s.written t.op).rows := hy
      rwa [hop] at hy
    obtain ⟨hnext, hev, hspawned⟩ : t.next = (mark s.builds token call stage).next ∧
        t.events = (mark s.builds token call stage).events ∧
        t.spawned = (mark s.builds token call stage).spawned := by
      subst h
      exact ⟨rfl, rfl, rfl⟩
    cases stage with
    | selecting => cases hsel
    | selectingOlder build => cases hsel
    | updating build =>
      cases hc : (call.markReady build).changes s.builds with
      | true =>
        simp only [mark, MarkReady.next, hc, if_true] at hnext hev hspawned
        have hd : Deed s (s.take i t) none t.op t.events := .quiet hev rfl fun _ => careful
        refine .quiet (fun _ => careful) hev hspawned fun n hn => ?_
        cases hnext.symm.trans hn
        refine ⟨⟨htoken, hlease, hissued, hreceived.deed hd, hshown.deed hd hissued, hissued, ?_⟩,
          .inr rfl⟩
        intro y hy hid
        have hc : (StoreOp.markReady call (.updating build)).write.changes s.builds = true := hc
        have hready : y.status = .ready := MarkReady.settled_of_changes hc rfl (fun _ => rfl)
          (fun r ht => (Bool.and_eq_true_iff.mp ht).1) (fun _ => rfl) (hrows hy) hid
        rw [hready]
        intro h
        cases h
      | false =>
        simp only [mark, MarkReady.next, hc, Bool.false_eq_true, if_false] at hnext hev hspawned
        have hd : Deed s (s.take i t) none t.op t.events := .quiet hev rfl fun _ => careful
        refine .quiet (fun _ => careful) hev hspawned fun n hn => ?_
        cases hnext.symm.trans hn
        exact ⟨⟨htoken, hlease, hissued, hreceived.deed hd, hshown.deed hd hissued, trivial⟩,
          .inr rfl⟩
    | supersedingBuild build =>
      cases hc : (call.tryMarkBuildingBuildSuperseded build).changes s.builds with
      | true =>
        simp only [mark, MarkReady.next, hc, if_true, marked] at hnext hev hspawned
        have hdead : Dead (s.take i t) call.buildId := by
          refine ⟨hissued, fun y hy hid => ?_⟩
          have hc : (StoreOp.markReady call (.supersedingBuild build)).write.changes s.builds =
              true := hc
          have hsuperseded : y.status = .superseded :=
            MarkReady.settled_of_changes hc rfl (fun _ => rfl)
              (fun r ht => (Bool.and_eq_true_iff.mp ht).1) (fun _ => rfl) (hrows hy) hid
          show y.status.discarded = true
          rw [hsuperseded]
          rfl
        refine .replaces hg (fun _ => careful) hev hspawned ⟨?_, ?_⟩ fun n hn => ?_
        · intro o ho image himage
          cases List.mem_singleton.mp ho
          cases himage
          exact hreceived
        · intro o ho
          cases List.mem_singleton.mp ho
          exact hdead
        · cases hnext.symm.trans hn
          exact ⟨⟨htoken, hdead.over⟩, .inr rfl⟩
      | false =>
        simp only [mark, MarkReady.next, hc, Bool.false_eq_true, if_false, marked]
          at hnext hev hspawned
        have hd : Deed s (s.take i t) none t.op t.events := .quiet hev rfl fun _ => careful
        refine .quiet (fun _ => careful) hev hspawned fun n hn => ?_
        cases hnext.symm.trans hn
        exact ⟨⟨htoken, hissued, (hshown.deed hd hissued).shows⟩, .inr rfl⟩
    | supersedingOlder older =>
      refine .replaces hg (fun _ => careful) hev hspawned ⟨?_, ?_⟩ fun n hn => ?_
      · exact fun o ho => (hstage.2 o ho).2
      · intro o ho
        refine ⟨(hstage.2 o ho).1.issued, fun y hy hid => ?_⟩
        exact MarkReady.supersedeOlder_dead ho (hstage.2 o ho).1 (hrows hy) hid
      · cases hnext.symm.trans hn
        refine ⟨⟨htoken, hissued, fun y hy hid => ?_⟩, .inr rfl⟩
        rcases StoreOp.of_mem_run (hrows hy) with ⟨r, hr, hrow⟩ | ⟨hrole, _⟩
        · intro hbuilding
          have hstep := StoreOp.row_status hrow
          rw [hbuilding] at hstep
          exact hstage.1.off r hr ((StoreOp.row_build hrow).id.symm.trans hid) hstep.of_building
        · cases hrole

theorem ProcessStage.turn_guard (hg : Guarded s) (htoken : token ∈ s.tokens)
    {stage : ProcessStage} (hget : s.workers[i]? = some (.process token stage))
    (hok : Orderly s (.work i a)) (hw : StageGuard s token stage)
    (h : stage.turn s.builds token a = some t) : TurnGuard s i (.process token stage) t := by
  cases stage with
  | reading job =>
    cases a with
    | row now =>
      cases h
      exact read_guard hg htoken hw
    | _ => cases h
  | claiming job now expired =>
    cases a with
    | written x => exact claiming_guard htoken hget hok hw h
    | _ => cases h
  | rereading job expired =>
    cases a with
    | row now =>
      cases h
      exact reread_guard hg htoken hw
    | _ => cases h
  | attempting f =>
    cases a with
    | reserve ref deadlineAt x => exact reserving_guard htoken hw h
    | artifact image =>
      cases h
      exact artifact_guard htoken hget hok hw
    | failed failure aborted error =>
      cases h
      exact fail_guard htoken hw.2 _ _
    | _ => cases h
  | releasing f =>
    cases a with
    | written x => exact releasing_guard htoken hw h
    | _ => cases h
  | recording f image =>
    cases a with
    | written x => exact recording_guard htoken hw h
    | _ => cases h
  | checkingRecord f image error =>
    cases a with
    | row now => exact checkingRecord_guard hg htoken hw h
    | _ => cases h
  | compensating f image error => exact compensating_guard htoken hw h
  | releasingCompensated f image error =>
    cases a with
    | written x => exact releasingCompensated_guard htoken hw h
    | _ => cases h
  | quarantining f image error =>
    cases a with
    | written x => exact quarantining_guard htoken hw h
    | _ => cases h
  | failing b error =>
    cases a with
    | written x => exact failing_guard htoken hw h
    | _ => cases h
  | readingFailed b =>
    cases a with
    | row now => exact terminal_guard hw h
    | _ => cases h
  | marking call stage =>
    cases a with
    | row now =>
      simp only [turn] at h
      split at h
      next hsel =>
        cases h
        exact selecting_guard hg htoken hsel hw
      next => cases h
    | written x =>
      cases hsel : selects stage with
      | true =>
        simp only [turn, hsel, if_true] at h
        cases h
      | false => exact marking_guard hg htoken hsel hw h
    | _ => cases h
  | readingUnmarked b =>
    cases a with
    | row now => exact readingUnmarked_guard htoken hw h
    | _ => cases h
  | releasingUnmarked b =>
    cases a with
    | written x => exact releasingUnmarked_guard hw h
    | _ => cases h
  | readingTerminal b =>
    cases a with
    | row now => exact terminal_guard hw h
    | _ => cases h

/-- **Every turn of every worker** keeps the guards. -/
theorem Worker.turn_guard (hg : Guarded s) (hget : s.workers[i]? = some w)
    (hok : Orderly s (.work i a)) (h : w.turn s.builds a = some t) : TurnGuard s i w t := by
  have hw := hg.workers w (List.mem_of_getElem? hget)
  cases w with
  | process token stage => exact ProcessStage.turn_guard hg hw.1 hget hok hw.2 h
  | cleanup stage => exact CleanupStage.turn_guard hw h
  | reap stage => exact ReapStage.turn_guard hg hw h
  | reconcile stage => exact ReconcileStage.turn_guard h
  | trigger g stage => exact Trigger.turn_guard hw h

/-! ## Runs -/

/-- A step of a request or a sweep that adds workers: its deed, and what they know. -/
theorem Guarded.join (hg : Guarded s) {ws : List Worker} (hd : Deed s s' none op [])
    (hworkers : s'.workers = s.workers ++ ws) (hws : ∀ n ∈ ws, WorkerGuard s' n)
    (hapart : ∀ v ∈ s.workers, ∀ n ∈ ws, Apart v n) (hsingle : ws.Pairwise Apart) :
    Guarded s' := by
  refine hd.guarded hg ?_ ?_
  · intro n hn
    rw [hworkers] at hn
    rcases List.mem_append.mp hn with hn | hn
    · exact WorkerGuard.deed hg hd hn fun _ _ h => nomatch h
    · exact hws n hn
  · rw [hworkers]
    exact List.pairwise_append.mpr ⟨hg.apart, hsingle, hapart⟩

/-- A deed of nobody that notes nothing. -/
theorem Deed.plain (builds : s'.builds = s.written op) (issued : s.issued ⊆ s'.issued)
    (tokens : s.tokens ⊆ s'.tokens) (history : s'.history = s.history)
    (careful : ∀ o, op = some o → Careful s s' none o) : Deed s s' none op [] where
  builds := builds
  issued := issued
  careful := careful
  history := history
  tokens := tokens
  owned _ h := absurd h List.not_mem_nil
  receives _ _ _ h := absurd h List.not_mem_nil
  deletes _ h := absurd h List.not_mem_nil
  tears _ h := absurd h List.not_mem_nil
  starts _ _ _ h := absurd h List.not_mem_nil
  settles _ h := absurd h List.not_mem_nil

theorem Careful.of_elsewhere (h : o.elsewhere = true) : Careful s s' own o := by
  cases o with
  | registerBuild build now => cases h
  | claimLease id hash token now expiresAt => cases h
  | clearLease id token => cases h
  | recordArtifact k token image => cases h
  | quarantineArtifact k image error => cases h
  | markReady call stage => cases h
  | _ => trivial

/-- A sweep lists a row; its worker is no delivery. -/
theorem Guarded.list (hg : Guarded s) {id : BuildId} {p : ImageBuildRow → Bool}
    {n : ImageBuildRow → Worker}
    (hn : ∀ r ∈ s.builds.rows, p r = true → WorkerGuard s (n r))
    (htoken : ∀ r, (n r).token? = none) (h : s.list id p n = some s') :
    (∃ own op events, Deed s s' own op events) ∧ Guarded s' := by
  simp only [FinalizerState.list, Option.bind_eq_bind, Option.bind_eq_some_iff,
    Option.some.injEq] at h
  obtain ⟨r, hr, rfl⟩ := h
  obtain ⟨hget, hp⟩ := Option.filter_eq_some_iff.mp hr
  have hd : Deed s { s with workers := s.workers ++ [n r] } none none [] :=
    .plain rfl (fun _ h => h) (fun _ h => h) rfl fun _ h => by cases h
  refine ⟨⟨none, none, [], hd⟩, hg.join hd rfl ?_ ?_ (List.pairwise_singleton _ _)⟩
  · intro m hm
    cases List.mem_singleton.mp hm
    exact WorkerGuard.deed_of_none hd (htoken r) (hn r (Table.mem_of_get? hget) hp)
  · intro v _ m hm
    cases List.mem_singleton.mp hm
    exact Apart.of_none (htoken r)

/-- **One step is a deed that keeps the guards.** -/
theorem Guarded.step (hg : Guarded s) {a : FinalizerStep} (hok : Orderly s a)
    (h : s.step a = some s') : (∃ own op events, Deed s s' own op events) ∧ Guarded s' := by
  cases a with
  | trigger g x =>
    simp only [FinalizerState.step] at h
    split at h
    next => cases h
    next hfresh =>
      cases h
      have hd : Deed s { s with
          builds := s.written (g.register s.builds x).op
          issued := g.build.id :: s.issued
          workers := s.workers ++ (g.register s.builds x).next.toList } none
          (g.register s.builds x).op [] := by
        refine .plain rfl (fun _ h => List.mem_cons_of_mem _ h) (fun _ h => h) rfl fun o ho => ?_
        rw [issue_op ho]
        exact ⟨hfresh, List.mem_cons_self⟩
      have hnext : ∀ n ∈ (g.register s.builds x).next.toList, ∃ stage, n = .trigger g stage := by
        intro n hn
        simp only [Trigger.register, issue, Option.mem_toList] at hn
        split at hn <;>
        · cases hn
          exact ⟨_, rfl⟩
      refine ⟨⟨none, _, [], hd⟩, hg.join hd rfl ?_ ?_ ?_⟩
      · intro n hn
        obtain ⟨stage, rfl⟩ := hnext n hn
        exact List.mem_cons_self
      · intro v _ n hn
        obtain ⟨stage, rfl⟩ := hnext n hn
        exact Apart.of_none rfl
      · cases (g.register s.builds x).next with
        | none => exact .nil
        | some n => exact List.pairwise_singleton _ _
  | deliver job token =>
    simp only [FinalizerState.step] at h
    split at h
    next => cases h
    next hfresh =>
      cases h
      have hd : Deed s { s with
          tokens := token :: s.tokens
          workers := s.workers ++ [.process token (.reading job)] } none none [] :=
        .plain rfl (fun _ h => h) (fun _ h => List.mem_cons_of_mem _ h) rfl fun _ h => by cases h
      refine ⟨⟨none, none, [], hd⟩, hg.join hd rfl ?_ ?_ (List.pairwise_singleton _ _)⟩
      · intro n hn
        cases List.mem_singleton.mp hn
        exact ⟨List.mem_cons_self, fun e he htoken => hfresh (hg.tokens e he token htoken)⟩
      · intro v hv n hn token' hv' hn'
        cases List.mem_singleton.mp hn
        cases hn'
        have hguard := hg.workers v hv
        cases v with
        | process t stage =>
          cases hv'
          exact hfresh hguard.1
        | _ => cases hv'
  | listReapable id =>
    refine hg.list (n := fun r => .reap (.queued r)) ?_ (fun _ => rfl) h
    intro r hr hp
    refine ⟨⟨hg.issued r hr, .of_row hr rfl ?_⟩, hg.artifacts r hr⟩
    simp only [ImageBuildRow.reapable, decide_eq_true_eq] at hp
    rcases hp.1 with ⟨hs, _⟩ | hs <;> rw [hs] <;> rfl
  | listSessionCleanup id =>
    refine hg.list (n := fun r => .cleanup (.queued r)) ?_ (fun _ => rfl) h
    intro r hr hp
    simp only [ImageBuildRow.awaitsTeardown, decide_eq_true_eq] at hp
    exact ⟨hg.issued r hr, .of_row hr rfl hp.1⟩
  | listUnresolvedOperations id =>
    exact hg.list (n := fun r => .reconcile (.queued r)) (fun _ _ _ => trivial) (fun _ => rfl) h
  | write o =>
    simp only [FinalizerState.step] at h
    split at h
    next helsewhere =>
      cases h
      have hd : Deed s { s with builds := o.write.run s.builds } none (some o) [] := by
        refine .plain rfl (fun _ h => h) (fun _ h => h) rfl fun o' ho => ?_
        cases ho
        exact Careful.of_elsewhere helsewhere
      exact ⟨⟨none, some o, [], hd⟩, hg.join hd (List.append_nil _).symm
        (fun _ h => absurd h List.not_mem_nil) (fun _ _ _ h => absurd h List.not_mem_nil) .nil⟩
    next => cases h
  | work i a =>
    simp only [FinalizerState.step, Option.bind_eq_bind, Option.bind_eq_some_iff,
      Option.some.injEq] at h
    obtain ⟨w, hget, t, ht, rfl⟩ := h
    have hturn := Worker.turn_guard hg hget hok ht
    obtain ⟨own, op, hd, _⟩ := hturn.deed
    exact ⟨⟨own, op, _, hd⟩, hg.take hget hturn⟩

theorem Guarded.of_reachable (h : finalization.Reachable Orderly {} s) : Guarded s :=
  h.inv Guarded .init fun _ _ _ hg hok hstep => (hg.step hok hstep).2

/-- A build that is dead stays dead. -/
theorem Dead.stays (hg : Guarded s) (hdead : Dead s b) (h : finalization.Reachable Orderly s s') :
    Dead s' b := by
  refine (h.inv (fun t => Guarded t ∧ Dead t b) ⟨hg, hdead⟩ ?_).2
  intro t a t' ⟨hgt, hdt⟩ hok hstep
  obtain ⟨⟨own, op, events, hd⟩, hg'⟩ := hgt.step hok hstep
  exact ⟨hg', hdt.deed hd⟩

/-- A deletion of the artifact is under way. -/
def Worker.deletes (image : ArtifactId) : Worker → Prop
  | .process _ (.compensating _ other _) => other = image
  | .reap (.deleting other _) => other = image
  | _ => False

theorem Guarded.not_deleting (hg : Guarded s) {r : ImageBuildRow} (hr : r ∈ s.builds.rows)
    {image : ArtifactId} (himage : r.providerImageId = some image)
    (hlive : r.status.discarded = false) (hw : w ∈ s.workers) : ¬w.deletes image := by
  intro hdel
  have hguard := hg.workers w hw
  have hdead : r.status.discarded = true := by
    cases w with
    | process token stage =>
      cases stage with
      | compensating f other error =>
        cases hdel
        exact hguard.2.2.2.2 r hr himage
      | _ => cases hdel
    | reap stage =>
      cases stage with
      | deleting other commit =>
        cases hdel
        obtain ⟨⟨b, hreceived, hdead⟩, _⟩ := hguard
        exact hdead.discarded r hr
          (hg.distinct _ _ _ (hg.artifacts r hr image himage) hreceived)
      | _ => cases hdel
    | _ => cases hdel
  rw [hlive] at hdead
  cases hdead

/-- The attempt's artifact is recorded and published, and the session is torn down. -/
def published : List FinalizerStep :=
  [.work 0 (.artifact 50), .work 0 (.written .answered), .work 0 (.row 32),
    .work 0 (.written .answered), .work 0 (.row 33), .work 0 (.row 34)]

/-- The artifact is not recorded and deleted again; the next delivery makes an attempt. -/
def compensatedAndRetried : List FinalizerStep :=
  [.work 0 (.artifact 50), .work 0 (.written .refused), .work 0 (.row 32), .work 0 .done,
    .work 0 (.written .answered), .deliver ⟨1, 9⟩ 101, .work 0 (.row 40),
    .work 0 (.written .answered), .work 0 (.row 41)]

/-- Delivery 99 dies under the lease, 100 finds it expired and is about to give the build
up when its own lease expires and 101 takes it; then 100 goes on. -/
def overtakenGivingUp : List FinalizerStep :=
  let build : ImageBuildRegistration :=
    ⟨1, ⟨.environment, "env"⟩, .modal, "fp", some 5, some 100⟩
  [.trigger ⟨build, false, 10⟩ .answered, .work 0 .done, .work 0 (.bind 7 .answered),
    .work 0 .done, .write (.acceptSuccessfulCompletion ⟨1, .modal, 7, 5, 9, 20⟩ [] "v1" 3),
    .deliver ⟨1, 9⟩ 99, .work 0 (.row 30), .work 0 (.written .answered),
    .deliver ⟨1, 9⟩ 100, .work 1 (.row 400000), .work 1 (.written .answered),
    .work 1 (.row 400001), .deliver ⟨1, 9⟩ 101, .work 2 (.row 900000),
    .work 2 (.written .answered), .work 1 (.written .answered), .work 1 (.row 900001)]

end BackgroundAgents.ImageBuilds

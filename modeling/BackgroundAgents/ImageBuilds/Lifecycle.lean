import BackgroundAgents.ImageBuilds.StoreLaws
import BackgroundAgents.Lib.Transition
import BackgroundAgents.Lib.Workers

/-!
# The life of an image-build row

The store as its callers can drive it: any statement with any arguments at any
moment, any number of `tryMarkImageBuildReady` calls between two of their
statements, and any number of callbacks between the accepting `UPDATE` and the
replay lookup that follows one without effect (`LifecycleStep`). A call that never
takes its next step is one whose request died. Build ids are generated, so none is
registered twice; that is the one promise of the environment, and `register`
checks it.

The delicate part is the window between the update that marks a build ready and the
batch that supersedes the older images. `LifecycleInv.replacing` names who is
responsible for it: as long as two rows of a scope are ready, the call that marked
the newer one is still in progress, and it has either not selected the older images
yet or selected this one. Nothing else needs to be said about the window, because
no older build can become ready inside it (`StoreOp.row_ready`).

`accepted`, `answered` and `marked` are records of what happened; no step reads them.
-/

namespace BackgroundAgents.ImageBuilds

open BackgroundAgents.Transition

/-! ## The store under all its callers -/

structure LifecycleState where
  builds : ImageBuildTable := Table.empty
  issued : List BuildId := []
  marking : List (MarkReady × MarkReadyStage) := []
  checking : List CompletionCallback := []
  accepted : List CompletionCallback := []
  answered : List (CompletionCallback × ImageBuildCompletionAcceptance) := []
  marked : List BuildId := []
  deriving DecidableEq

inductive LifecycleStep where
  | write (op : StoreOp)
  | tryMarkImageBuildReady (call : MarkReady)
  | proceed (call : Nat)
  | readReplayAcceptance (call : Nat)
  deriving DecidableEq

namespace LifecycleState

/-- A statement issued on its own. -/
def write (s : LifecycleState) (op : StoreOp) : Option LifecycleState :=
  let builds := op.write.run s.builds
  match op.role with
  | .plain => some { s with builds }
  | .registers id => if id ∈ s.issued then none else some { s with builds, issued := id :: s.issued }
  | .accepts c =>
    if op.write.changes s.builds then
      some { s with builds, accepted := c :: s.accepted, answered := (c, .accepted) :: s.answered }
    else some { s with builds, checking := c :: s.checking }
  | .marks => none

/-- The next statement of a `tryMarkImageBuildReady` call. -/
def proceed (s : LifecycleState) (i : Nat) (call : MarkReady) (stage : MarkReadyStage) :
    LifecycleState :=
  let stays := (call.next s.builds stage).getLeft?
  { s with
    builds := (call.write stage).run s.builds
    marking := advance s.marking i (stays.map (call, ·))
    marked :=
      if stays.any (· matches .selectingOlder _) then call.buildId :: s.marked else s.marked }

def step (s : LifecycleState) : LifecycleStep → Option LifecycleState
  | .write op => s.write op
  | .tryMarkImageBuildReady call => some { s with marking := s.marking ++ [(call, .selecting)] }
  | .proceed i => do
    let (call, stage) ← s.marking[i]?
    some (s.proceed i call stage)
  | .readReplayAcceptance i => do
    let c ← s.checking[i]?
    some { s with
      checking := advance s.checking i none
      answered := (c, ImageBuilds.readReplayAcceptance s.builds c) :: s.answered }

end LifecycleState

def lifecycle : System LifecycleState LifecycleStep where
  step := LifecycleState.step

/-- What a step writes to the table, if anything. -/
def LifecycleState.op (s : LifecycleState) : LifecycleStep → Option StoreOp
  | .write op => some op
  | .proceed i => s.marking[i]?.map fun e => .markReady e.1 e.2
  | _ => none

variable {s s' : LifecycleState} {a : LifecycleStep} {op : StoreOp}

/-- A step leaves the table as its statement does. -/
theorem LifecycleState.step_builds (h : lifecycle.step s a = some s') :
    s'.builds = s.builds ∨ ∃ op, s.op a = some op ∧ s'.builds = op.write.run s.builds := by
  cases a with
  | write op =>
    simp only [lifecycle, step, write] at h
    split at h
    next =>
      cases h
      exact .inr ⟨op, rfl, rfl⟩
    next =>
      split at h
      next => cases h
      next =>
        cases h
        exact .inr ⟨op, rfl, rfl⟩
    next =>
      split at h
      next =>
        cases h
        exact .inr ⟨op, rfl, rfl⟩
      next =>
        cases h
        exact .inr ⟨op, rfl, rfl⟩
    next => cases h
  | tryMarkImageBuildReady call =>
    cases h
    exact .inl rfl
  | proceed i =>
    simp only [lifecycle, step, Option.bind_eq_bind, Option.bind_eq_some_iff] at h
    obtain ⟨⟨call, stage⟩, hi, h⟩ := h
    cases h
    exact .inr ⟨.markReady call stage, by simp [op, hi], rfl⟩
  | readReplayAcceptance i =>
    simp only [lifecycle, step, Option.bind_eq_bind, Option.bind_eq_some_iff] at h
    obtain ⟨c, _, h⟩ := h
    cases h
    exact .inl rfl

/-! ## The invariant -/

/-- One build at a time for each scope and provider. -/
def OneBuilding (t : ImageBuildTable) : Prop :=
  ∀ r ∈ t.rows, ∀ r' ∈ t.rows, r.ofScope r'.scope r'.provider = true →
    r.status = .building → r'.status = .building → r = r'

/-- The build a stage works on, as its call selected it. -/
def MarkReadyStage.selected : MarkReadyStage → Option SelectedBuild
  | .updating build | .supersedingBuild build | .selectingOlder build => some build
  | _ => none

/-- A call at this stage is about to supersede the ready row `id`. -/
def MarkReadyStage.replaces (id : BuildId) : MarkReadyStage → Prop
  | .selectingOlder _ => True
  | .supersedingOlder older => id ∈ older.map SupersededImageBuild.imageBuildId
  | _ => False

/-- What a call selected is still true of its row. -/
def SelectionHolds (t : ImageBuildTable) (call : MarkReady) (stage : MarkReadyStage) : Prop :=
  ∀ build, stage.selected = some build → ∀ r ∈ t.rows, r.id = call.buildId →
    r.ofScope build.scope call.provider = true ∧ r.createdAt = build.createdAt

/-- `x` and `y` are ready in one scope, and `x` is the older one. -/
structure ReadyPair (t : ImageBuildTable) (x y : ImageBuildRow) : Prop where
  older : x ∈ t.rows
  newer : y ∈ t.rows
  olderReady : x.status = .ready
  newerReady : y.status = .ready
  scope : x.ofScope y.scope y.provider = true
  order : x.olderThan y.createdAt y.id = true

structure LifecycleInv (s : LifecycleState) : Prop where
  /-- Rows are registered builds. -/
  issued : ∀ r ∈ s.builds.rows, r.id ∈ s.issued
  oneBuilding : OneBuilding s.builds
  /-- A call past its `SELECT` is about a registered build. -/
  calls : ∀ e ∈ s.marking, e.2 ≠ .selecting → e.1.buildId ∈ s.issued
  selected : ∀ e ∈ s.marking, SelectionHolds s.builds e.1 e.2
  /-- Of two ready rows the call that marked the newer one is about to supersede the older. -/
  replacing : ∀ x y, ReadyPair s.builds x y →
    ∃ e ∈ s.marking, e.1.buildId = y.id ∧ e.2.replaces x.id
  acceptedOnce : (s.accepted.map CompletionCallback.buildId).Nodup
  acceptedIssued : ∀ c ∈ s.accepted, c.buildId ∈ s.issued
  /-- A row shows the completion that was accepted for it. -/
  acceptedRows : ∀ c ∈ s.accepted, ∀ r ∈ s.builds.rows, r.id = c.buildId →
    r.provider = c.provider ∧ r.callbackTokenHash = some c.tokenHash ∧
    r.completionHash = some c.completionHash ∧ r.callbackTokenUsedAt ≠ none
  used : ∀ r ∈ s.builds.rows, r.callbackTokenUsedAt ≠ none → ∃ c ∈ s.accepted, c.buildId = r.id
  markedIssued : ∀ id ∈ s.marked, id ∈ s.issued
  markedRows : ∀ id ∈ s.marked, ∀ r ∈ s.builds.rows, r.id = id → r.status ≠ .building
  ready : ∀ r ∈ s.builds.rows, r.status = .ready → r.id ∈ s.marked

theorem LifecycleInv.init : LifecycleInv {} where
  issued _ h := absurd h List.not_mem_nil
  oneBuilding _ h := absurd h List.not_mem_nil
  calls _ h := absurd h List.not_mem_nil
  selected _ h := absurd h List.not_mem_nil
  replacing _ _ h := absurd h.older List.not_mem_nil
  acceptedOnce := List.nodup_nil
  acceptedIssued _ h := absurd h List.not_mem_nil
  acceptedRows _ h := absurd h List.not_mem_nil
  used _ h := absurd h List.not_mem_nil
  markedIssued _ h := absurd h List.not_mem_nil
  markedRows _ h := absurd h List.not_mem_nil
  ready _ h := absurd h List.not_mem_nil

/-! ### Rows -/

variable {t : ImageBuildTable}

/-- **One build at a time** survives every statement. -/
theorem OneBuilding.run (h : OneBuilding t) (op : StoreOp) :
    OneBuilding (op.write.run t) := by
  intro x' hx' y' hy' hscope hxb hyb
  have hback : ∀ {r r' : ImageBuildRow}, op.write.row t r = some r' → r'.status = .building →
      r.status = .building := by
    intro r r' hr hb
    have hstep := op.row_status hr
    rw [hb] at hstep
    exact hstep.of_building
  rcases StoreOp.of_mem_run hx' with ⟨x, hx, hxrow⟩ | ⟨hrole, _, _, hnone⟩
  · rcases StoreOp.of_mem_run hy' with ⟨y, hy, hyrow⟩ | ⟨_, _, _, hnone⟩
    · have hxy : x = y := by
        have hbx := op.row_build hxrow
        have hby := op.row_build hyrow
        rw [hbx.ofScope, hby.scope, hby.provider] at hscope
        exact h x hx y hy hscope (hback hxrow hxb) (hback hyrow hyb)
      rw [hxy, hyrow] at hxrow
      cases hxrow
      rfl
    · rw [(op.row_build hxrow).ofScope] at hscope
      exact absurd (hback hxrow hxb) (hnone x hx hscope)
  · rcases StoreOp.of_mem_run hy' with ⟨y, hy, hyrow⟩ | ⟨hrole', _⟩
    · have hscope' : y.ofScope x'.scope x'.provider = true := by
        have hby := op.row_build hyrow
        simp only [ImageBuildRow.ofScope, decide_eq_true_eq] at hscope ⊢
        rw [← hby.scope, ← hby.provider]
        exact ⟨hscope.1.symm, hscope.2.symm⟩
      exact absurd (hback hyrow hyb) (hnone y hy hscope')
    · rw [hrole] at hrole'
      have hid : x'.id = y'.id := StoreRole.registers.inj hrole'
      have hget := Table.mem_rows_iff.mp hx'
      rw [hid, Table.mem_rows_iff.mp hy'] at hget
      cases hget
      rfl

variable {call : MarkReady}

theorem SelectionHolds.run {stage : MarkReadyStage} (h : SelectionHolds t call stage) (op : StoreOp)
    (hnew : op.role ≠ .registers call.buildId) : SelectionHolds (op.write.run t) call stage := by
  intro build hbuild x hx hid
  rcases StoreOp.of_mem_run hx with ⟨r, hr, hrow⟩ | ⟨hrole, _⟩
  · have hb := op.row_build hrow
    rw [hb.ofScope, hb.createdAt]
    exact h build hbuild r hr (hb.id.symm.trans hid)
  · exact absurd (hid ▸ hrole) hnew

/-! ### Ready pairs -/


variable {build : SelectedBuild}

/-- A ready row that is newer than what a call selected is one its `NOT EXISTS` sees. -/
theorem MarkReady.newerReady_of_pair {x y : ImageBuildRow} (hx : x.id = call.buildId)
    (hsel : x.ofScope build.scope call.provider = true ∧ x.createdAt = build.createdAt)
    (hy : y ∈ t.rows) (hready : y.status = .ready) (hscope : x.ofScope y.scope y.provider = true)
    (horder : x.olderThan y.createdAt y.id = true) : call.newerReady build t = true := by
  simp only [newerReady, List.any_eq_true, Bool.and_eq_true, decide_eq_true_eq]
  refine ⟨y, hy, ⟨?_, hready⟩, ?_⟩
  · simp only [ImageBuildRow.ofScope, decide_eq_true_eq] at hscope hsel ⊢
    rw [← hscope.1, ← hscope.2]
    exact hsel.1
  · simp only [ImageBuildRow.olderThan, ImageBuildRow.newerThan, decide_eq_true_eq] at horder ⊢
    rw [← hsel.2, ← hx]
    exact horder.imp id fun h => ⟨h.1.symm, h.2⟩

/-- **Where two ready rows come from.** They were both ready, or the newer one has just
been marked by the call that owned it; the older one never becomes ready second. -/
theorem ReadyPair.back {x' y' : ImageBuildRow}
    (hsel : ∀ call stage, op = .markReady call stage → SelectionHolds t call stage)
    (h : ReadyPair (op.write.run t) x' y') :
    (∃ x y, ReadyPair t x y ∧ op.write.row t x = some x' ∧ op.write.row t y = some y') ∨
    ∃ call build, op = .markReady call (.updating build) ∧
      ∃ y ∈ t.rows, call.owns y = true ∧ call.newerReady build t = false ∧ y'.id = y.id := by
  obtain ⟨hx', hy', hxr, hyr, hscope, horder⟩ := h
  rcases StoreOp.of_mem_run hx' with ⟨x, hx, hxrow⟩ | ⟨_, hb, _⟩
  case inr =>
    rw [hb] at hxr
    cases hxr
  rcases StoreOp.of_mem_run hy' with ⟨y, hy, hyrow⟩ | ⟨_, hb, _⟩
  case inr =>
    rw [hb] at hyr
    cases hyr
  have hbx := op.row_build hxrow
  have hby := op.row_build hyrow
  have hscope : x.ofScope y.scope y.provider = true := by
    rwa [hbx.ofScope, hby.scope, hby.provider] at hscope
  have horder : x.olderThan y.createdAt y.id = true := by
    simpa only [ImageBuildRow.olderThan, hbx.createdAt, hbx.id, hby.createdAt, hby.id] using horder
  rcases op.row_ready hxrow hxr with hxr | ⟨call, build, rfl, howns, hno⟩
  · rcases op.row_ready hyrow hyr with hyr | ⟨call, build, rfl, howns, hno⟩
    · exact .inl ⟨x, y, ⟨hx, hy, hxr, hyr, hscope, horder⟩, hxrow, hyrow⟩
    · exact .inr ⟨call, build, rfl, y, hy, howns, hno, hby.id⟩
  · have hxid := MarkReady.owns_id howns
    rcases StoreOp.row_ready hyrow hyr with hyr | ⟨call', build', heq, howns', _⟩
    · have hnewer := MarkReady.newerReady_of_pair hxid
        (hsel call _ rfl build rfl x hx hxid) hy hyr hscope horder
      rw [hno] at hnewer
      cases hnewer
    · cases heq
      have hyid := MarkReady.owns_id howns'
      simp only [ImageBuildRow.olderThan, hxid, hyid, decide_eq_true_eq] at horder
      have hxy : x = y := row_unique hx hy (hxid.trans hyid.symm)
      subst hxy
      exact horder.elim (absurd · (Nat.lt_irrefl _)) fun h => absurd h.2 (Nat.lt_irrefl _)

/-! ### Statements issued on their own -/

/-- What a statement of its own keeps: everything but the completion records. -/
theorem LifecycleInv.write_table (hi : LifecycleInv s) {issued' : List BuildId}
    (hsub : s.issued ⊆ issued') (hrole : op.role ≠ .marks)
    (hnew : ∀ id, op.role = .registers id → id ∈ issued' ∧ id ∉ s.issued)
    {accepted' : List CompletionCallback} (honce : (accepted'.map CompletionCallback.buildId).Nodup)
    (hissued : ∀ c ∈ accepted', c.buildId ∈ issued')
    (hrows : ∀ c ∈ accepted', ∀ r ∈ (op.write.run s.builds).rows, r.id = c.buildId →
      r.provider = c.provider ∧ r.callbackTokenHash = some c.tokenHash ∧
      r.completionHash = some c.completionHash ∧ r.callbackTokenUsedAt ≠ none)
    (hused : ∀ r ∈ (op.write.run s.builds).rows, r.callbackTokenUsedAt ≠ none →
      ∃ c ∈ accepted', c.buildId = r.id)
    (checking' : List CompletionCallback)
    (answered' : List (CompletionCallback × ImageBuildCompletionAcceptance)) :
    LifecycleInv
      { s with
        builds := op.write.run s.builds, issued := issued', accepted := accepted'
        checking := checking', answered := answered' } := by
  have hmark : ∀ call stage, op ≠ .markReady call stage := by
    rintro call stage rfl
    exact hrole rfl
  have hfresh : ∀ id ∈ s.issued, op.role ≠ .registers id := fun id hid h => (hnew id h).2 hid
  constructor
  · intro x hx
    rcases StoreOp.of_mem_run hx with ⟨r, hr, hrow⟩ | ⟨hreg, _⟩
    · rw [(op.row_build hrow).id]
      exact hsub (hi.issued r hr)
    · exact (hnew _ hreg).1
  · exact hi.oneBuilding.run op
  · intro e he hstage
    exact hsub (hi.calls e he hstage)
  · intro e he
    by_cases hstage : e.2 = .selecting
    · rw [hstage]
      intro build hbuild
      cases hbuild
    · exact (hi.selected e he).run op (hfresh _ (hi.calls e he hstage))
  · intro x' y' hpair
    rcases hpair.back fun call stage h => absurd h (hmark call stage) with
      ⟨x, y, hxy, hx, hy⟩ | ⟨call, build, h, _⟩
    · rw [(op.row_build hx).id, (op.row_build hy).id]
      exact hi.replacing x y hxy
    · exact absurd h (hmark call _)
  · exact honce
  · exact hissued
  · exact hrows
  · exact hused
  · intro id hid
    exact hsub (hi.markedIssued id hid)
  · intro id hid x hx hxid
    rcases StoreOp.of_mem_run hx with ⟨r, hr, hrow⟩ | ⟨hreg, _⟩
    · intro hb
      have hstep := op.row_status hrow
      rw [hb] at hstep
      exact hi.markedRows id hid r hr ((op.row_build hrow).id.symm.trans hxid) hstep.of_building
    · exact absurd (hxid ▸ hreg) (hfresh id (hi.markedIssued id hid))
  · intro x hx hready
    rcases StoreOp.of_mem_run hx with ⟨r, hr, hrow⟩ | ⟨_, hb, _⟩
    · rcases op.row_ready hrow hready with hr' | ⟨call, build, h, _⟩
      · rw [(op.row_build hrow).id]
        exact hi.ready r hr hr'
      · exact absurd h (hmark call _)
    · rw [hb] at hready
      cases hready

/-- A row that is not the accepted callback's keeps its completion. -/
theorem LifecycleInv.completion_kept (hi : LifecycleInv s) {c : CompletionCallback}
    (hc : c ∈ s.accepted) {x : ImageBuildRow} (hx : x ∈ (op.write.run s.builds).rows)
    (hid : x.id = c.buildId) (hfresh : op.role ≠ .registers c.buildId) :
    x.provider = c.provider ∧ x.callbackTokenHash = some c.tokenHash ∧
      x.completionHash = some c.completionHash ∧ x.callbackTokenUsedAt ≠ none := by
  rcases StoreOp.of_mem_run hx with ⟨r, hr, hrow⟩ | ⟨hreg, _⟩
  · have hb := op.row_build hrow
    obtain ⟨hp, htok, hhash, hused⟩ := hi.acceptedRows c hc r hr (hb.id.symm.trans hid)
    rcases op.row_completion hrow with ⟨h1, h2⟩ | ⟨c', _, hacc, _⟩
    · exact ⟨hb.provider.trans hp, hb.tokenHash.trans htok, h1.trans hhash, h2 ▸ hused⟩
    · simp only [ImageBuildRow.accepts, decide_eq_true_eq] at hacc
      exact absurd hacc.2.2.2.2.2.2 hused
  · exact absurd (hid ▸ hreg) hfresh

/-- A used token is one of an accepted callback, unless this statement accepted it. -/
theorem LifecycleInv.used_kept (hi : LifecycleInv s) {x : ImageBuildRow}
    (hx : x ∈ (op.write.run s.builds).rows) (hused : x.callbackTokenUsedAt ≠ none) :
    (∃ c ∈ s.accepted, c.buildId = x.id) ∨
      ∃ c, op.role = .accepts c ∧ c.buildId = x.id ∧ op.write.changes s.builds = true := by
  rcases StoreOp.of_mem_run hx with ⟨r, hr, hrow⟩ | ⟨_, _, hno, _⟩
  · have hb := op.row_build hrow
    rcases op.row_completion hrow with ⟨_, h2⟩ | ⟨c, hrole, hacc, _⟩
    · rw [hb.id]
      exact .inl (hi.used r hr (h2 ▸ hused))
    · refine .inr ⟨c, hrole, ?_, ?_⟩
      · simp only [ImageBuildRow.accepts, decide_eq_true_eq] at hacc
        exact hacc.1.symm.trans hb.id.symm
      · exact (StoreOp.changes_of_accepts hrole).mpr ⟨r, hr, hacc⟩
  · exact absurd hno hused

theorem LifecycleInv.write (hi : LifecycleInv s) (h : s.write op = some s') : LifecycleInv s' := by
  simp only [LifecycleState.write] at h
  split at h
  next hrole =>
    cases h
    refine hi.write_table (List.Subset.refl _) (by simp [hrole]) (by simp [hrole]) hi.acceptedOnce
      hi.acceptedIssued ?_ ?_ _ _
    · intro c hc r hr hid
      exact hi.completion_kept hc hr hid (by simp [hrole])
    · intro r hr hused
      exact (hi.used_kept hr hused).resolve_right (by simp [hrole])
  next id hrole =>
    split at h
    next => cases h
    next hfresh =>
      cases h
      refine hi.write_table (fun _ h => List.mem_cons_of_mem _ h) (by simp [hrole]) ?_
        hi.acceptedOnce (fun c hc => List.mem_cons_of_mem _ (hi.acceptedIssued c hc)) ?_ ?_ _ _
      · intro id' hid'
        rw [hrole] at hid'
        cases hid'
        exact ⟨List.mem_cons_self .., hfresh⟩
      · intro c hc r hr hid
        refine hi.completion_kept hc hr hid ?_
        rw [hrole]
        intro heq
        cases heq
        exact hfresh (hi.acceptedIssued c hc)
      · intro r hr hused
        exact (hi.used_kept hr hused).resolve_right (by simp [hrole])
  next c hrole =>
    split at h
    next hchanges =>
      cases h
      obtain ⟨r₀, hr₀, hacc⟩ := (StoreOp.changes_of_accepts hrole).mp hchanges
      have hfacts := hacc
      simp only [ImageBuildRow.accepts, decide_eq_true_eq] at hfacts
      refine hi.write_table (List.Subset.refl _) (by simp [hrole]) (by simp [hrole]) ?_ ?_ ?_ ?_ _ _
      · rw [List.map_cons, List.nodup_cons]
        refine ⟨?_, hi.acceptedOnce⟩
        intro hmem
        obtain ⟨c', hc', heq⟩ := List.mem_map.mp hmem
        exact (hi.acceptedRows c' hc' r₀ hr₀ (hfacts.1.trans heq.symm)).2.2.2 hfacts.2.2.2.2.2.2
      · intro c' hc'
        rcases List.mem_cons.mp hc' with rfl | hc'
        · exact hfacts.1 ▸ hi.issued r₀ hr₀
        · exact hi.acceptedIssued c' hc'
      · intro c' hc' x hx hid
        rcases List.mem_cons.mp hc' with rfl | hc'
        · rcases StoreOp.of_mem_run hx with ⟨r, hr, hrow⟩ | ⟨hreg, _⟩
          · have hb := op.row_build hrow
            have heq : r = r₀ :=
              row_unique hr hr₀ (hb.id.symm.trans (hid.trans hfacts.1.symm))
            subst heq
            obtain ⟨hhash, hused⟩ := StoreOp.row_of_accepts hrole hacc hrow
            exact ⟨hb.provider.trans hfacts.2.1, hb.tokenHash.trans hfacts.2.2.2.2.1, hhash,
              by simp [hused]⟩
          · rw [hrole] at hreg
            cases hreg
        · exact hi.completion_kept hc' hx hid (by simp [hrole])
      · intro x hx hused
        rcases hi.used_kept hx hused with ⟨c', hc', heq⟩ | ⟨c', hc', heq, _⟩
        · exact ⟨c', List.mem_cons_of_mem _ hc', heq⟩
        · rw [hrole] at hc'
          cases hc'
          exact ⟨c, List.mem_cons_self .., heq⟩
    next hno =>
      cases h
      refine hi.write_table (List.Subset.refl _) (by simp [hrole]) (by simp [hrole]) hi.acceptedOnce
        hi.acceptedIssued ?_ ?_ _ _
      · intro c' hc' r hr hid
        exact hi.completion_kept hc' hr hid (by simp [hrole])
      · intro r hr hused
        refine (hi.used_kept hr hused).resolve_right ?_
        rintro ⟨_, _, _, hchanges⟩
        exact hno hchanges
  next => cases h

/-! ### A marking call's next statement -/

theorem MarkReady.select_eq_some (h : call.select t = some build) :
    ∃ r ∈ t.rows, r.id = call.buildId ∧ r.provider = call.provider ∧
      build = ⟨r.scope, r.providerSessionId, r.createdAt⟩ := by
  obtain ⟨r, hr, rfl⟩ := Option.map_eq_some_iff.mp h
  have hp := List.find?_some hr
  simp only [decide_eq_true_eq] at hp
  exact ⟨r, List.mem_of_find?_eq_some hr, hp.1, hp.2.1, rfl⟩

/-- An owned row is marked, so the update has an effect. -/
theorem MarkReady.changes_of_owns {r : ImageBuildRow} (hr : r ∈ t.rows) (howns : call.owns r = true)
    (hno : call.newerReady build t = false) : (call.markReady build).changes t = true := by
  refine (Write.changes_iff rfl fun _ => rfl).mpr ⟨r, hr, ?_⟩
  simp [markReady, howns, hno]

/-- What a call knows after its statement is true of the table it ran on. -/
theorem MarkReady.next_selects {stage stage' : MarkReadyStage} (h : SelectionHolds t call stage)
    (hnext : call.next t stage = .inl stage') : SelectionHolds t call stage' := by
  cases stage with
  | selecting =>
    simp only [next] at hnext
    split at hnext
    next => cases hnext
    next build hsel =>
      cases hnext
      obtain ⟨r, hr, hid, hprov, rfl⟩ := select_eq_some hsel
      intro build' hbuild x hx hxid
      cases hbuild
      have hxr : x = r := row_unique hx hr (hxid.trans hid.symm)
      subst hxr
      exact ⟨by simp [ImageBuildRow.ofScope, hprov], rfl⟩
  | updating build =>
    simp only [next] at hnext
    split at hnext <;>
    · cases hnext
      exact h
  | supersedingBuild build =>
    simp only [next] at hnext
    split at hnext <;> cases hnext
  | selectingOlder build =>
    simp only [next] at hnext
    split at hnext
    next => cases hnext
    next =>
      cases hnext
      intro build' hbuild
      cases hbuild
  | supersedingOlder older => cases hnext

/-- A call past its `SELECT` is about a row that was there. -/
theorem MarkReady.next_issued {stage stage' : MarkReadyStage} (hi : LifecycleInv s)
    (h : (call, stage) ∈ s.marking) (hnext : call.next s.builds stage = .inl stage') :
    call.buildId ∈ s.issued := by
  by_cases hstage : stage = .selecting
  · subst hstage
    simp only [next] at hnext
    split at hnext
    next => cases hnext
    next build hsel =>
      obtain ⟨r, hr, hid, _⟩ := select_eq_some hsel
      exact hid ▸ hi.issued r hr
  · exact hi.calls _ h hstage

/-- The rows a batch supersedes are no longer ready. -/
theorem MarkReady.superseded_of_mem {older : List SupersededImageBuild} {x x' : ImageBuildRow}
    (hx : x.id ∈ older.map SupersededImageBuild.imageBuildId) (hready : x.status = .ready)
    (h : (supersedeOlder older).row t x = some x') :
    x'.status = .superseded := by
  rw [Write.row_of_touches (by simpa [supersedeOlder, hready] using hx) rfl] at h
  cases h
  rfl

/-- The older row of a ready pair is among those its call selects. -/
theorem MarkReady.mem_selectOlder {x y : ImageBuildRow} (hpair : ReadyPair t x y)
    (hid : y.id = call.buildId)
    (hsel : y.ofScope build.scope call.provider = true ∧ y.createdAt = build.createdAt) :
    x.id ∈ (call.selectOlder build t).map SupersededImageBuild.imageBuildId := by
  obtain ⟨hx, hy, hxr, hyr, hscope, horder⟩ := hpair
  have hne : x.id ≠ call.buildId := by
    intro he
    have hxy : x = y := row_unique hx hy (he.trans hid.symm)
    subst hxy
    simp only [ImageBuildRow.olderThan, decide_eq_true_eq] at horder
    exact horder.elim (absurd · (Nat.lt_irrefl _)) fun h => absurd h.2 (Nat.lt_irrefl _)
  simp only [selectOlder, List.map_map, List.mem_map, List.mem_filter]
  refine ⟨x, ⟨hx, ?_⟩, rfl⟩
  simp only [ImageBuildRow.ofScope, decide_eq_true_eq] at hscope hsel
  simp only [ImageBuildRow.ofScope, Bool.and_eq_true, decide_eq_true_eq]
  refine ⟨⟨⟨⟨hscope.1.trans hsel.1.1, hscope.2.trans hsel.1.2⟩, hxr⟩, hne⟩, ?_⟩
  rw [← hsel.2, ← hid]
  exact horder

section Proceed

variable {i : Nat} {call : MarkReady} {stage stage' : MarkReadyStage}

theorem LifecycleState.of_mem_proceed {e : MarkReady × MarkReadyStage}
    (h : e ∈ (s.proceed i call stage).marking) :
    e ∈ s.marking ∨ e.1 = call ∧ call.next s.builds stage = .inl e.2 := by
  rcases mem_of_mem_advance h with h | hnext
  · exact .inl h
  · right
    cases hn : call.next s.builds stage with
    | inl st =>
      simp only [hn, Sum.getLeft?_inl, Option.map_some, Option.some.injEq] at hnext
      subst hnext
      exact ⟨rfl, rfl⟩
    | inr _ => simp [hn] at hnext

theorem LifecycleState.mem_proceed_next (hget : s.marking[i]? = some (call, stage))
    (hn : call.next s.builds stage = .inl stage') :
    (call, stage') ∈ (s.proceed i call stage).marking := by
  simp only [proceed, hn, Sum.getLeft?_inl, Option.map_some]
  exact mem_advance_self hget

/-- A build is noted as marked with the update that marks it. -/
theorem LifecycleState.of_mem_proceed_marked {id : BuildId}
    (h : id ∈ (s.proceed i call stage).marked) :
    id ∈ s.marked ∨ id = call.buildId ∧ ∃ build, stage = .updating build ∧
      (call.markReady build).changes s.builds = true := by
  simp only [proceed] at h
  split at h
  next hst =>
    rcases List.mem_cons.mp h with rfl | h
    · refine .inr ⟨rfl, ?_⟩
      cases stage with
      | selecting =>
        simp only [MarkReady.next] at hst
        split at hst <;> simp at hst
      | updating build =>
        refine ⟨build, rfl, ?_⟩
        by_contra hno
        simp [MarkReady.next, hno] at hst
      | supersedingBuild build =>
        simp only [MarkReady.next] at hst
        split at hst <;> simp at hst
      | selectingOlder build =>
        simp only [MarkReady.next] at hst
        split at hst <;> simp at hst
      | supersedingOlder older => simp [MarkReady.next] at hst
    · exact .inl h
  next => exact .inl h

theorem LifecycleState.marked_proceed (hstage : stage = .updating build)
    (hc : (call.markReady build).changes s.builds = true) :
    call.buildId ∈ (s.proceed i call stage).marked := by
  subst hstage
  simp [proceed, MarkReady.next, hc]

/-- The rows after a marking call's statement are rewritten ones. -/
theorem LifecycleState.of_mem_proceed_rows {x : ImageBuildRow}
    (hx : x ∈ (s.proceed i call stage).builds.rows) :
    ∃ r ∈ s.builds.rows, (StoreOp.markReady call stage).write.row s.builds r = some x := by
  rcases @StoreOp.of_mem_run _ (.markReady call stage) _ hx with h | ⟨h, _⟩
  · exact h
  · cases h

/-- **The window stays guarded.** The pair's call selects the older row, then supersedes it;
a build just marked has its call at the selection. -/
theorem LifecycleInv.replacing_proceed (hi : LifecycleInv s)
    (hget : s.marking[i]? = some (call, stage)) {x' y' : ImageBuildRow}
    (hpair : ReadyPair (s.proceed i call stage).builds x' y') :
    ∃ e ∈ (s.proceed i call stage).marking, e.1.buildId = y'.id ∧ e.2.replaces x'.id := by
  have hsel : SelectionHolds s.builds call stage := hi.selected _ (List.mem_of_getElem? hget)
  have hback := @ReadyPair.back (.markReady call stage) _ _ _ (by rintro _ _ ⟨⟩; exact hsel) hpair
  rcases hback with ⟨x, y, hxy, hx, hy⟩ | ⟨call', build, hop, y, hy, howns, hno, hyid⟩
  · have hbx := StoreOp.row_build hx
    rw [hbx.id, (StoreOp.row_build hy).id]
    obtain ⟨e, he, heid, hrep⟩ := hi.replacing x y hxy
    rcases mem_advance_of_mem (o := ((call.next s.builds stage).getLeft?).map (call, ·)) hget he
      with rfl | he
    · -- the pair's own call: it goes on to the batch, or has just executed it
      cases stage with
      | selectingOlder build =>
        have hmem := MarkReady.mem_selectOlder hxy heid.symm
          (hsel build rfl y hxy.newer heid.symm)
        have hnext : call.next s.builds (.selectingOlder build) =
            .inl (.supersedingOlder (call.selectOlder build s.builds)) := by
          simp only [MarkReady.next]
          split
          next hnil => simp [hnil] at hmem
          next => rfl
        exact ⟨_, LifecycleState.mem_proceed_next hget hnext, heid, hmem⟩
      | supersedingOlder older =>
        have hsup := MarkReady.superseded_of_mem hrep hxy.olderReady hx
        rw [hpair.olderReady] at hsup
        cases hsup
      | selecting => exact hrep.elim
      | updating build => exact hrep.elim
      | supersedingBuild build => exact hrep.elim
    · exact ⟨e, he, heid, hrep⟩
  · cases hop
    have hc := MarkReady.changes_of_owns hy howns hno
    have hnext : call.next s.builds (.updating build) = .inl (.selectingOlder build) := by
      simp [MarkReady.next, hc]
    refine ⟨_, LifecycleState.mem_proceed_next hget hnext, ?_, trivial⟩
    rw [hyid, MarkReady.owns_id howns]

theorem LifecycleInv.proceed (hi : LifecycleInv s) (hget : s.marking[i]? = some (call, stage)) :
    LifecycleInv (s.proceed i call stage) := by
  have hmem : (call, stage) ∈ s.marking := List.mem_of_getElem? hget
  have hrole : ∀ id, (StoreOp.markReady call stage).role ≠ .registers id := fun _ h => by cases h
  constructor
  · intro x hx
    obtain ⟨r, hr, hrow⟩ := LifecycleState.of_mem_proceed_rows hx
    rw [(StoreOp.row_build hrow).id]
    exact hi.issued r hr
  · exact hi.oneBuilding.run (.markReady call stage)
  · intro e he hstage
    rcases LifecycleState.of_mem_proceed he with he | ⟨rfl, hnext⟩
    · exact hi.calls e he hstage
    · have hissued : e.1.buildId ∈ s.issued := MarkReady.next_issued hi hmem hnext
      exact hissued
  · intro e he
    refine SelectionHolds.run ?_ (.markReady call stage) (hrole _)
    rcases LifecycleState.of_mem_proceed he with he | ⟨rfl, hnext⟩
    · exact hi.selected e he
    · exact MarkReady.next_selects (hi.selected (e.1, stage) hmem) hnext
  · exact fun x y => hi.replacing_proceed hget
  · exact hi.acceptedOnce
  · exact hi.acceptedIssued
  · intro c hc r hr hid
    exact @LifecycleInv.completion_kept _ (.markReady call stage) hi _ hc _ hr hid (hrole _)
  · intro r hr hused
    refine (@LifecycleInv.used_kept _ (.markReady call stage) hi _ hr hused).resolve_right ?_
    rintro ⟨_, h, _⟩
    cases h
  · intro id hid
    rcases LifecycleState.of_mem_proceed_marked hid with hid | ⟨rfl, build, rfl, _⟩
    · exact hi.markedIssued id hid
    · exact hi.calls _ hmem (fun h => by cases h)
  · intro id hid x hx hxid
    obtain ⟨r, hr, hrow⟩ := LifecycleState.of_mem_proceed_rows hx
    have hrid := (StoreOp.row_build hrow).id.symm.trans hxid
    rcases LifecycleState.of_mem_proceed_marked hid with hid | ⟨rfl, build, rfl, hc⟩
    · intro hb
      have hstep := StoreOp.row_status hrow
      rw [hb] at hstep
      exact hi.markedRows id hid r hr hrid hstep.of_building
    · obtain ⟨r₀, hr₀, ht⟩ := (Write.changes_iff rfl fun _ => rfl).mp hc
      have howns : call.owns r₀ = true := by
        simp only [MarkReady.markReady, Bool.and_eq_true] at ht
        exact ht.1
      have hrr : r = r₀ := row_unique hr hr₀ (hrid.trans (MarkReady.owns_id howns).symm)
      subst hrr
      have hset : x = call.settled .ready r := by
        have hrow' : (call.markReady build).row s.builds r = some x := hrow
        rw [Write.row_of_touches ht rfl] at hrow'
        cases hrow'
        rfl
      rw [hset]
      intro h
      cases h
  · intro x hx hready
    obtain ⟨r, hr, hrow⟩ := LifecycleState.of_mem_proceed_rows hx
    rw [(StoreOp.row_build hrow).id]
    rcases StoreOp.row_ready hrow hready with hr' | ⟨call', build, hop, howns, hno⟩
    · have hold := hi.ready r hr hr'
      simp only [LifecycleState.proceed]
      split
      · exact List.mem_cons_of_mem _ hold
      · exact hold
    · cases hop
      rw [MarkReady.owns_id howns]
      exact LifecycleState.marked_proceed rfl (MarkReady.changes_of_owns hr howns hno)

end Proceed

/-! ## Every run -/

theorem LifecycleInv.step (hi : LifecycleInv s) (h : lifecycle.step s a = some s') :
    LifecycleInv s' := by
  cases a with
  | write op => exact hi.write h
  | tryMarkImageBuildReady call =>
    cases h
    have hsplit : ∀ e ∈ s.marking ++ [(call, MarkReadyStage.selecting)],
        e ∈ s.marking ∨ e.2 = .selecting := by
      intro e he
      rcases List.mem_append.mp he with he | he
      · exact .inl he
      · rw [List.mem_singleton.mp he]
        exact .inr rfl
    exact { hi with
      calls := fun e he hstage =>
        (hsplit e he).elim (hi.calls e · hstage) (absurd · hstage)
      selected := fun e he => (hsplit e he).elim (hi.selected e) fun hs => by
        rw [hs]
        intro build hbuild
        cases hbuild
      replacing := fun x y hxy => by
        obtain ⟨e, he, hrest⟩ := hi.replacing x y hxy
        exact ⟨e, List.mem_append_left _ he, hrest⟩ }
  | proceed i =>
    simp only [lifecycle, LifecycleState.step, Option.bind_eq_bind, Option.bind_eq_some_iff] at h
    obtain ⟨⟨call, stage⟩, hget, h⟩ := h
    cases h
    exact hi.proceed hget
  | readReplayAcceptance i =>
    simp only [lifecycle, LifecycleState.step, Option.bind_eq_bind, Option.bind_eq_some_iff] at h
    obtain ⟨c, _, h⟩ := h
    cases h
    exact { hi with }

/-! ### Answers to callbacks -/

/-- Two callbacks carry one completion: the hash binds session and payload. -/
structure CompletionCallback.SameCompletion (c c' : CompletionCallback) : Prop where
  buildId : c'.buildId = c.buildId
  provider : c'.provider = c.provider
  tokenHash : c'.tokenHash = c.tokenHash
  completionHash : c'.completionHash = c.completionHash

structure AnswersHold (s : LifecycleState) : Prop where
  accepted : ∀ c, (c, .accepted) ∈ s.answered ↔ c ∈ s.accepted
  replayed : ∀ c, (c, .replayed) ∈ s.answered → ∃ a ∈ s.accepted, a.SameCompletion c

theorem readReplayAcceptance_ne_accepted (t : ImageBuildTable) (c : CompletionCallback) :
    readReplayAcceptance t c ≠ .accepted := by
  unfold readReplayAcceptance
  split <;> nofun

/-- A replay is found on a row that shows the accepted completion. -/
theorem LifecycleInv.same_of_replayed (hi : LifecycleInv s) {c : CompletionCallback}
    (h : readReplayAcceptance s.builds c = .replayed) : ∃ a ∈ s.accepted, a.SameCompletion c := by
  unfold readReplayAcceptance at h
  split at h
  next hany =>
    obtain ⟨r, hr, hrep⟩ := List.any_eq_true.mp hany
    simp only [ImageBuildRow.replays, decide_eq_true_eq] at hrep
    obtain ⟨hid, hprov, _, htok, hused, hhash⟩ := hrep
    obtain ⟨a, ha, haid⟩ := hi.used r hr hused
    obtain ⟨hp, ht, hh, _⟩ := hi.acceptedRows a ha r hr haid.symm
    refine ⟨a, ha, hid.symm.trans haid.symm, hprov.symm.trans hp, ?_, ?_⟩
    · rw [htok, Option.some.injEq] at ht
      exact ht
    · rw [hhash, Option.some.injEq] at hh
      exact hh
  next => cases h

/-- A repeat is recognised as long as the row still names its session. -/
theorem LifecycleInv.replayed_of_same (hi : LifecycleInv s) {a c : CompletionCallback}
    (ha : a ∈ s.accepted) (hsame : a.SameCompletion c) {r : ImageBuildRow}
    (hr : r ∈ s.builds.rows) (hid : r.id = c.buildId)
    (hsession : r.providerSessionId = some c.providerSessionId) :
    readReplayAcceptance s.builds c = .replayed := by
  obtain ⟨hp, ht, hh, hu⟩ := hi.acceptedRows a ha r hr (hid.trans hsame.buildId)
  unfold readReplayAcceptance
  rw [if_pos]
  refine List.any_eq_true.mpr ⟨r, hr, ?_⟩
  simp only [ImageBuildRow.replays, decide_eq_true_eq]
  exact ⟨hid, hp.trans hsame.provider.symm, hsession, by rw [ht, hsame.tokenHash], hu,
    by rw [hh, hsame.completionHash]⟩

theorem AnswersHold.step (h : AnswersHold s) (hi : LifecycleInv s)
    (hstep : lifecycle.step s a = some s') : AnswersHold s' := by
  cases a with
  | write op =>
    simp only [lifecycle, LifecycleState.step, LifecycleState.write] at hstep
    split at hstep
    next =>
      cases hstep
      exact ⟨h.accepted, h.replayed⟩
    next =>
      split at hstep
      next => cases hstep
      next =>
        cases hstep
        exact ⟨h.accepted, h.replayed⟩
    next c _ =>
      split at hstep
      next =>
        cases hstep
        constructor
        · intro c'
          simp [h.accepted]
        · intro c' hc'
          obtain ⟨b, hb, hsame⟩ := h.replayed c' (by simpa using hc')
          exact ⟨b, List.mem_cons_of_mem _ hb, hsame⟩
      next =>
        cases hstep
        exact ⟨h.accepted, h.replayed⟩
    next => cases hstep
  | tryMarkImageBuildReady call =>
    cases hstep
    exact ⟨h.accepted, h.replayed⟩
  | proceed i =>
    simp only [lifecycle, LifecycleState.step, Option.bind_eq_bind,
      Option.bind_eq_some_iff] at hstep
    obtain ⟨⟨call, stage⟩, _, hstep⟩ := hstep
    cases hstep
    exact ⟨h.accepted, h.replayed⟩
  | readReplayAcceptance i =>
    simp only [lifecycle, LifecycleState.step, Option.bind_eq_bind,
      Option.bind_eq_some_iff] at hstep
    obtain ⟨c, _, hstep⟩ := hstep
    cases hstep
    constructor
    · intro c'
      rw [← h.accepted]
      refine ⟨fun hmem => ?_, List.mem_cons_of_mem _⟩
      rcases List.mem_cons.mp hmem with heq | hmem
      · injection heq with _ hans
        exact absurd hans.symm (readReplayAcceptance_ne_accepted _ _)
      · exact hmem
    · intro c' hc'
      rcases List.mem_cons.mp hc' with heq | hc'
      · injection heq with hc hans
        subst hc
        exact hi.same_of_replayed hans.symm
      · exact h.replayed c' hc'

/-! ### The life of a row -/

/-- What holds between any two steps. -/
structure LifecycleLaws (s : LifecycleState) : Prop where
  oneBuilding : OneBuilding s.builds
  acceptedOnce : (s.accepted.map CompletionCallback.buildId).Nodup
  answers : AnswersHold s
  /-- Two ready rows of a scope: the call that marked the newer one is in progress. -/
  window : ∀ x y, ReadyPair s.builds x y → ∃ e ∈ s.marking, e.1.buildId = y.id
  /-- Without such a call, the ready row is the only build ever marked that is still in force. -/
  oneReady : s.marking = [] → ∀ r ∈ s.builds.rows, r.status = .ready →
    ∀ x ∈ s.builds.rows, x.id ∈ s.marked → x.status.discarded = false →
    x.ofScope r.scope r.provider = true → x = r
  marked : ∀ r ∈ s.builds.rows, r.status = .ready → r.id ∈ s.marked

/-- What one step does. -/
structure LifecycleMove (s : LifecycleState) (a : LifecycleStep) (s' : LifecycleState) : Prop where
  rows : ∀ r ∈ s.builds.rows,
    (∃ r' ∈ s'.builds.rows, SameBuild r r' ∧ StatusStep r.status r'.status) ∨
      (r.status.discarded = true ∧ s'.builds.get? r.id = none)
  registered : ∀ r' ∈ s'.builds.rows, r'.id ∉ s.issued → r'.status = .building
  ready : ∀ r ∈ s.builds.rows, ∀ r' ∈ s'.builds.rows, r'.id = r.id → r.status ≠ .ready →
    r'.status = .ready → ∀ z ∈ s.builds.rows, z.status = .ready →
    z.ofScope r.scope r.provider = true → z.newerThan r.createdAt r.id = false
  /-- A build that has a completion accepts no other, and refusing one changes nothing. -/
  refused : ∀ op c, a = .write op → op.role = .accepts c → (∃ b ∈ s.accepted, b.buildId = c.buildId) →
    s'.builds = s.builds ∧ s'.accepted = s.accepted ∧ s'.checking = c :: s.checking
  answered : ∀ i c, a = .readReplayAcceptance i → s.checking[i]? = some c →
    s'.builds = s.builds ∧ ∃ answer, s'.answered = (c, answer) :: s.answered ∧
      answer ≠ .accepted ∧
      ((∃ b ∈ s.accepted, b.SameCompletion c) → (∃ r ∈ s.builds.rows, r.id = c.buildId ∧
        r.providerSessionId = some c.providerSessionId) → answer = .replayed) ∧
      ((∀ b ∈ s.accepted, ¬b.SameCompletion c) → answer = .rejected)

/-- A failed or superseded build is never anything else again. -/
def StaysDiscarded (s t : LifecycleState) : Prop :=
  ∀ r ∈ s.builds.rows, r.status.discarded = true → ∀ r' ∈ t.builds.rows, r'.id = r.id →
    r'.status.discarded = true

theorem ImageBuildRow.order_total {x y : ImageBuildRow} (h : x.id ≠ y.id) :
    x.olderThan y.createdAt y.id = true ∨ y.olderThan x.createdAt x.id = true := by
  simp only [olderThan, decide_eq_true_eq]
  rcases Nat.lt_trichotomy x.createdAt y.createdAt with hlt | heq | hgt
  · exact .inl (.inl hlt)
  · rcases Nat.lt_or_gt_of_ne h with hid | hid
    · exact .inl (.inr ⟨heq, hid⟩)
    · exact .inr (.inr ⟨heq.symm, hid⟩)
  · exact .inr (.inl hgt)

theorem ofScope_symm {x y : ImageBuildRow} (h : x.ofScope y.scope y.provider = true) :
    y.ofScope x.scope x.provider = true := by
  simp only [ImageBuildRow.ofScope, decide_eq_true_eq] at h ⊢
  exact ⟨h.1.symm, h.2.symm⟩

theorem LifecycleInv.laws (hi : LifecycleInv s) (ha : AnswersHold s) : LifecycleLaws s where
  oneBuilding := hi.oneBuilding
  acceptedOnce := hi.acceptedOnce
  answers := ha
  window x y hxy := by
    obtain ⟨e, he, heid, _⟩ := hi.replacing x y hxy
    exact ⟨e, he, heid⟩
  oneReady := by
    intro hidle r hr hready x hx hmarked hforce hscope
    have hxready : x.status = .ready := by
      have hnb := hi.markedRows x.id hmarked x hx rfl
      cases hs : x.status with
      | ready => rfl
      | building => exact absurd hs hnb
      | failed => simp [hs, ImageBuildStatus.discarded] at hforce
      | superseded => simp [hs, ImageBuildStatus.discarded] at hforce
    have hno : ∀ a b, ¬ReadyPair s.builds a b := by
      intro a b hab
      obtain ⟨e, he, _⟩ := hi.replacing a b hab
      simp [hidle] at he
    by_contra hne
    have hid : x.id ≠ r.id := fun he => hne (row_unique hx hr he)
    rcases ImageBuildRow.order_total hid with hlt | hlt
    · exact hno x r ⟨hx, hr, hxready, hready, hscope, hlt⟩
    · exact hno r x ⟨hr, hx, hready, hxready, ofScope_symm hscope, hlt⟩
  marked := hi.ready

/-- A registration is of a build that was never registered. -/
theorem LifecycleState.registers_fresh {id : BuildId} (h : lifecycle.step s a = some s')
    (hop : s.op a = some op) (hreg : op.role = .registers id) : id ∉ s.issued := by
  cases a with
  | write op' =>
    cases hop
    simp only [lifecycle, step, write, hreg] at h
    split at h
    next => cases h
    next hfresh => exact hfresh
  | proceed i =>
    simp only [LifecycleState.op, Option.map_eq_some_iff] at hop
    obtain ⟨e, _, rfl⟩ := hop
    cases hreg
  | tryMarkImageBuildReady call => cases hop
  | readReplayAcceptance i => cases hop

theorem LifecycleState.issued_subset (h : lifecycle.step s a = some s') :
    s.issued ⊆ s'.issued := by
  cases a with
  | write op =>
    simp only [lifecycle, step, write] at h
    split at h
    next =>
      cases h
      exact List.Subset.refl _
    next =>
      split at h
      next => cases h
      next =>
        cases h
        exact fun _ h => List.mem_cons_of_mem _ h
    next =>
      split at h <;>
      · cases h
        exact List.Subset.refl _
    next => cases h
  | tryMarkImageBuildReady call =>
    cases h
    exact List.Subset.refl _
  | proceed i =>
    simp only [lifecycle, step, Option.bind_eq_bind, Option.bind_eq_some_iff] at h
    obtain ⟨_, _, h⟩ := h
    cases h
    exact List.Subset.refl _
  | readReplayAcceptance i =>
    simp only [lifecycle, step, Option.bind_eq_bind, Option.bind_eq_some_iff] at h
    obtain ⟨_, _, h⟩ := h
    cases h
    exact List.Subset.refl _

theorem LifecycleInv.move_ready (hi : LifecycleInv s) (h : lifecycle.step s a = some s')
    {r r' : ImageBuildRow} (hr : r ∈ s.builds.rows) (hr' : r' ∈ s'.builds.rows)
    (hid : r'.id = r.id) (hnot : r.status ≠ .ready) (hready : r'.status = .ready)
    {z : ImageBuildRow} (hz : z ∈ s.builds.rows) (hzr : z.status = .ready)
    (hscope : z.ofScope r.scope r.provider = true) : z.newerThan r.createdAt r.id = false := by
  rcases LifecycleState.step_builds h with hb | ⟨op, hop, hb⟩
  · rw [hb] at hr'
    rw [row_unique hr' hr hid] at hready
    exact absurd hready hnot
  · rw [hb] at hr'
    have hrow := StoreOp.row_of_mem hr hr' hid fun id hreg heq =>
      LifecycleState.registers_fresh h hop hreg (heq ▸ hi.issued r hr)
    rcases op.row_ready hrow hready with hr0 | ⟨call, build, rfl, howns, hno⟩
    · exact absurd hr0 hnot
    · cases a with
      | write op' =>
        cases hop
        simp [lifecycle, LifecycleState.step, LifecycleState.write, StoreOp.role] at h
      | proceed i =>
        simp only [LifecycleState.op, Option.map_eq_some_iff] at hop
        obtain ⟨⟨call', stage⟩, he, heq⟩ := hop
        cases heq
        have hrid := MarkReady.owns_id howns
        have hsel := hi.selected _ (List.mem_of_getElem? he) build rfl r hr hrid
        by_contra hnewer
        have hyes := MarkReady.newerReady_of_pair hrid hsel hz hzr (ofScope_symm hscope) (by
          simp only [ImageBuildRow.newerThan, ImageBuildRow.olderThan, Bool.not_eq_false,
            decide_eq_true_eq] at hnewer ⊢
          exact hnewer.imp id fun h => ⟨h.1.symm, h.2⟩)
        rw [hno] at hyes
        cases hyes
      | tryMarkImageBuildReady call => cases hop
      | readReplayAcceptance i => cases hop

theorem LifecycleInv.move (hi : LifecycleInv s) (h : lifecycle.step s a = some s') :
    LifecycleMove s a s' := by
  constructor
  · intro r hr
    rcases LifecycleState.step_builds h with hb | ⟨op, hop, hb⟩
    · rw [hb]
      exact .inl ⟨r, hr, .refl r, .stay _⟩
    · rw [hb]
      rcases op.run_rows hr with ⟨r', hr', hrow⟩ | hgone
      · exact .inl ⟨r', hr', op.row_build hrow, op.row_status hrow⟩
      · exact .inr hgone
  · intro r' hr' hnew
    rcases LifecycleState.step_builds h with hb | ⟨op, hop, hb⟩
    · rw [hb] at hr'
      exact absurd (hi.issued r' hr') hnew
    · rw [hb] at hr'
      rcases StoreOp.of_mem_run hr' with ⟨r, hr, hrow⟩ | ⟨_, hbuilding, _⟩
      · rw [(op.row_build hrow).id] at hnew
        exact absurd (hi.issued r hr) hnew
      · exact hbuilding
  · intro r hr r' hr' hid hnot hready z hz hzr hscope
    exact hi.move_ready h hr hr' hid hnot hready hz hzr hscope
  · rintro op c rfl hrole ⟨b, hb, hbid⟩
    have hno : op.write.changes s.builds = false := by
      by_contra hc
      obtain ⟨r, hr, hacc⟩ :=
        (StoreOp.changes_of_accepts hrole).mp (Bool.eq_true_of_not_eq_false hc)
      simp only [ImageBuildRow.accepts, decide_eq_true_eq] at hacc
      exact (hi.acceptedRows b hb r hr (hacc.1.trans hbid.symm)).2.2.2 hacc.2.2.2.2.2.2
    simp only [lifecycle, LifecycleState.step, LifecycleState.write, hrole, hno,
      Bool.false_eq_true, if_false] at h
    cases h
    exact ⟨Write.run_of_not_changes hno, rfl, rfl⟩
  · rintro i c rfl hget
    simp only [lifecycle, LifecycleState.step, hget, Option.bind_eq_bind, Option.bind_some] at h
    cases h
    refine ⟨rfl, _, rfl, readReplayAcceptance_ne_accepted _ _, ?_, ?_⟩
    · rintro ⟨b, hb, hsame⟩ ⟨r, hr, hid, hsession⟩
      exact hi.replayed_of_same hb hsame hr hid hsession
    · intro hnone
      cases hans : readReplayAcceptance s.builds c with
      | rejected => rfl
      | replayed =>
        obtain ⟨b, hb, hsame⟩ := hi.same_of_replayed hans
        exact absurd hsame (hnone b hb)
      | accepted => exact absurd hans (readReplayAcceptance_ne_accepted _ _)

/-- A build whose row is gone, or discarded, keeps that. -/
theorem LifecycleInv.stays_discarded (hs : LifecycleInv s) {t : LifecycleState}
    (h : lifecycle.Reachable anyStep s t) : StaysDiscarded s t := by
  intro r hr hdisc
  have hinv := h.inv
    (fun t => LifecycleInv t ∧ r.id ∈ t.issued ∧
      ∀ r' ∈ t.builds.rows, r'.id = r.id → r'.status.discarded = true)
    ⟨hs, hs.issued r hr, fun r' hr' hid => by rw [row_unique hr' hr hid]; exact hdisc⟩
    (by
      rintro t a t' ⟨hi, hissued, hall⟩ _ hstep
      refine ⟨hi.step hstep, LifecycleState.issued_subset hstep hissued, ?_⟩
      intro r' hr' hid
      rcases LifecycleState.step_builds hstep with hb | ⟨op, hop, hb⟩
      · rw [hb] at hr'
        exact hall r' hr' hid
      · rw [hb] at hr'
        rcases StoreOp.of_mem_run hr' with ⟨x, hx, hrow⟩ | ⟨hreg, _⟩
        · exact (op.row_status hrow).discarded
            (hall x hx ((op.row_build hrow).id.symm.trans hid))
        · exact absurd hissued (hid ▸ LifecycleState.registers_fresh hstep hop hreg))
  exact hinv.2.2

/-- **Row lifecycle.** In every state the store can reach, under any interleaving of its
statements: one build at a time, one accepted completion for each build with replays and
refusals told apart, and two ready images only while the call that marked the newer one
has not superseded the older. Every step moves rows forward only, and a discarded build
stays discarded. -/
theorem image_build_lifecycle (h : lifecycle.Reachable anyStep {} s) :
    LifecycleLaws s ∧ (∀ a s', lifecycle.step s a = some s' → LifecycleMove s a s') ∧
      ∀ t, lifecycle.Reachable anyStep s t → StaysDiscarded s t := by
  have hboth := h.inv (fun s => LifecycleInv s ∧ AnswersHold s)
    ⟨.init, ⟨fun _ => by simp, fun _ hc => absurd hc List.not_mem_nil⟩⟩
    fun _ _ _ hi _ hstep => ⟨hi.1.step hstep, hi.2.step hi.1 hstep⟩
  exact ⟨hboth.1.laws hboth.2, fun _ _ hstep => hboth.1.move hstep,
    fun _ ht => hboth.1.stays_discarded ht⟩

/-- A failed build whose session has been torn down. -/
def cleanedUpRun (callback : CompletionCallback) : List LifecycleStep :=
  let scope : ImageBuildScope := ⟨.environment, "env"⟩
  [.write (.registerBuild ⟨1, scope, .vercel, "fp", some callback.tokenHash, some 100⟩ 10),
    .write (.bindProviderSession 1 .vercel callback.providerSessionId),
    .write (.acceptFailedCompletion callback "build failed"),
    .write (.acceptFailedCompletion callback "build failed"),
    .readReplayAcceptance 0,
    .write (.clearSessionCleanup 1 .vercel callback.providerSessionId),
    .write (.acceptFailedCompletion callback "build failed"),
    .readReplayAcceptance 0]

theorem image_build_lifecycle_cleaned_up :
    ∃ s, lifecycle.run anyStep {} (cleanedUpRun ⟨1, .vercel, 7, 5, 9, 20⟩) = some s ∧
      LifecycleLaws s ∧ (∀ a s', lifecycle.step s a = some s' → LifecycleMove s a s') ∧
      ∀ t, lifecycle.Reachable anyStep s t → StaysDiscarded s t := by
  have hrun : (lifecycle.run anyStep {} (cleanedUpRun ⟨1, .vercel, 7, 5, 9, 20⟩)).isSome := by
    decide
  obtain ⟨s, hs⟩ := Option.isSome_iff_exists.mp hrun
  exact ⟨s, hs, image_build_lifecycle (System.run_reachable hs)⟩

/-- Once the session cleanup has cleared the session id, an exact repeat of the accepted
callback is answered `rejected`. -/
theorem repeat_rejected_after_cleanup :
    ∃ s, lifecycle.Reachable anyStep {} s ∧
      s.answered.map Prod.snd = [.rejected, .replayed, .accepted] ∧
      ∀ e ∈ s.answered, e.1 = ⟨1, .vercel, 7, 5, 9, 20⟩ := by
  have hrun : (lifecycle.run anyStep {} (cleanedUpRun ⟨1, .vercel, 7, 5, 9, 20⟩)).map
      LifecycleState.answered =
        some [(⟨1, .vercel, 7, 5, 9, 20⟩, .rejected), (⟨1, .vercel, 7, 5, 9, 20⟩, .replayed),
          (⟨1, .vercel, 7, 5, 9, 20⟩, .accepted)] := by decide
  obtain ⟨s, hs, hans⟩ := Option.map_eq_some_iff.mp hrun
  refine ⟨s, System.run_reachable hs, ?_, ?_⟩
  · rw [hans]
    rfl
  · rw [hans]
    decide

end BackgroundAgents.ImageBuilds

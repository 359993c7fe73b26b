import Mathlib.Data.List.Pairwise
import BackgroundAgents.PullRequests.CreationLaws

/-!
# Pull request calls under one another

A call that has claimed its repository may rely on two things while others run:
its claim stays, and the artifacts that other calls leave are none of pull
requests that stand on its head (`Kept`). So what the walk has found holds where
the call pushes, and where it opens its pull request.
-/

namespace BackgroundAgents.PullRequests.Creation

open Programs Transition

structure Inv (text : Text) (s : State) : Prop where
  exclusive : Exclusive s
  ended : ∀ i ∈ s.ended, i < s.calls
  pushes : ∀ push ∈ s.pushes, push.Safe text
  openings : ∀ m ∈ s.openings, m.Opens text

/-- What goes on beside the call which has claimed a repository. -/
structure Progress (text : Text) (key : String) (s t : State) : Prop where
  reads : ∀ r ∈ s.reads, r ∈ t.reads
  artifacts : Kept text key s.artifacts t.artifacts

/-- What a call may rely on while others run. -/
structure Rely (text : Text) (id : Nat) (s t : State) : Prop where
  claims : ∀ c : Claim, c.call = id → (c ∈ t.claims ↔ c ∈ s.claims)
  progress : ∀ c ∈ s.claims, c.call = id → Progress text c.key s t

def creationContract (text : Text) (id : Nat) : Contract State where
  inv := Inv text
  rely := Rely text id
  guar := fun s t => ∀ other, other ≠ id → Rely text other s t
  waits := fun _ => True

abbrev creationAnswers (setup : Setup) (id : Nat) (call : Call) :
    (o : CreationOp) → State → Except Failure o.Answer → State → Prop :=
  (creationServer setup).Answers (headApart setup.text) id call

variable {setup : Setup} {text : Text} {id other : Nat} {call : Call} {key : String}
  {plan : Plan} {request : Request} {candidate : PrArtifactHeadMatch}
  {s s₀ t u base : State}

theorem Progress.refl (s : State) : Progress text key s s := ⟨fun _ h => h, Kept.refl _⟩

theorem Progress.trans (hst : Progress text key s t) (htu : Progress text key t u) :
    Progress text key s u :=
  ⟨fun r hr => htu.reads r (hst.reads r hr), hst.artifacts.trans htu.artifacts⟩

theorem Rely.refl (id : Nat) (s : State) : Rely text id s s :=
  ⟨fun _ _ => Iff.rfl, fun _ _ _ => Progress.refl s⟩

theorem Rely.trans (hst : Rely text id s t) (htu : Rely text id t u) : Rely text id s u where
  claims := fun c hc => (htu.claims c hc).trans (hst.claims c hc)
  progress := by
    intro c hmem hc
    exact (hst.progress c hmem hc).trans (htu.progress c ((hst.claims c hc).mpr hmem) hc)

/-! ## Calls that hold a claim -/

/-- What a call has kept that holds the claim of a key. -/
structure Reached (text : Text) (id : Nat) (key : String) (s₀ s : State) : Prop where
  inv : Inv text s
  guar : ∀ other, other ≠ id → Rely text other s₀ s
  claimed : { call := id, key } ∈ s.claims
  only : ∀ c ∈ s.claims, c.call = id → c.key = key

/-- What a call has kept that holds none. -/
structure Free (text : Text) (id : Nat) (s₀ s : State) : Prop where
  inv : Inv text s
  guar : ∀ other, other ≠ id → Rely text other s₀ s
  free : ∀ c ∈ s.claims, c.call ≠ id
  made : id < s.calls

theorem Reached.ends (h : Reached text id key s₀ s) : (creationContract text id).Ends s₀ s :=
  ⟨h.inv, h.guar⟩

theorem Reached.made (h : Reached text id key s₀ s) : id < s.calls :=
  h.inv.exclusive.made _ h.claimed

/-- The claims of the others are of other keys. -/
theorem Reached.others (h : Reached text id key s₀ s) {c : Claim} (hmem : c ∈ s.claims)
    (hother : c.call ≠ id) : key ≠ c.key := by
  have : Std.Symm fun c c' : Claim => c.key ≠ c'.key := ⟨fun _ _ hne => hne.symm⟩
  refine h.inv.exclusive.distinct.forall h.claimed hmem ?_
  intro he
  exact hother (congrArg Claim.call he).symm

/-- What the operation that is answered begins with. -/
theorem Reached.resumed (h : Reached text id key s₀ s) (hrely : Rely text id s t)
    (hinv : Inv text t) : Reached text id key t t where
  inv := hinv
  guar := fun other _ => Rely.refl other t
  claimed := (hrely.claims _ rfl).mpr h.claimed
  only := fun c hmem hc => h.only c ((hrely.claims c hc).mp hmem) hc

/-- A step that leaves the claims as they are. -/
structure Steps (text : Text) (id : Nat) (s t : State) : Prop where
  inFlight : t.inFlight = s.inFlight
  claims : t.claims = s.claims
  calls : t.calls = s.calls
  ended : t.ended = s.ended
  progress : ∀ c ∈ s.claims, c.call ≠ id → Progress text c.key s t
  pushes : ∀ push ∈ t.pushes, push ∈ s.pushes ∨ push.Safe text
  openings : ∀ m ∈ t.openings, m ∈ s.openings ∨ m.Opens text

theorem Reached.steps (h : Reached text id key s₀ s) (hsteps : Steps text id s t) :
    Reached text id key s₀ t where
  inv := {
    exclusive := {
      inFlight := by
        rw [hsteps.inFlight, hsteps.claims]
        exact h.inv.exclusive.inFlight
      distinct := by
        rw [hsteps.claims]
        exact h.inv.exclusive.distinct
      made := by
        rw [hsteps.claims, hsteps.calls]
        exact h.inv.exclusive.made
      underWay := by
        rw [hsteps.claims, hsteps.ended]
        exact h.inv.exclusive.underWay }
    ended := by
      rw [hsteps.ended, hsteps.calls]
      exact h.inv.ended
    pushes := fun push hmem => (hsteps.pushes push hmem).elim (h.inv.pushes push) (fun hs => hs)
    openings := fun m hmem => (hsteps.openings m hmem).elim (h.inv.openings m) (fun hs => hs) }
  guar := by
    intro other hne
    refine (h.guar other hne).trans ⟨fun c _ => by rw [hsteps.claims], ?_⟩
    intro c hmem hc
    exact hsteps.progress c hmem (hc ▸ hne)
  claimed := by
    rw [hsteps.claims]
    exact h.claimed
  only := by
    rw [hsteps.claims]
    exact h.only

theorem clock_steps (s : State) (now : Int) : Steps text id s { s with now } where
  inFlight := rfl
  claims := rfl
  calls := rfl
  ended := rfl
  progress := fun _ _ _ => ⟨fun _ h => h, Kept.refl _⟩
  pushes := fun _ h => .inl h
  openings := fun _ h => .inl h

theorem noteRead_progress (s : State) (artifact : StoredArtifact)
    (live : Option PullRequestSnapshotInput) : Progress text key s (s.noteRead id artifact live) :=
  ⟨fun _ h => List.mem_append_left _ h, Kept.refl _⟩

theorem noteRead_steps (s : State) (artifact : StoredArtifact)
    (live : Option PullRequestSnapshotInput) : Steps text id s (s.noteRead id artifact live) where
  inFlight := rfl
  claims := rfl
  calls := rfl
  ended := rfl
  progress := fun _ _ _ => noteRead_progress s artifact live
  pushes := fun _ h => .inl h
  openings := fun _ h => .inl h

theorem setBranch_steps (s : State) (plan : Plan) :
    Steps text id s (s.setBranch plan) ∧ Progress text key s (s.setBranch plan) := by
  have hsame : ∀ {t : State}, t.inFlight = s.inFlight → t.claims = s.claims → t.calls = s.calls →
      t.ended = s.ended → t.reads = s.reads → t.artifacts = s.artifacts → t.pushes = s.pushes →
      t.openings = s.openings → Steps text id s t ∧ Progress text key s t := by
    intro t hflight hclaims hcalls hended hreads hartifacts hpushes hopenings
    have hprogress : ∀ key, Progress text key s t := by
      intro key
      refine ⟨fun r hr => hreads ▸ hr, ?_⟩
      rw [hartifacts]
      exact Kept.refl _
    exact ⟨⟨hflight, hclaims, hcalls, hended, fun c _ _ => hprogress c.key,
      fun _ hp => .inl (hpushes ▸ hp), fun _ hm => .inl (hopenings ▸ hm)⟩, hprogress key⟩
  unfold State.setBranch
  dsimp only
  split
  · split
    · split
      · exact hsame rfl rfl rfl rfl rfl rfl rfl rfl
      · exact hsame rfl rfl rfl rfl rfl rfl rfl rfl
    · exact hsame rfl rfl rfl rfl rfl rfl rfl rfl
  · split
    · split
      · exact hsame rfl rfl rfl rfl rfl rfl rfl rfl
      · exact hsame rfl rfl rfl rfl rfl rfl rfl rfl
    · exact hsame rfl rfl rfl rfl rfl rfl rfl rfl

theorem answer_cases {o : CreationOp} {outcome : Outcome} {answer : Except Failure o.Answer}
    (h : o.answer id s outcome = some (answer, t)) :
    Steps text id s t ∧ Progress text key s t := by
  have hsame : Steps text id s s ∧ Progress text key s s := ⟨clock_steps s s.now, Progress.refl s⟩
  unfold CreationOp.answer at h
  split at h
  case h_1 =>
    cases h
    exact ⟨noteRead_steps s _ _, noteRead_progress s _ _⟩
  case h_2 =>
    cases h
    exact ⟨noteRead_steps s _ _, noteRead_progress s _ _⟩
  all_goals cases h
  all_goals exact hsame

/-! ## Turns -/

theorem wp_await {o : CreationOp} {post : State → State → Except Failure o.Answer → Prop}
    (h : Reached setup.text id key s₀ s)
    (hpost : ∀ t answer u, Reached setup.text id key t u → Progress setup.text key s u →
      creationAnswers setup id call o t answer u → post t u answer) :
    (await o).Wp (creationContract setup.text id) (creationAnswers setup id call) post s₀ s := by
  refine Program.wp_perform h.ends trivial ?_
  intro t hrely hinv _ answer u hu
  have hreached := h.resumed hrely hinv
  have hprogress := hrely.progress _ h.claimed rfl
  obtain ⟨choice, hok, hanswer⟩ := hu
  have hclock := hreached.steps (clock_steps t choice.now)
  have hmoved : Steps setup.text id { t with now := choice.now } u ∧
      Progress setup.text key { t with now := choice.now } u := answer_cases hanswer
  refine hpost t answer u (hclock.steps hmoved.1) ?_ ⟨choice, hok, hanswer⟩
  exact hprogress.trans ⟨hmoved.2.reads, hmoved.2.artifacts⟩

/-- The call has read the pull request of a candidate. -/
def HasRead (reads : List LiveRead) (id : Nat) (candidate : PrArtifactHeadMatch)
    (live : Option PullRequestSnapshotInput) : Prop :=
  ∃ r ∈ reads, r.call = id ∧ r.artifact = candidate.artifact ∧ r.live = live

theorem HasRead.progress {live : Option PullRequestSnapshotInput}
    (h : HasRead s.reads id candidate live) (hprogress : Progress text key s t) :
    HasRead t.reads id candidate live := by
  obtain ⟨r, hmem, hr⟩ := h
  exact ⟨r, hprogress.reads r hmem, hr⟩

theorem answers_getPullRequest {answer : Except Failure PullRequestSnapshotInput}
    (hu : creationAnswers setup id call (.getPullRequest plan candidate) t answer u) :
    (∃ snapshot, answer = .ok snapshot ∧ HasRead u.reads id candidate (some snapshot) ∧
        ¬ ReusesItself setup.text plan candidate (some snapshot)) ∨
      ((∃ failure, answer = .error failure) ∧ HasRead u.reads id candidate none ∧
        ¬ ReusesItself setup.text plan candidate none) := by
  obtain ⟨choice, hok, hanswer⟩ := hu
  obtain ⟨now, outcome⟩ := choice
  have hnoted : ∀ live, HasRead (State.noteRead t id candidate.artifact live).reads id candidate
      live := by
    intro live
    exact ⟨_, List.mem_append_right _ (List.mem_singleton_self _), rfl, rfl, rfl⟩
  cases outcome with
  | live snapshot =>
    cases hanswer
    exact .inl ⟨snapshot, rfl, hnoted (some snapshot), hok⟩
  | throws failure =>
    cases hanswer
    exact .inr ⟨⟨failure, rfl⟩, hnoted none, hok⟩
  | done => cases hanswer
  | settings => cases hanswer
  | repository => cases hanswer
  | applied => cases hanswer
  | pushed => cases hanswer
  | auth => cases hanswer
  | opened => cases hanswer

variable {repoInfo : RepositoryInfo}

theorem answers_getRepository
    (hu : creationAnswers setup id call (.getRepository request) t (.ok repoInfo) u) :
    HeadAvailable setup.text request repoInfo := by
  obtain ⟨choice, hok, hanswer⟩ := hu
  obtain ⟨now, outcome⟩ := choice
  cases outcome with
  | repository =>
    cases hanswer
    exact hok
  | live => cases hanswer
  | throws => cases hanswer
  | done => cases hanswer
  | settings => cases hanswer
  | applied => cases hanswer
  | pushed => cases hanswer
  | auth => cases hanswer
  | opened => cases hanswer

/-! ### The walk -/

theorem wp_readLive (h : Reached setup.text id key s₀ s) :
    (readLive plan candidate).Wp (creationContract setup.text id) (creationAnswers setup id call)
      (fun s₀ u r => Reached setup.text id key s₀ u ∧ Progress setup.text key s u ∧
        ∃ live, r = .ok live ∧ HasRead u.reads id candidate live ∧
          ¬ ReusesItself setup.text plan candidate live) s₀ s := by
  refine Program.wp_handle (Program.wp_bind (wp_await h ?_))
  intro t answer u hreached hprogress hu
  rcases answers_getPullRequest hu with ⟨snapshot, rfl, hread⟩ | ⟨⟨failure, rfl⟩, hread⟩
  · exact ⟨hreached, hprogress, some snapshot, rfl, hread⟩
  · exact ⟨hreached, hprogress, none, rfl, hread⟩

variable {live : PullRequestSnapshotInput}

theorem applySnapshot_progress (s : State) (artifactId : String)
    (hclosed : live.lifecycleState ≠ .opened) :
    Progress text key s (s.applySnapshot artifactId live) := by
  refine ⟨?_, applySnapshot_kept s artifactId hclosed⟩
  intro r hr
  unfold State.applySnapshot
  split
  · exact hr
  · split
    · exact hr
    · exact hr

theorem applySnapshot_steps (s : State) (artifactId : String)
    (hclosed : live.lifecycleState ≠ .opened) :
    Steps text id s (s.applySnapshot artifactId live) := by
  have hprogress : ∀ c ∈ s.claims, c.call ≠ id →
      Progress text c.key s (s.applySnapshot artifactId live) :=
    fun _ _ _ => applySnapshot_progress s artifactId hclosed
  revert hprogress
  unfold State.applySnapshot
  split
  · exact fun hprogress => ⟨rfl, rfl, rfl, rfl, hprogress, fun _ h => .inl h, fun _ h => .inl h⟩
  · split
    · exact fun hprogress => ⟨rfl, rfl, rfl, rfl, hprogress, fun _ h => .inl h, fun _ h => .inl h⟩
    · exact fun hprogress => ⟨rfl, rfl, rfl, rfl, hprogress, fun _ h => .inl h, fun _ h => .inl h⟩

theorem wp_applyLiveSnapshot {artifact : StoredArtifact} (hclosed : live.lifecycleState ≠ .opened)
    (h : Reached setup.text id key s₀ s) :
    (applyLiveSnapshot plan artifact live).Wp (creationContract setup.text id)
      (creationAnswers setup id call)
      (fun s₀ u _ => Reached setup.text id key s₀ u ∧ Progress setup.text key s u) s₀ s := by
  refine Program.wp_bind ?_
  dsimp only [Program.gets, Program.Wp]
  refine Program.wp_bind (Program.wp_handle (wp_await h ?_))
  intro t answer u hreached hprogress _
  have happly : Reached setup.text id key t (u.applySnapshot artifact.id live) ∧
      Progress setup.text key s (u.applySnapshot artifact.id live) :=
    ⟨hreached.steps (applySnapshot_steps u artifact.id hclosed),
      hprogress.trans (applySnapshot_progress u artifact.id hclosed)⟩
  cases answer with
  | error failure => exact happly
  | ok applied =>
    cases applied with
    | true => exact happly
    | false => exact ⟨hreached, hprogress⟩

/-- A candidate that stands in the way of no new pull request. -/
def Passed (text : Text) (plan : Plan) (reads : List LiveRead) (id : Nat)
    (candidate : PrArtifactHeadMatch) : Prop :=
  ReadReleased reads id candidate.artifact ∨
    (plan.headIsCheckout text = true ∧ ReadSeparate text plan reads id candidate)

theorem Passed.progress (h : Passed text plan s.reads id candidate)
    (hprogress : Progress text key s t) : Passed text plan t.reads id candidate := by
  rcases h with ⟨r, hmem, hr⟩ | ⟨hcheckout, r, hmem, hr⟩
  · exact .inl ⟨r, hprogress.reads r hmem, hr⟩
  · exact .inr ⟨hcheckout, r, hprogress.reads r hmem, hr⟩

/-- What is known of a pull request that the call takes for its own. -/
def Reusable (text : Text) (plan : Plan) (existing : ExistingOpenPullRequest) : Prop :=
  plan.headIsCheckout text = true ∧
    text.normalizeBranchName plan.sanitizedHeadBranch ≠
      text.normalizeBranchName existing.baseBranch

theorem separateBase_spec {known : Option String} (h : plan.separateBase text known = true) :
    ∃ requested, plan.request.input.baseBranch = some requested ∧
      ∃ base, known = some base ∧
        text.normalizeBranchName requested ≠ text.normalizeBranchName base := by
  obtain ⟨requested, hrequested, h⟩ := (Option.any_eq_true _ _).mp h
  obtain ⟨base, hbase, h⟩ := (Option.any_eq_true _ _).mp h
  exact ⟨requested, hrequested, base, hbase, of_decide_eq_true h⟩

theorem reuse_reusable {live : Option PullRequestSnapshotInput} {prNumber : Int} {url : String}
    (hapart : text.normalizeBranchName plan.sanitizedHeadBranch ≠
      text.normalizeBranchName plan.baseBranch)
    (hopen : released live = false) (hcheckout : plan.headIsCheckout text = true)
    (hsame : plan.separateBase text (knownBase candidate live) = false)
    (hown : ¬ ReusesItself text plan candidate live) :
    Reusable text plan (reuse plan candidate live prNumber url) := by
  refine ⟨hcheckout, ?_⟩
  change _ ≠ text.normalizeBranchName ((knownBase candidate live).getD plan.baseBranch)
  cases hknown : knownBase candidate live with
  | none => exact hapart
  | some known => exact fun he => hown ⟨hopen, hcheckout, hsame, known, hknown, he⟩

/-- What the walk comes back with. -/
def Walked (text : Text) (plan : Plan) (id : Nat) (candidates : List PrArtifactHeadMatch)
    (reads : List LiveRead) : Except Failure (Option ExistingOpenPullRequest) → Prop
  | .error _ => True
  | .ok (some existing) => Reusable text plan existing
  | .ok none => ∀ c ∈ candidates, verifiable c = true → Passed text plan reads id c

theorem wp_walk (hapart : setup.text.normalizeBranchName plan.sanitizedHeadBranch ≠
      setup.text.normalizeBranchName plan.baseBranch) (candidates : List PrArtifactHeadMatch) :
    ∀ s₀ s, Reached setup.text id key s₀ s →
      (walk setup.text plan candidates).Wp (creationContract setup.text id)
        (creationAnswers setup id call)
        (fun s₀ u r => Reached setup.text id key s₀ u ∧ Progress setup.text key s u ∧
          Walked setup.text plan id candidates u.reads r) s₀ s := by
  induction candidates with
  | nil => exact fun s₀ s h => ⟨h, Progress.refl s, fun c hmem => absurd hmem List.not_mem_nil⟩
  | cons candidate rest ih =>
    intro s₀ s h
    -- the walk goes on, with the candidate left out or passed
    have hrest : ∀ s₀ t, Reached setup.text id key s₀ t → Progress setup.text key s t →
        (verifiable candidate = true → Passed setup.text plan t.reads id candidate) →
        (walk setup.text plan rest).Wp (creationContract setup.text id)
          (creationAnswers setup id call)
          (fun s₀ u r => Reached setup.text id key s₀ u ∧ Progress setup.text key s u ∧
            Walked setup.text plan id (candidate :: rest) u.reads r) s₀ t := by
      intro s₀ t ht hprogress hpassed
      refine (ih s₀ t ht).mono ?_
      intro s₀ u r hu
      obtain ⟨hreached, hmore, hwalked⟩ := hu
      refine ⟨hreached, hprogress.trans hmore, ?_⟩
      cases r with
      | error failure => exact trivial
      | ok existing =>
        cases existing with
        | some existing => exact hwalked
        | none =>
          intro c hmem hverifiable
          rcases List.mem_cons.mp hmem with rfl | hmem
          · exact (hpassed hverifiable).progress hmore
          · exact hwalked c hmem hverifiable
    unfold walk
    split
    next prNumber url _ _ =>
      refine Program.wp_bind ((wp_readLive h).mono ?_)
      intro s₀ t r ht
      obtain ⟨hreached, hprogress, live, rfl, hread, hown⟩ := ht
      dsimp only
      split
      next closed hclosed =>
        obtain ⟨hlive, hne⟩ := Option.filter_eq_some_iff.mp hclosed
        have hne := of_decide_eq_true hne
        refine Program.wp_bind ((wp_applyLiveSnapshot hne hreached).mono ?_)
        intro s₀ u r hu
        have hprogress' := hprogress.trans hu.2
        cases r with
        | error failure => exact ⟨hu.1, hprogress', trivial⟩
        | ok =>
          refine hrest s₀ u hu.1 hprogress' ?_
          intro _
          obtain ⟨read, hmem, hcall, hartifact, hlive'⟩ := hread.progress hu.2
          exact .inl ⟨read, hmem, hcall, hartifact, closed, hlive'.trans hlive, hne⟩
      next hopen =>
        have hreleased : released live = false := by
          cases live with
          | none => rfl
          | some live =>
            have hstate := Option.filter_eq_none_iff.mp hopen live rfl
            exact Bool.of_not_eq_true hstate
        split
        next => exact ⟨hreached, hprogress, trivial⟩
        next hcheckout =>
          have hcheckout : plan.headIsCheckout setup.text = true := by
            rw [Bool.not_eq_true', Bool.not_eq_false] at hcheckout
            exact hcheckout
          split
          next hseparate =>
            refine hrest s₀ t hreached hprogress ?_
            intro _
            obtain ⟨read, hmem, hcall, hartifact, hlive⟩ := hread
            refine .inr ⟨hcheckout, read, hmem, hcall, hartifact, ?_⟩
            rw [hlive]
            exact separateBase_spec hseparate
          next hsame =>
            exact ⟨hreached, hprogress,
              reuse_reusable hapart hreleased hcheckout (Bool.of_not_eq_true hsame) hown⟩
    next hunverifiable =>
      refine hrest s₀ s h (Progress.refl s) ?_
      intro hverifiable
      obtain ⟨hnumber, hurl⟩ := Bool.and_eq_true_iff.mp hverifiable
      obtain ⟨prNumber, hnumber⟩ := Option.isSome_iff_exists.mp hnumber
      obtain ⟨url, hurl⟩ := Option.isSome_iff_exists.mp hurl
      exact absurd hurl (hunverifiable prNumber url hnumber)

/-- What `resolveExistingOpenPullRequest` has found, as the artifacts are now. -/
def Resolved (text : Text) (plan : Plan) (id : Nat) (s : State) :
    Option ExistingOpenPullRequest → Prop
  | some existing => Reusable text plan existing
  | none => ∀ artifact ∈ s.artifacts, ∀ candidate, Stands text plan artifact candidate →
      Passed text plan s.reads id candidate

variable {existing : Option ExistingOpenPullRequest}

theorem Resolved.progress (h : Resolved text plan id s existing)
    (hprogress : Progress text (text.claimKey plan.targetRepo) s t) :
    Resolved text plan id t existing := by
  cases existing with
  | some existing => exact h
  | none =>
    intro artifact hmem candidate hstands
    exact (h artifact (hprogress.artifacts.stood hmem hstands) candidate hstands).progress hprogress

theorem wp_resolveExisting
    (hapart : setup.text.normalizeBranchName plan.sanitizedHeadBranch ≠
      setup.text.normalizeBranchName plan.baseBranch)
    (h : Reached setup.text id (setup.text.claimKey plan.targetRepo) s₀ s) :
    (resolveExistingOpenPullRequest setup.text plan
        (setup.text.listPrArtifactsForHead s.artifacts plan.branches)).Wp
      (creationContract setup.text id) (creationAnswers setup id call)
      (fun s₀ u r => Reached setup.text id (setup.text.claimKey plan.targetRepo) s₀ u ∧
        ∀ existing, r = .ok existing → Resolved setup.text plan id u existing) s₀ s := by
  refine Program.wp_bind ((wp_walk hapart _ s₀ s h).mono ?_)
  intro s₀ u r hu
  obtain ⟨hreached, hprogress, hwalked⟩ := hu
  cases r with
  | error failure => exact ⟨hreached, fun _ he => (by cases he)⟩
  | ok existing =>
    cases existing with
    | some existing =>
      refine ⟨hreached, ?_⟩
      intro _ he
      cases he
      exact hwalked
    | none =>
      dsimp only
      split
      next => exact ⟨hreached, fun _ he => (by cases he)⟩
      next hall =>
        refine ⟨hreached, ?_⟩
        intro _ he
        cases he
        intro artifact hmem candidate hstands
        have hold := hprogress.artifacts.stood hmem hstands
        have hlisted := mem_listPrArtifactsForHead.mpr ⟨artifact, hold, hstands.1⟩
        have hviable := List.mem_filter.mpr ⟨hlisted, hstands.2⟩
        refine hwalked candidate hviable ?_
        by_contra hverifiable
        exact hall (List.any_eq_true.mpr
          ⟨candidate, hviable, (Bool.not_eq_true' _).mpr (Bool.of_not_eq_true hverifiable)⟩)

/-! ### The push -/

/-- A plan that was made for its request, and whose head is not its base. -/
structure Plan.Made (text : Text) (plan : Plan) : Prop where
  made : plan.request.plan text plan.repoInfo = some plan
  apart : text.normalizeBranchName plan.sanitizedHeadBranch ≠
    text.normalizeBranchName plan.baseBranch

theorem plan_made (h : request.plan text repoInfo = some plan)
    (havailable : HeadAvailable text request repoInfo) :
    plan.Made text ∧ plan.request = request := by
  have hplan := h
  obtain ⟨sanitized, hsanitized, rfl⟩ := Option.map_eq_some_iff.mp h
  obtain ⟨hsanitized, _⟩ := Option.filter_eq_some_iff.mp hsanitized
  refine ⟨⟨hplan, ?_⟩, rfl⟩
  refine head_apart hsanitized ?_
  intro hbase hgenerated
  exact havailable hbase (Option.isSome_iff_exists.mpr ⟨_, hgenerated⟩)

theorem headIsCheckout_cases (h : plan.headIsCheckout text = true) :
    plan.source = .request ∨ text.normalizeBranchName plan.sanitizedHeadBranch =
      text.normalizeBranchName plan.generatedHeadBranch := by
  rcases Bool.or_eq_true_iff.mp h with hrequest | hgenerated
  · exact .inl (of_decide_eq_true hrequest)
  · exact .inr (of_decide_eq_true hgenerated)

theorem push_safe (hplan : plan.Made text)
    (h : Reached text id (text.claimKey plan.targetRepo) s₀ s)
    (hresolved : Resolved text plan id s existing) :
    Push.Safe text { s.moment id plan with spec := buildGitPushSpec plan, existing } where
  plan := hplan.made
  spec := rfl
  base := hplan.apart
  reused := by
    intro reused he
    cases he
    exact hresolved.2
  head := by
    intro artifact hmem candidate hstands
    have hcheckout : ∀ hcheckout : plan.headIsCheckout text = true,
        plan.source = .request ∨ text.normalizeBranchName plan.sanitizedHeadBranch =
            text.normalizeBranchName plan.generatedHeadBranch ∨
          ReadReleased s.reads id artifact := by
      intro hcheckout
      rcases headIsCheckout_cases hcheckout with hrequest | hgenerated
      · exact .inl hrequest
      · exact .inr (.inl hgenerated)
    cases existing with
    | some existing => exact hcheckout hresolved.1
    | none =>
      rcases hresolved artifact hmem candidate hstands with hreleased | hseparate
      · rw [hstands.artifact_eq] at hreleased
        exact .inr (.inr hreleased)
      · exact hcheckout hseparate.1
  claimed := h.claimed

theorem notePush_steps (hplan : plan.Made text)
    (h : Reached text id (text.claimKey plan.targetRepo) s₀ s)
    (hresolved : Resolved text plan id s existing) :
    Steps text id s (s.notePush id plan (buildGitPushSpec plan) existing) where
  inFlight := rfl
  claims := rfl
  calls := rfl
  ended := rfl
  progress := fun _ _ _ => ⟨fun _ h => h, Kept.refl _⟩
  pushes := by
    intro push hmem
    rcases List.mem_append.mp hmem with hold | hnew
    · exact .inl hold
    · rw [List.mem_singleton.mp hnew]
      exact .inr (push_safe hplan h hresolved)
  openings := fun _ h => .inl h

theorem noteOpening_steps (h : Reached text id (text.claimKey plan.targetRepo) s₀ s)
    (hresolved : Resolved text plan id s none) : Steps text id s (s.noteOpening id plan) where
  inFlight := rfl
  claims := rfl
  calls := rfl
  ended := rfl
  progress := fun _ _ _ => ⟨fun _ h => h, Kept.refl _⟩
  pushes := fun _ h => .inl h
  openings := by
    intro m hmem
    rcases List.mem_append.mp hmem with hold | hnew
    · exact .inl hold
    · rw [List.mem_singleton.mp hnew]
      refine .inr ⟨?_, h.claimed⟩
      intro artifact hstored candidate hstands
      rcases hresolved artifact hstored candidate hstands with hreleased | hseparate
      · rw [hstands.artifact_eq] at hreleased
        exact .inl hreleased
      · exact .inr hseparate.2

theorem createArtifact_steps {artifactId : String} {opened : PullRequestOpened}
    (h : Reached text id (text.claimKey plan.targetRepo) s₀ s) :
    Steps text id s (s.createArtifact plan artifactId opened) where
  inFlight := rfl
  claims := rfl
  calls := rfl
  ended := rfl
  progress := fun _ hmem hother =>
    ⟨fun _ h => h, createArtifact_kept s artifactId opened (h.others hmem hother)⟩
  pushes := fun _ h => .inl h
  openings := fun _ h => .inl h

theorem wp_recordOpened {opened : PullRequestOpened}
    (h : Reached setup.text id (setup.text.claimKey plan.targetRepo) s₀ s) :
    (recordOpened setup id plan opened).Wp (creationContract setup.text id)
      (creationAnswers setup id call)
      (fun s₀ u _ => Reached setup.text id (setup.text.claimKey plan.targetRepo) s₀ u) s₀ s := by
  refine Program.wp_bind ?_
  dsimp only [Program.gets, Program.Wp]
  refine Program.wp_bind ?_
  dsimp only [Program.gets, Program.Wp]
  split
  · exact h
  · refine Program.wp_bind ?_
    dsimp only [Program.modify, Program.Wp]
    refine Program.wp_bind (Program.wp_handle
      (wp_await (h.steps (createArtifact_steps h)) ?_))
    intro t answer u hreached _ _
    cases answer with
    | error failure => exact hreached
    | ok applied => exact hreached

variable {settings : ScmSettings}

theorem wp_openPullRequest (h : Reached setup.text id (setup.text.claimKey plan.targetRepo) s₀ s)
    (hresolved : Resolved setup.text plan id s none) :
    (openPullRequest setup id plan settings).Wp (creationContract setup.text id)
      (creationAnswers setup id call)
      (fun s₀ u _ => Reached setup.text id (setup.text.claimKey plan.targetRepo) s₀ u) s₀ s := by
  refine Program.wp_bind (wp_await h ?_)
  intro t answer u hreached hprogress _
  have hresolved := hresolved.progress hprogress
  cases answer with
  | error failure => exact hreached
  | ok authResolution =>
    dsimp only
    split
    next => exact hreached
    next =>
      refine Program.wp_bind ?_
      dsimp only [Program.modify, Program.Wp]
      refine Program.wp_bind (wp_await (hreached.steps (noteOpening_steps hreached hresolved)) ?_)
      intro t answer u hreached _ _
      cases answer with
      | error failure => exact hreached
      | ok opened =>
        refine Program.wp_bind ((wp_recordOpened hreached).mono ?_)
        intro s₀ u r hu
        cases r with
        | error failure => exact hu
        | ok => exact hu

theorem wp_pushAndOpen (hplan : plan.Made setup.text)
    (h : Reached setup.text id (setup.text.claimKey plan.targetRepo) s₀ s)
    (hresolved : Resolved setup.text plan id s existing) :
    (pushAndOpen setup id plan settings existing).Wp (creationContract setup.text id)
      (creationAnswers setup id call)
      (fun s₀ u _ => Reached setup.text id (setup.text.claimKey plan.targetRepo) s₀ u) s₀ s := by
  refine Program.wp_bind ?_
  dsimp only [Program.modify, Program.Wp]
  refine Program.wp_bind (wp_await (h.steps (notePush_steps hplan h hresolved)) ?_)
  intro t answer u hreached hprogress _
  have hnoted : Progress setup.text (setup.text.claimKey plan.targetRepo) s
      (s.notePush id plan (buildGitPushSpec plan) existing) := ⟨fun _ hr => hr, Kept.refl _⟩
  have hresolved := hresolved.progress (hnoted.trans hprogress)
  cases answer with
  | error failure => exact hreached
  | ok pushResult =>
    dsimp only
    split
    next => exact hreached
    next =>
      refine Program.wp_bind ?_
      dsimp only [Program.modify, Program.Wp]
      have hset : Steps setup.text id u (u.setBranch plan) ∧
          Progress setup.text (setup.text.claimKey plan.targetRepo) u (u.setBranch plan) :=
        setBranch_steps u plan
      have hreached := hreached.steps hset.1
      cases existing with
      | some existing => exact hreached
      | none => exact wp_openPullRequest hreached (hresolved.progress hset.2)

/-! ### The call -/

theorem wp_resolveScmSettings (h : Reached setup.text id key s₀ s) :
    (resolveScmSettings request).Wp (creationContract setup.text id)
      (creationAnswers setup id call) (fun s₀ u _ => Reached setup.text id key s₀ u) s₀ s := by
  refine Program.wp_handle (Program.wp_bind (wp_await h ?_))
  intro t answer u hreached _ _
  cases answer with
  | error failure => exact hreached
  | ok settings => exact hreached

theorem wp_resolvePushAuth (h : Reached setup.text id key s₀ s) :
    (resolvePushAuth request).Wp (creationContract setup.text id)
      (creationAnswers setup id call) (fun s₀ u _ => Reached setup.text id key s₀ u) s₀ s := by
  refine Program.wp_handle (Program.wp_bind (wp_await h ?_))
  intro t answer u hreached _ _
  cases answer with
  | error failure => exact hreached
  | ok =>
    refine Program.wp_bind (wp_await hreached ?_)
    intro t answer u hreached _ _
    cases answer with
    | error failure => exact hreached
    | ok => exact hreached

theorem wp_carryOut (h : Reached setup.text id (setup.text.claimKey request.target.repo) s₀ s)
    (havailable : HeadAvailable setup.text request repoInfo) :
    (carryOut setup id request settings repoInfo).Wp (creationContract setup.text id)
      (creationAnswers setup id call)
      (fun s₀ u _ => Reached setup.text id (setup.text.claimKey request.target.repo) s₀ u)
      s₀ s := by
  unfold carryOut
  split
  next => exact h
  next plan hplan =>
    obtain ⟨hmade, rfl⟩ := plan_made hplan havailable
    refine Program.wp_bind ?_
    dsimp only [Program.gets, Program.Wp]
    refine Program.wp_bind ((wp_resolveExisting hmade.apart h).mono ?_)
    intro s₀ u r hu
    cases r with
    | error failure => exact hu.1
    | ok existing => exact wp_pushAndOpen hmade hu.1 (hu.2 existing rfl)

theorem wp_createClaimed
    (h : Reached setup.text id (setup.text.claimKey request.target.repo) s₀ s) :
    (createClaimed setup id request).Wp (creationContract setup.text id)
      (creationAnswers setup id call)
      (fun s₀ u _ => Reached setup.text id (setup.text.claimKey request.target.repo) s₀ u)
      s₀ s := by
  refine Program.wp_bind ((wp_resolveScmSettings h).mono ?_)
  intro s₀ u r hu
  cases r with
  | error failure => exact hu
  | ok scmSettings =>
    cases scmSettings with
    | error result => exact hu
    | ok settings =>
      refine Program.wp_bind ((wp_resolvePushAuth hu).mono ?_)
      intro s₀ u r hu
      cases r with
      | error failure => exact hu
      | ok pushAuth =>
        cases pushAuth with
        | error result => exact hu
        | ok =>
          refine Program.wp_bind (wp_await hu ?_)
          intro t answer u hreached _ hu
          cases answer with
          | error failure => exact hreached
          | ok repoInfo => exact wp_carryOut hreached (answers_getRepository hu)

/-! ## Claims -/

theorem Free.claim (h : Free text id s₀ s) (hrunning : id ∉ s.ended)
    (hfree : s.inFlight.contains key = false) : Reached text id key s₀ (s.claim id key) where
  inv := {
    exclusive := {
      inFlight := by
        change s.inFlight ++ [key] = (s.claims ++ ([{ call := id, key }] : List Claim)).map (·.key)
        rw [List.map_append, ← h.inv.exclusive.inFlight]
        rfl
      distinct := by
        refine List.pairwise_append.mpr
          ⟨h.inv.exclusive.distinct, List.pairwise_singleton _ _, ?_⟩
        intro c hmem c' hmem' he
        rw [List.mem_singleton.mp hmem'] at he
        have hkey : key ∈ s.inFlight := by
          rw [h.inv.exclusive.inFlight]
          exact List.mem_map.mpr ⟨c, hmem, he⟩
        rw [List.contains_iff_mem.mpr hkey] at hfree
        cases hfree
      made := by
        intro c hmem
        rcases List.mem_append.mp hmem with hold | hnew
        · exact h.inv.exclusive.made c hold
        · rw [List.mem_singleton.mp hnew]
          exact h.made
      underWay := by
        intro c hmem
        rcases List.mem_append.mp hmem with hold | hnew
        · exact h.inv.exclusive.underWay c hold
        · rw [List.mem_singleton.mp hnew]
          exact hrunning }
    ended := h.inv.ended
    pushes := h.inv.pushes
    openings := h.inv.openings }
  guar := by
    intro other hne
    refine (h.guar other hne).trans ⟨?_, fun _ _ _ => ⟨fun _ hr => hr, Kept.refl _⟩⟩
    intro c hc
    refine ⟨?_, fun hmem => List.mem_append_left _ hmem⟩
    intro hmem
    rcases List.mem_append.mp hmem with hold | hnew
    · exact hold
    · rw [List.mem_singleton.mp hnew] at hc
      exact absurd hc.symm hne
  claimed := List.mem_append_right _ (List.mem_singleton_self _)
  only := by
    intro c hmem hc
    rcases List.mem_append.mp hmem with hold | hnew
    · exact absurd hc (h.free c hold)
    · rw [List.mem_singleton.mp hnew]

/-- Releasing a key takes the claim of the call away, and no other. -/
theorem Reached.release_inFlight (h : Reached text id key s₀ s) :
    s.inFlight.filter (· ≠ key) =
      (s.claims.filter (· ≠ ({ call := id, key } : Claim))).map (·.key) := by
  rw [h.inv.exclusive.inFlight, List.filter_map]
  refine congrArg (List.map _) (List.filter_congr ?_)
  intro c hmem
  refine decide_eq_decide.mpr (not_congr ?_)
  constructor
  · intro hkey
    by_contra hne
    have hother : c.call ≠ id := by
      intro hcall
      obtain ⟨call, ckey⟩ := c
      cases hcall
      cases hkey
      exact hne rfl
    exact h.others hmem hother hkey.symm
  · intro he
    rw [he]

theorem Reached.release (h : Reached text id key s₀ s) : Free text id s₀ (s.release id key) where
  inv := {
    exclusive := {
      inFlight := h.release_inFlight
      distinct := h.inv.exclusive.distinct.filter _
      made := fun c hmem => h.inv.exclusive.made c (List.mem_filter.mp hmem).1
      underWay := fun c hmem => h.inv.exclusive.underWay c (List.mem_filter.mp hmem).1 }
    ended := h.inv.ended
    pushes := h.inv.pushes
    openings := h.inv.openings }
  guar := by
    intro other hne
    refine (h.guar other hne).trans ⟨?_, fun _ _ _ => ⟨fun _ hr => hr, Kept.refl _⟩⟩
    intro c hc
    refine ⟨fun hmem => (List.mem_filter.mp hmem).1, ?_⟩
    intro hmem
    refine List.mem_filter.mpr ⟨hmem, decide_eq_true ?_⟩
    intro he
    rw [he] at hc
    exact hne hc.symm
  free := by
    intro c hmem hc
    obtain ⟨hmem, hne⟩ := List.mem_filter.mp hmem
    have hkey := h.only c hmem hc
    obtain ⟨call, ckey⟩ := c
    cases hc
    cases hkey
    exact of_decide_eq_true hne rfl
  made := h.made

theorem wp_createForTarget (h : Free setup.text id s₀ s) (hrunning : id ∉ s.ended) :
    (createForTarget setup id request).Wp (creationContract setup.text id)
      (creationAnswers setup id call) (fun s₀ u _ => Free setup.text id s₀ u) s₀ s := by
  refine Program.wp_bind (Program.wp_bind ?_)
  dsimp only [Program.gets, Program.Wp]
  split
  · exact h
  next hfree =>
    refine Program.wp_bind ?_
    dsimp only [Program.modify, Program.Wp]
    have hclaimed := h.claim hrunning (Bool.of_not_eq_true hfree)
    refine Program.wp_ensure (Program.wp_handle ((wp_createClaimed hclaimed).mono ?_))
    intro s₀ u r hu
    cases r with
    | ok result => exact hu.release
    | error failure => exact hu.release

theorem wp_createPullRequest {input : CreatePullRequestInput} (h : Free setup.text id s₀ s)
    (hrunning : id ∉ s.ended) :
    (createPullRequest setup id input).Wp (creationContract setup.text id)
      (creationAnswers setup id call) (fun s₀ u _ => Free setup.text id s₀ u) s₀ s := by
  refine Program.wp_bind ?_
  dsimp only [Program.gets, Program.Wp]
  refine Program.wp_bind ?_
  dsimp only [Program.gets, Program.Wp]
  split
  next => exact h
  next session _ =>
    split
    next => exact h
    next scalarRepo _ =>
      split
      next => exact h
      next => exact wp_createForTarget h hrunning

/-! ## Calls in progress -/

theorem Free.left (h : Free setup.text id s₀ s) {r : Except Failure CreatePullRequestResult} :
    (creationServer setup).Left (creationContract setup.text) id call s₀ s r where
  inv := {
    exclusive := {
      inFlight := h.inv.exclusive.inFlight
      distinct := h.inv.exclusive.distinct
      made := h.inv.exclusive.made
      underWay := by
        intro c hmem hended
        rcases List.mem_append.mp hended with hold | hnew
        · exact h.inv.exclusive.underWay c hmem hold
        · exact h.free c hmem (List.mem_singleton.mp hnew) }
    ended := by
      intro i hmem
      rcases List.mem_append.mp hmem with hold | hnew
      · exact h.inv.ended i hold
      · rw [List.mem_singleton.mp hnew]
        exact h.made
    pushes := h.inv.pushes
    openings := h.inv.openings }
  guar := by
    intro other hne
    have hrely := h.guar other hne
    exact ⟨hrely.claims, fun c hmem hc =>
      ⟨(hrely.progress c hmem hc).reads, (hrely.progress c hmem hc).artifacts⟩⟩

/-- A call that is made. -/
theorem made_free (h : Inv text s) (hfresh : s.calls ≤ id) :
    Free text id s { s with calls := id + 1 } ∧ id ∉ s.ended where
  left := {
    inv := {
      exclusive := {
        inFlight := h.exclusive.inFlight
        distinct := h.exclusive.distinct
        made := fun c hmem =>
          Nat.lt_succ_of_le (Nat.le_trans (Nat.le_of_lt (h.exclusive.made c hmem)) hfresh)
        underWay := h.exclusive.underWay }
      ended := fun i hmem =>
        Nat.lt_succ_of_le (Nat.le_trans (Nat.le_of_lt (h.ended i hmem)) hfresh)
      pushes := h.pushes
      openings := h.openings }
    guar := fun _ _ => ⟨fun _ _ => Iff.rfl, fun _ _ _ => ⟨fun _ hr => hr, Kept.refl _⟩⟩
    free := by
      intro c hmem hc
      exact absurd (hc ▸ h.exclusive.made c hmem) (Nat.not_lt.mpr hfresh)
    made := Nat.lt_succ_self id }
  right := fun hmem => absurd (h.ended id hmem) (Nat.not_lt.mpr hfresh)

/-- Where no repository is claimed, nobody relies on the rows. -/
theorem Free.rest (h : Free text id s₀ s) (hidle : s₀.claims = []) (session : Option SessionRow)
    (repositories : List SessionRepositoryRow) (artifacts : List StoredArtifact) :
    Free text id s₀ { s with session, repositories, artifacts } where
  inv := {
    exclusive := ⟨h.inv.exclusive.inFlight, h.inv.exclusive.distinct, h.inv.exclusive.made,
      h.inv.exclusive.underWay⟩
    ended := h.inv.ended
    pushes := h.inv.pushes
    openings := h.inv.openings }
  guar := by
    intro other hne
    refine ⟨(h.guar other hne).claims, ?_⟩
    intro c hmem
    rw [hidle] at hmem
    exact absurd hmem List.not_mem_nil
  free := h.free
  made := h.made

theorem Exclusive.claims_nil (h : Exclusive s) (hidle : s.inFlight = []) : s.claims = [] :=
  List.map_eq_nil_iff.mp (h.inFlight.symm.trans hidle)

theorem creation_sound : (creationServer setup).Sound (headApart setup.text)
    (creationContract setup.text) (Inv setup.text) where
  inv_eq := fun _ => rfl
  refl := Rely.refl
  trans := fun _ _ _ _ => Rely.trans
  compatible := fun _ j _ _ hne hguar => hguar j (Ne.symm hne)
  stable := fun _ _ _ _ _ => trivial
  enters := by
    intro id call s t hinv _ henter
    obtain ⟨hfresh, henter⟩ := Option.ite_none_right_eq_some.mp henter
    obtain ⟨hfree, hrunning⟩ := made_free hinv hfresh
    cases call with
    | createPullRequest input =>
      cases henter
      exact (wp_createPullRequest hfree hrunning).mono fun _ _ _ hs => hs.left
    | rest session repositories artifacts =>
      obtain ⟨hidle, henter⟩ := Option.ite_none_right_eq_some.mp henter
      cases henter
      have hidle := List.isEmpty_iff.mp hidle
      exact (hfree.rest (hinv.exclusive.claims_nil hidle) session repositories artifacts).left

theorem inv_initial (text : Text) : Inv text State.initial where
  exclusive := ⟨rfl, List.Pairwise.nil, fun _ h => absurd h List.not_mem_nil,
    fun _ h => absurd h List.not_mem_nil⟩
  ended := fun _ h => absurd h List.not_mem_nil
  pushes := fun _ h => absurd h List.not_mem_nil
  openings := fun _ h => absurd h List.not_mem_nil

/-- **A pull request call never pushes over the wrong branch and opens no second pull request**, in
the runs in which it has a head that is not its base, and claims are exclusive and released. -/
theorem pull_requests_apart (setup : Setup)
    (pool : Pool State Call CreationOp CreationOp.Answer Failure CreatePullRequestResult)
    (h : (creationServer setup).system.Reachable (headApart setup.text).Allows
      (Server.idle State.initial) pool) :
    (∀ push ∈ pool.shared.pushes, push.Safe setup.text) ∧
      (∀ m ∈ pool.shared.openings, m.Opens setup.text) ∧ Exclusive pool.shared := by
  have hinv : Inv setup.text pool.shared := (creation_sound.reachable (inv_initial _) h).inv
  exact ⟨hinv.pushes, hinv.openings, hinv.exclusive⟩

/-- For names that are trimmed and in lower case. -/
def plainSetup : Setup where
  text :=
    { trim := fun s => s
      toLowerCase := fun s => s
      trim_trim := fun _ => rfl
      lower_again := fun _ => rfl }
  appName := "Open-Inspect"
  generateId := fun _ => "artifact-1"

def plainSession (branch_name : Option String) : SessionRow where
  id := "1"
  session_name := some "s1"
  repo_owner := some "acme"
  repo_name := some "web"
  base_branch := some "main"
  branch_name

def plainInput (baseBranch headBranch : Option String) : CreatePullRequestInput where
  title := "Title"
  body := "Body"
  baseBranch
  headBranch
  repo := { repoOwner := "acme", repoName := "web" }
  sessionUrl := "https://app/session/s1"
  draft := none

/-- The next operation of the call at the head of the pool comes back. -/
def resumed (outcome : Outcome) : Act Call Choice := .resume 0 { now := 1000, outcome }

def prepared : List (Act Call Choice) :=
  [resumed (.settings { alwaysUseDraftMode := none, pullRequestLabel := none }), resumed .done,
    resumed .done,
    resumed (.repository { owner := "acme", name := "web", defaultBranch := "main" })]

def openedOne : PullRequestOpened where
  id := 7
  webUrl := "https://scm/pull/7"
  lifecycleState := .opened
  isDraft := false
  headSha := none
  repositoryExternalId := none
  providerUpdatedAt := none
  draft_open := fun _ => rfl

/-- A pull request is opened, while a second call is turned away; a third one pushes to it, as its
live read fails. -/
def pushedTwice : List (Act Call Choice) :=
  [.call (.rest (some (plainSession none)) [] []),
    .call (.createPullRequest (plainInput none (some "feature")))] ++ prepared ++
  [.call (.createPullRequest (plainInput none (some "feature"))), resumed (.pushed (.ok ())),
    resumed (.auth (.ok ())), resumed (.opened openedOne), resumed (.applied true),
    .call (.createPullRequest (plainInput none (some "feature")))] ++ prepared ++
  [resumed (.throws (.other none)), resumed (.pushed (.ok ()))]

instance (text : Text) (request : Request) (repoInfo : RepositoryInfo) :
    Decidable (HeadAvailable text request repoInfo) := by
  unfold HeadAvailable
  infer_instance

instance (text : Text) (plan : Plan) (candidate : PrArtifactHeadMatch)
    (live : Option PullRequestSnapshotInput) :
    Decidable (ReusesItself text plan candidate live) := by
  unfold ReusesItself
  cases knownBase candidate live with
  | none => exact .isFalse fun h => (by obtain ⟨_, _, _, _, hnone, _⟩ := h; cases hnone)
  | some known =>
    refine decidable_of_iff (released live = false ∧ plan.headIsCheckout text = true ∧
      plan.separateBase text (some known) = false ∧
      text.normalizeBranchName plan.sanitizedHeadBranch = text.normalizeBranchName known) ?_
    simp

instance (text : Text) (o : CreationOp) (outcome : Outcome) :
    Decidable (HeadApart text o outcome) := by
  unfold HeadApart
  split <;> infer_instance

instance (text : Text)
    (pool : Pool State Call CreationOp CreationOp.Answer Failure CreatePullRequestResult)
    (act : Act Call Choice) : Decidable ((headApart text).Allows pool act) := by
  unfold Condition.Allows headApart
  split <;> infer_instance

theorem pull_requests_apart_twice : ∃ s : State,
    s.pushes.length = 2 ∧ s.openings.length = 1 ∧ (∃ push ∈ s.pushes, push.existing.isSome) ∧
      ∀ push ∈ s.pushes, push.Safe plainSetup.text := by
  have hrun : ((creationServer plainSetup).system.run (headApart plainSetup.text).Allows
      (Server.idle State.initial) pushedTwice).any
      (fun pool => pool.shared.pushes.length = 2 ∧ pool.shared.openings.length = 1 ∧
        ∃ push ∈ pool.shared.pushes, push.existing.isSome) = true := by
    decide +kernel
  obtain ⟨pool, hpool, hfacts⟩ := (Option.any_eq_true _ _).mp hrun
  obtain ⟨hpushes, hopenings, hexisting⟩ := of_decide_eq_true hfacts
  have hsafe := pull_requests_apart plainSetup pool (System.run_reachable hpool)
  exact ⟨pool.shared, hpushes, hopenings, hexisting, hsafe.1⟩

/-- The last branch of the session is its generated one, which the call asks to merge into. -/
def pushedBase : List (Act Call Choice) :=
  [.call (.rest (some (plainSession (some "open-inspect/s1"))) [] []),
    .call (.createPullRequest (plainInput (some "open-inspect/s1") none))] ++ prepared

theorem base_pushed : ∃ pool,
    (creationServer plainSetup).system.Reachable anyStep (Server.idle State.initial) pool ∧
      ∃ push ∈ pool.shared.pushes, push.spec.force = true ∧
        plainSetup.text.normalizeBranchName push.spec.targetBranch =
          plainSetup.text.normalizeBranchName push.plan.baseBranch := by
  have hrun : ((creationServer plainSetup).system.run anyStep (Server.idle State.initial)
      pushedBase).any
      (fun pool => ∃ push ∈ pool.shared.pushes, push.spec.force = true ∧
        plainSetup.text.normalizeBranchName push.spec.targetBranch =
          plainSetup.text.normalizeBranchName push.plan.baseBranch) = true := by
    decide +kernel
  obtain ⟨pool, hpool, hfacts⟩ := (Option.any_eq_true _ _).mp hrun
  exact ⟨pool, System.run_reachable hpool, of_decide_eq_true hfacts⟩

end BackgroundAgents.PullRequests.Creation

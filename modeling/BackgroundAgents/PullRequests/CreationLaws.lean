import BackgroundAgents.PullRequests.Creation

/-!
# What a pull request call may do

The call pushes no base branch, no head that another pull request still holds
unless it is the call's own checkout, and opens no second pull request for a head
(`Push.Safe`, `Moment.Opens`); and a claim is held by one call that is under way
(`Exclusive`).

The base is pushed where `resolveHeadBranchForPr` falls through all of its
candidates to the generated branch, which it has just skipped for being the base.
`HeadAvailable` excludes this; `ReusesItself` is a pull request that asks to
merge a branch into itself.
-/

namespace BackgroundAgents.PullRequests.Creation

open Programs

/-- A stored pull request of the repository of a plan, on its head, that is not stored as closed or
merged. -/
def Stands (text : Text) (plan : Plan) (artifact : StoredArtifact)
    (candidate : PrArtifactHeadMatch) : Prop :=
  text.headMatch plan.branches artifact = some candidate ∧ viable candidate = true

/-- The call has read the pull request live as closed or merged. -/
def ReadReleased (reads : List LiveRead) (call : Nat) (artifact : StoredArtifact) : Prop :=
  ∃ r ∈ reads, r.call = call ∧ r.artifact = artifact ∧
    ∃ live, r.live = some live ∧ live.lifecycleState ≠ .opened

/-- The pull request's base is known, live or as stored, and the call has asked for another one. -/
def ReadSeparate (text : Text) (plan : Plan) (reads : List LiveRead) (call : Nat)
    (candidate : PrArtifactHeadMatch) : Prop :=
  ∃ r ∈ reads, r.call = call ∧ r.artifact = candidate.artifact ∧
    ∃ requested, plan.request.input.baseBranch = some requested ∧
      ∃ known, knownBase candidate r.live = some known ∧
        text.normalizeBranchName requested ≠ text.normalizeBranchName known

/-- The call holds the claim of its repository. -/
def Moment.Claimed (text : Text) (m : Moment) : Prop :=
  { call := m.call, key := text.claimKey m.plan.targetRepo } ∈ m.claims

structure Push.Safe (text : Text) (push : Push) : Prop where
  plan : push.plan.request.plan text push.plan.repoInfo = some push.plan
  spec : push.spec = buildGitPushSpec push.plan
  base : text.normalizeBranchName push.spec.targetBranch ≠
    text.normalizeBranchName push.plan.baseBranch
  reused : ∀ existing, push.existing = some existing →
    text.normalizeBranchName push.spec.targetBranch ≠
      text.normalizeBranchName existing.baseBranch
  head : ∀ artifact ∈ push.stored, ∀ candidate, Stands text push.plan artifact candidate →
    push.plan.source = .request ∨
      text.normalizeBranchName push.spec.targetBranch =
        text.normalizeBranchName push.plan.generatedHeadBranch ∨
      ReadReleased push.reads push.call artifact
  claimed : push.toMoment.Claimed text

/-- What holds where a pull request is opened. -/
structure Moment.Opens (text : Text) (m : Moment) : Prop where
  single : ∀ artifact ∈ m.stored, ∀ candidate, Stands text m.plan artifact candidate →
    ReadReleased m.reads m.call artifact ∨ ReadSeparate text m.plan m.reads m.call candidate
  claimed : m.Claimed text

/-- No repository is claimed twice, and every claim is that of a call under way. -/
structure Exclusive (s : State) : Prop where
  inFlight : s.inFlight = s.claims.map (·.key)
  distinct : s.claims.Pairwise fun c c' => c.key ≠ c'.key
  made : ∀ c ∈ s.claims, c.call < s.calls
  underWay : ∀ c ∈ s.claims, c.call ∉ s.ended

/-! ## The condition -/

/-- Where the generated branch is the base, the requested head or the branch of the session can be
pushed instead. -/
def HeadAvailable (text : Text) (request : Request) (repoInfo : RepositoryInfo) : Prop :=
  let params := request.headParams text repoInfo
  text.normalizeBranchName params.generatedBranchName =
      text.normalizeBranchName params.baseBranch →
    (text.sanitizeBranchName (some params.generatedBranchName)).isSome = true →
      (text.usableHead params.baseBranch params.requestedHeadBranch).isSome = true ∨
        (text.usableHead params.baseBranch params.sessionBranchName).isSome = true

/-- An open pull request that the call takes for its own, and whose base is known to be its head. -/
def ReusesItself (text : Text) (plan : Plan) (candidate : PrArtifactHeadMatch)
    (live : Option PullRequestSnapshotInput) : Prop :=
  released live = false ∧ plan.headIsCheckout text = true ∧
    plan.separateBase text (knownBase candidate live) = false ∧
    ∃ known, knownBase candidate live = some known ∧
      text.normalizeBranchName plan.sanitizedHeadBranch = text.normalizeBranchName known

def HeadApart (text : Text) (o : CreationOp) (outcome : Outcome) : Prop :=
  match o, outcome with
  | .getRepository request, .repository repoInfo => HeadAvailable text request repoInfo
  | .getPullRequest plan candidate, .live snapshot =>
    ¬ ReusesItself text plan candidate (some snapshot)
  | .getPullRequest plan candidate, .throws _ => ¬ ReusesItself text plan candidate none
  | _, _ => True

def headApart (text : Text) : Condition State Call CreationOp Choice where
  call := fun _ _ => True
  answer := fun _ _ o choice _ => HeadApart text o choice.outcome

/-! ## Artifacts that change -/

/-- Stored as closed or merged. -/
def Settled (artifact : StoredArtifact) : Prop :=
  ∃ state, (artifact.properties.string? "lifecycleState").bind LifecycleState.ofText = some state ∧
    state ≠ .opened

/-- The pull request of another repository, by its own account. -/
def Foreign (text : Text) (key : String) (artifact : StoredArtifact) : Prop :=
  ∃ repo, prArtifactRepoFromMetadata artifact.properties = some repo ∧ text.claimKey repo ≠ key

/-- How the artifacts change beside the call which has claimed a repository. -/
def Kept (text : Text) (key : String) (old new : List StoredArtifact) : Prop :=
  ∀ artifact ∈ new, artifact ∈ old ∨ Settled artifact ∨ Foreign text key artifact

variable {text : Text} {plan : Plan} {key : String} {artifact : StoredArtifact}
  {candidate : PrArtifactHeadMatch} {s t u : State} {old mid new : List StoredArtifact}

theorem Kept.refl (artifacts : List StoredArtifact) : Kept text key artifacts artifacts :=
  fun _ hmem => .inl hmem

theorem Kept.trans (h : Kept text key old mid) (h' : Kept text key mid new) :
    Kept text key old new := by
  intro artifact hmem
  rcases h' artifact hmem with hmid | hother
  · exact h artifact hmid
  · exact .inr hother

/-- What a match says of its artifact. -/
theorem headMatch_some {branches : HeadBranch}
    (h : text.headMatch branches artifact = some candidate) :
    text.prArtifactBelongsToRepo (prArtifactRepoFromMetadata artifact.properties)
        branches.targetRepo branches.isPrimary = true ∧
      candidate.artifact = artifact ∧
      candidate.lifecycleState =
        (artifact.properties.string? "lifecycleState").bind LifecycleState.ofText := by
  unfold Text.headMatch at h
  obtain ⟨_, h⟩ := Option.ite_none_left_eq_some.mp h
  obtain ⟨hbelongs, h⟩ := Option.ite_none_left_eq_some.mp h
  obtain ⟨_, h⟩ := Option.ite_none_left_eq_some.mp h
  cases h
  exact ⟨(Bool.not_eq_false' _).mp (Bool.of_not_eq_true hbelongs), rfl, rfl⟩

theorem Stands.artifact_eq (h : Stands text plan artifact candidate) :
    candidate.artifact = artifact :=
  (headMatch_some h.1).2.1

theorem Stands.not_settled (h : Stands text plan artifact candidate) : ¬ Settled artifact := by
  intro hsettled
  obtain ⟨state, hstate, hne⟩ := hsettled
  have hviable := h.2
  unfold viable at hviable
  rw [(headMatch_some h.1).2.2, hstate] at hviable
  exact hne (of_decide_eq_true hviable)

theorem claimKey_eq {a b : RepoIdentity} (h : text.repoIdentityEquals a b = true) :
    text.claimKey a = text.claimKey b := by
  obtain ⟨howner, hname⟩ := Bool.and_eq_true_iff.mp h
  unfold Text.claimKey
  rw [of_decide_eq_true howner, of_decide_eq_true hname]

theorem Stands.not_foreign (h : Stands text plan artifact candidate) :
    ¬ Foreign text (text.claimKey plan.targetRepo) artifact := by
  intro hforeign
  obtain ⟨repo, hrepo, hne⟩ := hforeign
  have hbelongs := (headMatch_some h.1).1
  rw [hrepo] at hbelongs
  exact hne (claimKey_eq hbelongs)

/-- A pull request that stands has stood before. -/
theorem Kept.stood (h : Kept text (text.claimKey plan.targetRepo) old new) (hmem : artifact ∈ new)
    (hstands : Stands text plan artifact candidate) : artifact ∈ old := by
  rcases h artifact hmem with hold | hsettled | hforeign
  · exact hold
  · exact absurd hsettled hstands.not_settled
  · exact absurd hforeign hstands.not_foreign

theorem string?_lifecycleState (existing : Metadata) (live : PullRequestSnapshotInput) :
    (mergeSnapshotMetadata existing live).string? "lifecycleState" =
      some live.lifecycleState.text := by
  simp [Metadata.string?, get?_merge]

theorem repo_merge (existing : Metadata) (live : PullRequestSnapshotInput) :
    prArtifactRepoFromMetadata (mergeSnapshotMetadata existing live) =
      some { repoOwner := live.repoOwner, repoName := live.repoName } := by
  simp [prArtifactRepoFromMetadata, Metadata.string?, get?_merge]

/-- A snapshot that is not open settles its artifact. -/
theorem settled_merge {row : ArtifactRow} {live : PullRequestSnapshotInput} {updatedAt : Int}
    {prepared : PullRequestArtifactUpdate} (hclosed : live.lifecycleState ≠ .opened)
    (h : preparePullRequestArtifactUpdate row live updatedAt = some prepared)
    (artifact : StoredArtifact) :
    Settled { artifact with
      toArtifactRow := updateArtifact artifact.toArtifactRow prepared.update } := by
  unfold preparePullRequestArtifactUpdate at h
  obtain ⟨_, h⟩ := Option.ite_none_left_eq_some.mp h
  obtain ⟨_, h⟩ := Option.ite_none_left_eq_some.mp h
  cases h
  refine ⟨live.lifecycleState, ?_, hclosed⟩
  change ((mergeSnapshotMetadata (parsePullRequestArtifactMetadata row.metadata) live).string?
    "lifecycleState").bind LifecycleState.ofText = some live.lifecycleState
  rw [string?_lifecycleState, Option.bind_some, LifecycleState.ofText_text]

theorem applySnapshot_kept (s : State) (artifactId : String) {live : PullRequestSnapshotInput}
    (hclosed : live.lifecycleState ≠ .opened) :
    Kept text key s.artifacts (s.applySnapshot artifactId live).artifacts := by
  unfold State.applySnapshot
  split
  · exact Kept.refl _
  · split
    · exact Kept.refl _
    next prepared hprepared =>
      intro artifact hmem
      obtain ⟨stored, hstored, rfl⟩ := List.mem_map.mp hmem
      split
      · exact .inr (.inl (settled_merge hclosed hprepared stored))
      · exact .inl hstored

theorem createArtifact_kept (s : State) (id : String) (opened : PullRequestOpened)
    (hne : text.claimKey plan.targetRepo ≠ key) :
    Kept text key s.artifacts (s.createArtifact plan id opened).artifacts := by
  intro artifact hmem
  rcases List.mem_append.mp hmem with hold | hnew
  · exact .inl hold
  · rw [List.mem_singleton.mp hnew]
    exact .inr (.inr ⟨plan.targetRepo, repo_merge [] (openedSnapshot plan opened), hne⟩)

end BackgroundAgents.PullRequests.Creation

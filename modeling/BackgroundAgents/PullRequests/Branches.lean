import Mathlib.Data.List.Sort
import BackgroundAgents.PullRequests.Snapshot

/-!
# The branches and the repository of a pull request

How a pull request call finds its target repository among the members of the
session (`resolveSessionRepositoryTarget`), the branch that it pushes
(`resolveHeadBranchForPr`), and the `pr` artifacts which stand for the pull
requests of that repository on that branch (`listPrArtifactsForHead`).
-/

namespace BackgroundAgents.PullRequests

/-- `trim` and `toLowerCase`, which change nothing when they are applied again. -/
structure Text where
  trim : String → String
  toLowerCase : String → String
  trim_trim : ∀ s, trim (trim s) = trim s
  lower_again : ∀ s, toLowerCase (trim (toLowerCase (trim s))) = toLowerCase (trim s)

namespace Text

variable (text : Text)

/-! ## Branch names -/

def normalizeBranchName (name : String) : String := text.toLowerCase (text.trim name)

def generateBranchName (sessionId : String) : String :=
  text.normalizeBranchName ("open-inspect/" ++ sessionId)

/-- What no branch name of a request may have. -/
def malformed (trimmed : String) : Bool :=
  let cs := trimmed.toList
  cs.head? = some '/' || cs.getLast? = some '/' || cs.head? = some '.' || cs.getLast? = some '.' ||
    cs.contains ' ' || cs.tails.any (['.', '.'].isPrefixOf ·) ||
    cs.tails.any (['@', '\x7b'].isPrefixOf ·) ||
    cs.any (['~', '^', ':', '?', '*', '[', ']', '\\'].contains ·)

def sanitizeBranchName : Option String → Option String
  | none => none
  | some name =>
    let trimmed := text.trim name
    if name = "" || trimmed = "" || trimmed = "HEAD" || malformed trimmed then none
    else some (text.normalizeBranchName trimmed)

end Text

inductive HeadSource where
  | request
  | session
  | generated
  deriving DecidableEq, Repr

structure ResolveHeadBranchForPrInput where
  requestedHeadBranch : Option String
  sessionBranchName : Option String
  generatedBranchName : String
  baseBranch : String

structure ResolveHeadBranchForPrResult where
  headBranch : String
  source : HeadSource
  deriving DecidableEq

namespace Text

variable (text : Text)

/-- A candidate for the head, unless it is no branch name or the base. -/
def usableHead (baseBranch : String) (value : Option String) : Option String :=
  (text.sanitizeBranchName value).filter fun sanitized =>
    sanitized ≠ "" && text.normalizeBranchName sanitized ≠ text.normalizeBranchName baseBranch

def resolveHeadBranchForPr (params : ResolveHeadBranchForPrInput) : ResolveHeadBranchForPrResult :=
  let candidates : List (Option String × HeadSource) :=
    [(params.requestedHeadBranch, .request), (params.sessionBranchName, .session),
      (some params.generatedBranchName, .generated)]
  let resolved := candidates.findSome? fun candidate =>
    (text.usableHead params.baseBranch candidate.1).map fun headBranch =>
      { headBranch, source := candidate.2 : ResolveHeadBranchForPrResult }
  resolved.getD { headBranch := params.generatedBranchName, source := .generated }

end Text

/-! ## Repositories -/

structure RepoIdentity where
  repoOwner : String
  repoName : String
  deriving DecidableEq, Repr

structure SessionRow where
  id : String
  session_name : Option String
  repo_owner : Option String
  repo_name : Option String
  base_branch : Option String
  branch_name : Option String
  deriving DecidableEq, Repr

structure SessionRepositoryRow where
  position : Nat
  repo_owner : String
  repo_name : String
  base_branch : String
  branch_name : Option String
  deriving DecidableEq, Repr

structure SessionRepositoryEntry where
  repo : RepoIdentity
  position : Nat
  baseBranch : Option String
  isPrimary : Bool
  row : Option SessionRepositoryRow
  deriving DecidableEq, Repr

inductive RepositoryTargetError where
  | pair
  | ambiguous (members : List SessionRepositoryEntry)
  | notMember (requested : RepoIdentity)

namespace RepositoryTargetError

/-- `mapRepositoryTargetError` -/
def status : RepositoryTargetError → Nat
  | .notMember _ => 403
  | _ => 400

def message : RepositoryTargetError → String
  | .pair => "repoOwner and repoName must be provided together"
  | .ambiguous members =>
    let names := members.map fun member => member.repo.repoOwner ++ "/" ++ member.repo.repoName
    "This session spans multiple repositories — specify repoOwner and repoName (one of: " ++
      ", ".intercalate names ++ ")"
  | .notMember requested =>
    "Repository " ++ requested.repoOwner ++ "/" ++ requested.repoName ++
      " is not part of this session"

end RepositoryTargetError

namespace Text

variable (text : Text)

def repoIdentityEquals (a b : RepoIdentity) : Bool :=
  text.toLowerCase a.repoOwner = text.toLowerCase b.repoOwner &&
    text.toLowerCase a.repoName = text.toLowerCase b.repoName

def buildSessionRepositories (scalarRepo : RepoIdentity) (baseBranch : Option String)
    (rows : List SessionRepositoryRow) : List SessionRepositoryEntry :=
  if rows.isEmpty then
    [{ repo := scalarRepo, position := 0, baseBranch, isPrimary := true, row := none }]
  else
    rows.map fun row =>
      let repo : RepoIdentity := ⟨row.repo_owner, row.repo_name⟩
      { repo
        position := row.position
        baseBranch := some row.base_branch
        isPrimary := text.repoIdentityEquals repo scalarRepo
        row := some row }

/-- `value?.trim().toLowerCase() || null` -/
def normalizePart (value : String) : Option String :=
  some (text.toLowerCase (text.trim value)) |>.filter (· ≠ "")

def normalizeOptionalRepositoryPair (requested : RepoIdentity) :
    Except RepositoryTargetError (Option RepoIdentity) :=
  match text.normalizePart requested.repoOwner, text.normalizePart requested.repoName with
  | some repoOwner, some repoName => .ok (some { repoOwner, repoName })
  | none, none => .ok none
  | _, _ => .error .pair

/-- `resolveSessionRepositoryTarget`; the list is not empty. -/
def resolveSessionRepositoryTarget (requested : RepoIdentity) (first : SessionRepositoryEntry)
    (rest : List SessionRepositoryEntry) : Except RepositoryTargetError SessionRepositoryEntry :=
  match text.normalizeOptionalRepositoryPair requested with
  | .error e => .error e
  | .ok none => if rest.isEmpty then .ok first else .error (.ambiguous (first :: rest))
  | .ok (some pair) =>
    match (first :: rest).find? fun member => text.repoIdentityEquals member.repo pair with
    | some target => .ok target
    | none => .error (.notMember pair)

def claimKey (repo : RepoIdentity) : String :=
  text.toLowerCase repo.repoOwner ++ "/" ++ text.toLowerCase repo.repoName

end Text

/-! ## The artifacts of a head branch -/

inductive ArtifactType where
  | pr
  | screenshot
  | video
  | preview
  | branch
  | file
  deriving DecidableEq, Repr

/-- A row of `artifacts`, of whichever type. -/
structure StoredArtifact extends ArtifactRow where
  type : ArtifactType
  deriving DecidableEq, Repr

/-- `typeof metadata[key] === "string"` -/
def Metadata.string? (metadata : Metadata) (key : String) : Option String :=
  match metadata.get? key with
  | some (.string s) => some s
  | _ => none

/-- `typeof metadata[key] === "number"` -/
def Metadata.number? (metadata : Metadata) (key : String) : Option Int :=
  match metadata.get? key with
  | some (.number n) => some n
  | _ => none

def prArtifactRepoFromMetadata (metadata : Metadata) : Option RepoIdentity :=
  match metadata.string? "repoOwner", metadata.string? "repoName" with
  | some repoOwner, some repoName => some { repoOwner, repoName }
  | _, _ => none

structure PrArtifactHeadMatch where
  artifact : StoredArtifact
  prNumber : Option Int
  lifecycleState : Option LifecycleState
  isDraft : Bool
  baseBranch : Option String
  repositoryExternalId : Option String
  deriving DecidableEq, Repr

/-- The pull requests that a scan is about. -/
structure HeadBranch where
  targetRepo : RepoIdentity
  isPrimary : Bool
  headBranch : String
  generatedHeadBranch : String

namespace Text

variable (text : Text)

def prArtifactBelongsToRepo (artifactRepo : Option RepoIdentity) (targetRepo : RepoIdentity)
    (targetIsPrimary : Bool) : Bool :=
  match artifactRepo with
  | none => targetIsPrimary
  | some repo => text.repoIdentityEquals repo targetRepo

/-- What `listPrArtifactsForHead` makes of an artifact. -/
def headMatch (branches : HeadBranch) (artifact : StoredArtifact) : Option PrArtifactHeadMatch :=
  if artifact.type ≠ .pr then none
  else
    let metadata := parsePullRequestArtifactMetadata artifact.metadata
    if !text.prArtifactBelongsToRepo (prArtifactRepoFromMetadata metadata) branches.targetRepo
        branches.isPrimary then none
    else
      let head := (metadata.string? "head").getD branches.generatedHeadBranch
      if text.normalizeBranchName head ≠ text.normalizeBranchName branches.headBranch then none
      else
        some
          { artifact
            prNumber := metadata.number? "number"
            lifecycleState := (metadata.string? "lifecycleState").bind LifecycleState.ofText
            isDraft := metadata.get? "isDraft" = some (.bool true)
            baseBranch := metadata.string? "base"
            repositoryExternalId := metadata.string? "repositoryExternalId" }

def listPrArtifactsForHead (artifacts : List StoredArtifact) (branches : HeadBranch) :
    List PrArtifactHeadMatch :=
  (artifacts.filterMap (text.headMatch branches)).insertionSort fun a b =>
    b.artifact.updated_at ≤ a.artifact.updated_at

end Text

/-! ## Laws -/

variable {text : Text}

@[simp] theorem normalizeBranchName_trim (name : String) :
    text.normalizeBranchName (text.trim name) = text.normalizeBranchName name :=
  congrArg text.toLowerCase (text.trim_trim name)

@[simp] theorem normalizeBranchName_again (name : String) :
    text.normalizeBranchName (text.normalizeBranchName name) = text.normalizeBranchName name :=
  text.lower_again name

/-- A sanitized name is the name, as branch names are compared. -/
theorem normalize_sanitized {name : Option String} {sanitized : String}
    (h : text.sanitizeBranchName name = some sanitized) :
    ∃ given, name = some given ∧
      text.normalizeBranchName sanitized = text.normalizeBranchName given := by
  cases name with
  | none => cases h
  | some given =>
    obtain ⟨_, h⟩ := Option.ite_none_left_eq_some.mp h
    cases h
    refine ⟨given, rfl, ?_⟩
    rw [normalizeBranchName_again, normalizeBranchName_trim]

/-- The two ways in which a head is resolved. -/
theorem resolved_cases (params : ResolveHeadBranchForPrInput) :
    (∃ value, text.usableHead params.baseBranch value =
        some (text.resolveHeadBranchForPr params).headBranch) ∨
      (text.usableHead params.baseBranch params.requestedHeadBranch = none ∧
        text.usableHead params.baseBranch params.sessionBranchName = none ∧
        text.resolveHeadBranchForPr params =
          { headBranch := params.generatedBranchName, source := .generated }) := by
  unfold Text.resolveHeadBranchForPr
  dsimp only
  generalize hfound : List.findSome? _ _ = found
  cases found with
  | some resolved =>
    obtain ⟨candidate, _, hcandidate⟩ := List.exists_of_findSome?_eq_some hfound
    obtain ⟨headBranch, husable, rfl⟩ := Option.map_eq_some_iff.mp hcandidate
    exact .inl ⟨candidate.1, husable⟩
  | none =>
    have hnone := fun candidate hmem =>
      Option.map_eq_none_iff.mp (List.findSome?_eq_none_iff.mp hfound candidate hmem)
    refine .inr ⟨hnone (params.requestedHeadBranch, .request) ?_,
      hnone (params.sessionBranchName, .session) ?_, rfl⟩
    · exact List.mem_cons_self
    · exact List.mem_cons_of_mem _ List.mem_cons_self

/-- Where a candidate is usable, or the generated branch is not the base, what is pushed is not the
base. -/
theorem head_apart {params : ResolveHeadBranchForPrInput} {sanitized : String}
    (hsanitized : text.sanitizeBranchName (some (text.resolveHeadBranchForPr params).headBranch) =
      some sanitized)
    (hapart : text.normalizeBranchName params.generatedBranchName =
        text.normalizeBranchName params.baseBranch →
      text.sanitizeBranchName (some params.generatedBranchName) = some sanitized →
      (text.usableHead params.baseBranch params.requestedHeadBranch).isSome = true ∨
        (text.usableHead params.baseBranch params.sessionBranchName).isSome = true) :
    text.normalizeBranchName sanitized ≠ text.normalizeBranchName params.baseBranch := by
  obtain ⟨given, hgiven, hnormal⟩ := normalize_sanitized hsanitized
  cases hgiven
  rw [hnormal]
  have hcases : (∃ value, text.usableHead params.baseBranch value =
      some (text.resolveHeadBranchForPr params).headBranch) ∨ _ := resolved_cases params
  rcases hcases with ⟨value, hvalue⟩ | ⟨hrequested, hsession, hfell⟩
  · have husable := (Option.filter_eq_some_iff.mp hvalue).2
    exact of_decide_eq_true ((Bool.and_eq_true_iff.mp husable).2)
  · rw [hfell] at hsanitized ⊢
    intro hbase
    rcases hapart hbase hsanitized with h | h
    · rw [hrequested] at h
      cases h
    · rw [hsession] at h
      cases h

theorem mem_listPrArtifactsForHead {artifacts : List StoredArtifact} {branches : HeadBranch}
    {candidate : PrArtifactHeadMatch} :
    candidate ∈ text.listPrArtifactsForHead artifacts branches ↔
      ∃ artifact ∈ artifacts, text.headMatch branches artifact = some candidate := by
  unfold Text.listPrArtifactsForHead
  rw [List.mem_insertionSort, List.mem_filterMap]

end BackgroundAgents.PullRequests

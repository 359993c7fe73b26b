import BackgroundAgents.Lib.Inquiries
import BackgroundAgents.Sandbox.GitListings

/-!
# Git-backed session diff capture

`collect_repository_diff`: the changes of a checkout since its baseline, merged from
Git's listings of the tracked and of the untracked files, and one bounded patch for
each file that can be rendered. Every invocation of Git is a question whose answer may
be any output, or a failure.
-/

namespace BackgroundAgents.Sandbox.DiffCollector

open GitListings (Text Key ChangedPath TrackedMetadata LineStats DiffFileStatus parseRawChanges
  parseNumstat)
open Utf8 (decode)
open Programs (Inquiry)

def asText (s : String) : Text := s.toList.map Char.toNat

/-- An exception, with what its text is made of. -/
inductive Failure where
  | diffCaptureError (message : Text)
  | malformedListing (e : GitListings.DiffCaptureError)
  | gitOutputTooLarge
  | other (message : Text)

structure RepoEntry where
  owner : Text
  name : Text
  path : Text
  /-- Empty where the session has no baseline. -/
  baseSha : Text

/-- How Git is invoked. -/
inductive GitCommand where
  | catFile (baseSha : Text)
  | revParseHead
  | rawDiff (baseSha : Text)
  | untrackedFiles
  | numstat (baseSha : Text)
  | unmergedPaths (baseSha : Text)
  | trackedPatch (baseSha path : Text) (oldPath : Option Text)
  | untrackedPatch (path : Text)
  | untrackedStats (path : Text)
  | submoduleHead (path : Text)

inductive Question where
  | isDir (repository : RepoEntry)
  | git (repository : RepoEntry) (command : GitCommand) (maxStdoutBytes : Option Nat)
  | runtimeExcludes (repository : RepoEntry)
  | uuid4

def Answer : Question → Type
  | .isDir _ => Bool
  | .git _ _ _ => List UInt8
  | .runtimeExcludes _ => List Text
  | .uuid4 => Text

abbrev Collector (α : Type) := Inquiry Question Answer Failure α

def git (repository : RepoEntry) (command : GitCommand) (maxStdoutBytes : Option Nat) :
    Collector (List UInt8) :=
  Programs.Program.perform (Question.git repository command maxStdoutBytes)

def isDir (repository : RepoEntry) : Collector Bool :=
  Programs.Program.perform (Question.isDir repository)

def readRuntimeGitExcludes (repository : RepoEntry) : Collector (List Text) :=
  Programs.Program.perform (Question.runtimeExcludes repository)

def uuid4 : Collector Text := Programs.Program.perform Question.uuid4

structure CaptureLimits where
  maxFiles : Nat
  maxPatchBytes : Nat
  maxCaptureBytes : Nat
  maxBundleBytes : Nat
  maxMetadataBytes : Nat

inductive RenderState where
  | RENDERABLE
  | METADATA_ONLY
  | TOO_LARGE
  | BINARY
  deriving DecidableEq, Repr

structure CapturedFile where
  id : Text
  path : Text
  oldPath : Option Text
  status : DiffFileStatus
  additions : Option Int
  deletions : Option Int
  renderState : RenderState
  patch : Option Text
  patchBytes : Option Nat
  oldMode : Option Text
  newMode : Option Text
  oldSubmoduleSha : Option Text
  newSubmoduleSha : Option Text

/-! ## Line statistics -/

/-- The first of `raw.splitlines()`. -/
def firstLine (raw : List UInt8) : List UInt8 := raw.takeWhile fun b => b ≠ 0x0a && b ≠ 0x0d

/-- What `_untracked_stats` makes of the output. -/
def readUntrackedStats (raw : List UInt8) : Except Failure LineStats :=
  match Bytes.splitMax 0x09 2 (firstLine raw) with
  | additions :: deletions :: _ =>
    if additions = [0x2d] ∨ deletions = [0x2d] then .ok (none, none)
    else
      match Bytes.toInt additions, Bytes.toInt deletions with
      | some additions, some deletions => .ok (some additions, some deletions)
      | _, _ => .error (.malformedListing .malformedNumstatRecord)
  | _ => .ok (some 0, some 0)

def untrackedStats (repository : RepoEntry) (path : Text) : Collector LineStats := do
  let raw ← git repository (.untrackedStats path) (some (64 * 1024))
  Programs.Program.ofExcept (readUntrackedStats raw)

def addLines : Option Int → Option Int → Option Int
  | some tracked, some untracked => some (tracked + untracked)
  | _, _ => none

def changeLineStats (repository : RepoEntry) (change : ChangedPath)
    (trackedStats : List (Key × LineStats)) (isOverlay isUntracked : Bool) :
    Collector LineStats :=
  let tracked := (Dict.get? trackedStats (change.oldPath, change.path)).getD (some 0, some 0)
  if isOverlay then do
    let untracked ← untrackedStats repository change.path
    return (addLines tracked.1 untracked.1, addLines tracked.2 untracked.2)
  else if isUntracked then untrackedStats repository change.path
  else return tracked

/-! ## Submodules -/

def SUBMODULE_MODE : Text := asText "160000"
def ABSENT_MODE : Text := asText "000000"

/-- What `str.strip` takes for white space. -/
def isSpace (c : Nat) : Bool :=
  (9 ≤ c && c ≤ 13) || (28 ≤ c && c ≤ 32) || c = 0x85 || c = 0xa0 || c = 0x1680 ||
    (0x2000 ≤ c && c ≤ 0x200a) || c = 0x2028 || c = 0x2029 || c = 0x202f || c = 0x205f || c = 0x3000

def strip (text : Text) : Text :=
  ((text.dropWhile isSpace).reverse.dropWhile isSpace).reverse

def submoduleHead (repository : RepoEntry) (path : Text) : Collector Text := do
  let raw ← git repository (.submoduleHead path) (some 128)
  if raw.all (·.toNat < 128) then
    let value := strip (raw.map UInt8.toNat)
    if (value.length = 40 ∨ value.length = 64) ∧ value.all ((asText "0123456789abcdef").contains ·)
    then return value
    else .raise (.diffCaptureError (asText "Invalid submodule HEAD for " ++ path))
  else .raise (.other (asText "'ascii' codec can't decode byte"))

/-- `set(sha) == {"0"}` -/
def isPlaceholder (sha : Text) : Bool := sha ≠ [] && sha.all (· = '0'.toNat)

def submoduleShas (repository : RepoEntry) (change : ChangedPath) (metadata : TrackedMetadata) :
    Collector (Option Text × Option Text) :=
  let oldSha :=
    if metadata.oldMode = SUBMODULE_MODE ∧ ¬ isPlaceholder metadata.oldSha then
      some metadata.oldSha
    else none
  if metadata.newMode = SUBMODULE_MODE then
    if isPlaceholder metadata.newSha then do
      let head ← submoduleHead repository change.path
      return (oldSha, some head)
    else return (oldSha, some metadata.newSha)
  else return (oldSha, none)

/-! ## Patches -/

structure RenderedPatch where
  renderState : RenderState
  patch : Option Text := none
  patchBytes : Option Nat := none

/-- `len(text.encode("utf-8"))` -/
def utf8Length (text : Text) : Nat := (Utf8.encode text).length

/-- `"\n@@" in text` -/
def hasHunk (text : Text) : Bool := text.tails.any ((asText "\n@@").isPrefixOf ·)

/-- What `_rendered_patch` makes of Git's output. -/
def judgePatch (rawPatch : List UInt8) (isUntracked : Bool) (additions deletions : Option Int)
    (limits : CaptureLimits) (remainingCaptureBytes : Nat) : RenderedPatch :=
  let patchText := Utf8.decodeReplace rawPatch
  let patchBytes := utf8Length patchText
  if ¬ isUntracked ∧ additions = some 0 ∧ deletions = some 0 ∧ ¬ hasHunk patchText then
    { renderState := .METADATA_ONLY }
  else if limits.maxPatchBytes < patchBytes ∨ remainingCaptureBytes < patchBytes then
    { renderState := .TOO_LARGE }
  else if rawPatch = [] then { renderState := .METADATA_ONLY }
  else { renderState := .RENDERABLE, patch := some patchText, patchBytes := some patchBytes }

def renderedPatch (repository : RepoEntry) (change : ChangedPath) (baseSha : Text)
    (isUntracked : Bool) (additions deletions : Option Int) (limits : CaptureLimits)
    (remainingCaptureBytes : Nat) : Collector RenderedPatch := do
  let command : GitCommand :=
    if isUntracked then .untrackedPatch change.path
    else .trackedPatch baseSha change.path change.oldPath
  match ← (git repository command (some limits.maxPatchBytes)).attempt with
  | .ok rawPatch =>
    return judgePatch rawPatch isUntracked additions deletions limits remainingCaptureBytes
  | .error .gitOutputTooLarge => return { renderState := .TOO_LARGE }
  | .error e => .raise e

/-! ## One file -/

/-- The modes that a change of mode shows. -/
def shownMode (metadata : Option TrackedMetadata) (mode : TrackedMetadata → Text) : Option Text :=
  match metadata with
  | some metadata =>
    if metadata.oldMode ≠ metadata.newMode ∧ mode metadata ≠ ABSENT_MODE then some (mode metadata)
    else none
  | none => none

def captureFile (repository : RepoEntry) (change : ChangedPath) (baseSha : Text)
    (limits : CaptureLimits) (trackedStats : List (Key × LineStats))
    (trackedMetadata : List (Key × TrackedMetadata)) (isOverlay isUntracked : Bool)
    (remainingCaptureBytes : Nat) : Collector CapturedFile := do
  let (additions, deletions) ←
    changeLineStats repository change trackedStats isOverlay isUntracked
  let metadata := Dict.get? trackedMetadata (change.oldPath, change.path)
  match metadata.filter fun m => m.oldMode = SUBMODULE_MODE || m.newMode = SUBMODULE_MODE with
  | some submodule => do
    let (oldSubmoduleSha, newSubmoduleSha) ← submoduleShas repository change submodule
    let id ← uuid4
    return { id, path := change.path, oldPath := change.oldPath, status := .SUBMODULE
             additions, deletions, renderState := .METADATA_ONLY, patch := none
             patchBytes := none
             oldMode := shownMode metadata (·.oldMode)
             newMode := shownMode metadata (·.newMode)
             oldSubmoduleSha, newSubmoduleSha }
  | none => do
    let rendered ←
      (if additions.isNone || deletions.isNone then pure { renderState := .BINARY }
      else if isOverlay then pure { renderState := .METADATA_ONLY }
      else
        renderedPatch repository change baseSha isUntracked additions deletions limits
          remainingCaptureBytes : Collector RenderedPatch)
    let id ← uuid4
    return { id, path := change.path, oldPath := change.oldPath, status := change.status
             additions, deletions, renderState := rendered.renderState
             patch := rendered.patch, patchBytes := rendered.patchBytes
             oldMode := shownMode metadata (·.oldMode)
             newMode := shownMode metadata (·.newMode)
             oldSubmoduleSha := none, newSubmoduleSha := none }

/-! ## One repository -/

structure RepositoryCapture where
  headSha : Text
  files : List CapturedFile
  truncated : Bool
  omittedFileCount : Nat

/-- `runtime_path.rstrip("/")` -/
def withoutSlashes (path : Text) : Text := (path.reverse.dropWhile (· = '/'.toNat)).reverse

def isRuntimeGitExcluded (path : Text) (runtimePaths : List Text) : Bool :=
  runtimePaths.any fun runtimePath =>
    path = withoutSlashes runtimePath ||
      (withoutSlashes runtimePath ++ asText "/").isPrefixOf path

/-- The paths of a listing that has only paths. -/
def listedPaths (raw : List UInt8) : List Text :=
  ((raw.splitOn 0).filter fun path => !path.isEmpty).map decode

/-- What Git and the checkout have to say about the changes. -/
structure Listings where
  raw : List UInt8
  untracked : List UInt8
  numstat : List UInt8
  unmerged : List UInt8
  runtimePaths : List Text

namespace Listings

variable (l : Listings)

def untrackedChanges : List ChangedPath :=
  ((listedPaths l.untracked).filter fun path => !isRuntimeGitExcluded path l.runtimePaths).map
    fun path => { status := .ADDED, path, oldPath := none }

def isUntrackedPath (path : Text) : Bool := l.untrackedChanges.any (·.path = path)

/-- A tracked file is deleted, and there is an untracked one in its place. -/
def isOverlay (tracked : List ChangedPath) (path : Text) : Bool :=
  tracked.any fun change =>
    change.status = .DELETED && l.isUntrackedPath change.path && change.path = path

def normalized (tracked : List ChangedPath) (change : ChangedPath) : ChangedPath :=
  { change with
    status :=
      if l.isOverlay tracked change.path then .MODIFIED
      else if (listedPaths l.unmerged).contains change.path then .UNMERGED
      else change.status }

/-- `all_changes` -/
def allChanges (tracked : List ChangedPath) : List ChangedPath :=
  tracked.map (l.normalized tracked) ++
    l.untrackedChanges.filter fun change => !l.isOverlay tracked change.path

end Listings

/-- The loop over the selected changes. -/
def captureFiles (repository : RepoEntry) (baseSha : Text) (limits : CaptureLimits)
    (trackedStats : List (Key × LineStats)) (trackedMetadata : List (Key × TrackedMetadata))
    (isOverlay : Text → Bool) (untracked : List ChangedPath) :
    List ChangedPath → Nat → Collector (List CapturedFile)
  | [], _ => return []
  | change :: rest, remainingCaptureBytes => do
    let overlay := isOverlay change.path
    let file ← captureFile repository change baseSha limits trackedStats trackedMetadata overlay
      (!overlay && untracked.contains change) remainingCaptureBytes
    let spent := if file.renderState = .RENDERABLE then file.patchBytes.getD 0 else 0
    let files ← captureFiles repository baseSha limits trackedStats trackedMetadata isOverlay
      untracked rest (remainingCaptureBytes - spent)
    return file :: files

/-- The listings of tracked changes, with what they say. -/
structure TrackedListings where
  raw : List UInt8
  untracked : List UInt8
  numstat : List UInt8
  unmerged : List UInt8
  tracked : List ChangedPath
  metadata : List (Key × TrackedMetadata)
  stats : List (Key × LineStats)

def parsed {α : Type} : Except GitListings.DiffCaptureError α → Collector α
  | .ok a => return a
  | .error e => .raise (.malformedListing e)

def trackedListings (repository : RepoEntry) (baseSha : Text) (limits : CaptureLimits) :
    Collector TrackedListings := do
  let raw ← git repository (.rawDiff baseSha) (some limits.maxMetadataBytes)
  let (tracked, metadata) ← parsed (parseRawChanges raw)
  let untracked ← git repository .untrackedFiles (some limits.maxMetadataBytes)
  let numstat ← git repository (.numstat baseSha) (some limits.maxMetadataBytes)
  let stats ← parsed (parseNumstat numstat)
  let unmerged ← git repository (.unmergedPaths baseSha) (some limits.maxMetadataBytes)
  return { raw, untracked, numstat, unmerged, tracked, metadata, stats }

def collectRepositoryDiff (repository : RepoEntry) (baseSha : Text) (limits : CaptureLimits) :
    Collector RepositoryCapture := do
  let checkedOut ← isDir repository
  if checkedOut = false then
    .raise (.diffCaptureError (asText "Repository checkout is missing: " ++ repository.path))
  else do
    let _ ← git repository (.catFile baseSha) none
    let rawHead ← git repository .revParseHead none
    match Utf8.decodeStrict rawHead with
    | none => .raise (.other (asText "'utf-8' codec can't decode bytes"))
    | some head => do
      let tracked ← (trackedListings repository baseSha limits).handle fun e =>
        match e with
        | .gitOutputTooLarge =>
          .raise (.diffCaptureError
            (asText "Repository change metadata exceeded its memory limit"))
        | e => .raise e
      let runtimePaths ← readRuntimeGitExcludes repository
      let l : Listings :=
        { raw := tracked.raw, untracked := tracked.untracked, numstat := tracked.numstat
          unmerged := tracked.unmerged, runtimePaths }
      let allChanges := l.allChanges tracked.tracked
      let selected := allChanges.take limits.maxFiles
      let files ← captureFiles repository baseSha limits tracked.stats tracked.metadata
        (l.isOverlay tracked.tracked) l.untrackedChanges selected limits.maxCaptureBytes
      return { headSha := strip head, files
               truncated := decide (selected.length < allChanges.length)
               omittedFileCount := allChanges.length - selected.length }

end BackgroundAgents.Sandbox.DiffCollector

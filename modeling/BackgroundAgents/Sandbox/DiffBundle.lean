import Mathlib.Data.List.Sort
import BackgroundAgents.Lib.Json
import BackgroundAgents.Sandbox.DiffCollector

/-!
# The session diff bundle

`collect_session_diff_bundle`: the captures of all repositories of a session as one
upload. What is left of the limits on files and on patch bytes passes from one
repository to the next; the encoded whole is then cut to its own limit, patches first,
the largest before the others, then the records of files from the end.
-/

namespace BackgroundAgents.Sandbox.DiffBundle

open GitListings (Text Key DiffFileStatus)
open DiffCollector (asText Failure RepoEntry CaptureLimits RenderState CapturedFile
  RepositoryCapture Collector utf8Length collectRepositoryDiff)

def SESSION_DIFF_VERSION : Nat := 1

def SESSION_DIFF_MAX_ERROR_LENGTH : Nat := 2000

/-- `CaptureLimits.defaults()` -/
def defaults : CaptureLimits where
  maxFiles := 1000
  maxPatchBytes := 512 * 1024
  maxCaptureBytes := 1024 * 1024
  maxBundleBytes := 1572864
  maxMetadataBytes := 8000000

structure FileUpload where
  id : Text
  path : Text
  status : DiffFileStatus
  additions : Option Int
  deletions : Option Int
  renderState : RenderState
  oldPath : Option Text
  patch : Option Text
  oldMode : Option Text
  newMode : Option Text
  oldSubmoduleSha : Option Text
  newSubmoduleSha : Option Text
  deriving DecidableEq

structure ReadyUpload where
  position : Nat
  repoOwner : Text
  repoName : Text
  baseSha : Text
  headSha : Text
  truncated : Bool
  omittedFileCount : Nat
  files : List FileUpload
  deriving DecidableEq

structure UnavailableUpload where
  position : Nat
  repoOwner : Text
  repoName : Text
  baseSha : Text
  error : Text
  deriving DecidableEq

inductive RepositoryUpload where
  | ready (upload : ReadyUpload)
  | unavailable (upload : UnavailableUpload)
  deriving DecidableEq

structure Bundle where
  triggerMessageId : Option Text
  capturedAt : Int
  repositories : List RepositoryUpload
  deriving DecidableEq

/-! ## Encoding -/

def renderStateText : RenderState → Text
  | .RENDERABLE => asText "renderable"
  | .METADATA_ONLY => asText "metadata_only"
  | .TOO_LARGE => asText "too_large"
  | .BINARY => asText "binary"

def statusText : DiffFileStatus → Text
  | .ADDED => asText "added"
  | .MODIFIED => asText "modified"
  | .DELETED => asText "deleted"
  | .TYPE_CHANGED => asText "type_changed"
  | .UNMERGED => asText "unmerged"
  | .RENAMED => asText "renamed"
  | .SUBMODULE => asText "submodule"

def number (n : Int) : Json := .num (toString n).toList

def orNull {α : Type} (json : α → Json) : Option α → Json
  | some a => json a
  | none => .null

/-- A key that is there only with a value. -/
def optional (key : String) : Option Text → List (Text × Json)
  | some value => [(asText key, .str value)]
  | none => []

def FileUpload.toJson (file : FileUpload) : Json :=
  .obj ([(asText "id", .str file.id), (asText "path", .str file.path),
      (asText "status", .str (statusText file.status)),
      (asText "additions", orNull number file.additions),
      (asText "deletions", orNull number file.deletions),
      (asText "renderState", .str (renderStateText file.renderState))] ++
    optional "oldPath" file.oldPath ++ optional "patch" file.patch ++
    optional "oldMode" file.oldMode ++ optional "newMode" file.newMode ++
    optional "oldSubmoduleSha" file.oldSubmoduleSha ++
    optional "newSubmoduleSha" file.newSubmoduleSha)

def RepositoryUpload.toJson : RepositoryUpload → Json
  | ready upload =>
    .obj [(asText "status", .str (asText "ready")), (asText "position", number upload.position),
      (asText "repoOwner", .str upload.repoOwner), (asText "repoName", .str upload.repoName),
      (asText "baseSha", .str upload.baseSha), (asText "headSha", .str upload.headSha),
      (asText "truncated", .bool upload.truncated),
      (asText "omittedFileCount", number upload.omittedFileCount),
      (asText "files", .arr (upload.files.map FileUpload.toJson))]
  | unavailable upload =>
    .obj [(asText "status", .str (asText "unavailable")),
      (asText "position", number upload.position), (asText "repoOwner", .str upload.repoOwner),
      (asText "repoName", .str upload.repoName), (asText "baseSha", .str upload.baseSha),
      (asText "error", .str upload.error), (asText "files", .arr [])]

def Bundle.toJson (bundle : Bundle) : Json :=
  .obj [(asText "version", number SESSION_DIFF_VERSION),
    (asText "triggerMessageId", orNull .str bundle.triggerMessageId),
    (asText "capturedAt", number bundle.capturedAt),
    (asText "repositories", .arr (bundle.repositories.map RepositoryUpload.toJson))]

/-- `len(encode_bundle(bundle))`; the encoding is ASCII. -/
def encodedSize (bundle : Bundle) : Nat := Json.size Json.compact bundle.toJson

/-! ## `_bound_encoded_bundle` -/

/-- The number of a repository in the bundle, and of a file in it. -/
abbrev Place := Nat × Nat

def RepositoryUpload.files : RepositoryUpload → List FileUpload
  | ready upload => upload.files
  | unavailable _ => []

def RepositoryUpload.modifyReady (f : ReadyUpload → ReadyUpload) :
    RepositoryUpload → RepositoryUpload
  | ready upload => ready (f upload)
  | unavailable upload => unavailable upload

def Bundle.modifyReady (bundle : Bundle) (i : Nat) (f : ReadyUpload → ReadyUpload) : Bundle :=
  { bundle with repositories := bundle.repositories.modify i (·.modifyReady f) }

def FileUpload.withoutPatch (file : FileUpload) : FileUpload :=
  { file with patch := none, renderState := .TOO_LARGE }

def ReadyUpload.withoutPatch (upload : ReadyUpload) (j : Nat) : ReadyUpload :=
  { upload with files := upload.files.modify j FileUpload.withoutPatch }

def ReadyUpload.withoutLast (upload : ReadyUpload) : ReadyUpload :=
  { upload with
    files := upload.files.dropLast
    truncated := true
    omittedFileCount := upload.omittedFileCount + 1 }

def patchesOfFiles (i : Nat) : List FileUpload → Nat → List (Nat × Place)
  | [], _ => []
  | file :: rest, j =>
    match file.patch with
    | some patch => (utf8Length patch, (i, j)) :: patchesOfFiles i rest (j + 1)
    | none => patchesOfFiles i rest (j + 1)

/-- `patches`: the size of each patch, and the file that has it. -/
def patches : List RepositoryUpload → Nat → List (Nat × Place)
  | [], _ => []
  | repository :: rest, i => patchesOfFiles i repository.files 0 ++ patches rest (i + 1)

/-- Sorted by size, patches of one size in their order. -/
def largestFirst (found : List (Nat × Place)) : List (Nat × Place) :=
  found.insertionSort fun a b => b.1 ≤ a.1

def shedPatches (maxBundleBytes : Nat) : List (Nat × Place) → Bundle → Bundle
  | [], bundle => bundle
  | (_, i, j) :: rest, bundle =>
    if encodedSize bundle ≤ maxBundleBytes then bundle
    else shedPatches maxBundleBytes rest (bundle.modifyReady i (·.withoutPatch j))

/-- The inner loop, at the repository `i`, which has so many files. -/
def dropFiles (maxBundleBytes i : Nat) : Nat → Bundle → Bundle
  | 0, bundle => bundle
  | count + 1, bundle =>
    if maxBundleBytes < encodedSize bundle then
      dropFiles maxBundleBytes i count (bundle.modifyReady i ReadyUpload.withoutLast)
    else bundle

def fileCount (bundle : Bundle) (i : Nat) : Nat :=
  match bundle.repositories[i]? with
  | some repository => repository.files.length
  | none => 0

def dropRecords (maxBundleBytes : Nat) : List Nat → Bundle → Bundle
  | [], bundle => bundle
  | i :: rest, bundle =>
    dropRecords maxBundleBytes rest
      (dropFiles maxBundleBytes i (fileCount bundle i) bundle)

def boundEncodedBundle (bundle : Bundle) (maxBundleBytes : Nat) : Except Failure Bundle :=
  let shed := shedPatches maxBundleBytes (largestFirst (patches bundle.repositories 0)) bundle
  if encodedSize shed ≤ maxBundleBytes then .ok shed
  else
    let dropped :=
      dropRecords maxBundleBytes (List.range shed.repositories.length).reverse shed
    if maxBundleBytes < encodedSize dropped then
      .error (.diffCaptureError (asText "Session diff metadata exceeded the bundle limit"))
    else .ok dropped

/-! ## `collect_session_diff_bundle` -/

/-- The texts of exceptions that are not `DiffCaptureError`s of fixed text. -/
def listingErrorText (repr : Text → Text) : GitListings.DiffCaptureError → Text
  | .malformedRawDiffRecord => asText "Malformed Git raw diff record"
  | .malformedRawRenameRecord => asText "Malformed Git raw rename record"
  | .unsupportedStatusLetter letter =>
    asText "Unsupported Git status letter: " ++ repr letter.toList
  | .malformedNumstatRecord => asText "Malformed Git numstat record"
  | .malformedRenameNumstatRecord => asText "Malformed Git rename numstat record"

/-- `str(error)` -/
def errorText (repr : Text → Text) : Failure → Text
  | .diffCaptureError message => message
  | .malformedListing e => listingErrorText repr e
  | .gitOutputTooLarge => []
  | .other message => message

def fileUpload (changed : CapturedFile) : FileUpload where
  id := changed.id
  path := changed.path
  status := changed.status
  additions := changed.additions
  deletions := changed.deletions
  renderState := changed.renderState
  oldPath := changed.oldPath
  patch := if changed.renderState = .RENDERABLE then changed.patch else none
  oldMode := changed.oldMode
  newMode := changed.newMode
  oldSubmoduleSha := changed.oldSubmoduleSha
  newSubmoduleSha := changed.newSubmoduleSha

def readyUpload (position : Nat) (repository : RepoEntry) (capture : RepositoryCapture) :
    ReadyUpload where
  position := position
  repoOwner := repository.owner
  repoName := repository.name
  baseSha := repository.baseSha
  headSha := capture.headSha
  truncated := capture.truncated
  omittedFileCount := capture.omittedFileCount
  files := capture.files.map fileUpload

def unavailableUpload (repr : Text → Text) (position : Nat) (repository : RepoEntry)
    (e : Failure) : UnavailableUpload where
  position := position
  repoOwner := repository.owner
  repoName := repository.name
  baseSha := repository.baseSha
  error :=
    let text := (errorText repr e).take SESSION_DIFF_MAX_ERROR_LENGTH
    if text = [] then asText "Repository diff unavailable" else text

/-- The bytes of the patches that a repository spends. -/
def spentPatchBytes (files : List CapturedFile) : Nat :=
  (files.map fun changed =>
    match changed.patch with
    | some patch => if changed.renderState = .RENDERABLE then utf8Length patch else 0
    | none => 0).sum

/-- The loop over the repositories that are left, with what is left of the limits. -/
def collectUploads (repr : Text → Text) (limits : CaptureLimits) :
    List RepoEntry → Nat → Nat → Nat → Collector (List RepositoryUpload)
  | [], _, _, _ => return []
  | repository :: rest, position, remainingFiles, remainingPatchBytes =>
    if repository.baseSha = [] then
      .raise (.diffCaptureError (asText "Session start baseline is unavailable"))
    else do
      let limitsLeft :=
        { limits with maxFiles := remainingFiles, maxCaptureBytes := remainingPatchBytes }
      match ← (collectRepositoryDiff repository repository.baseSha limitsLeft).attempt with
      | .error e => do
        let uploads ← collectUploads repr limits rest (position + 1) remainingFiles
          remainingPatchBytes
        return .unavailable (unavailableUpload repr position repository e) :: uploads
      | .ok capture => do
        let uploads ← collectUploads repr limits rest (position + 1)
          (remainingFiles - capture.files.length)
          (remainingPatchBytes - spentPatchBytes capture.files)
        return .ready (readyUpload position repository capture) :: uploads

def collectSessionDiffBundle (repr : Text → Text) (repositories : List RepoEntry)
    (triggerMessageId : Option Text) (capturedAt : Int) (limits : Option CaptureLimits) :
    Collector Bundle := do
  let activeLimits := limits.getD defaults
  let outcomes ← collectUploads repr activeLimits repositories 0 activeLimits.maxFiles
    activeLimits.maxCaptureBytes
  Programs.Program.ofExcept
    (boundEncodedBundle { triggerMessageId, capturedAt, repositories := outcomes }
      activeLimits.maxBundleBytes)

end BackgroundAgents.Sandbox.DiffBundle

import BackgroundAgents.Sandbox.DiffBundle

/-!
# What a capture lists and keeps

A file carries its patch exactly when it is to be rendered, and its patch fits what was
left for it (`Rendered`); so a repository spends no more than was left for it, and the
session no more than its limits. What a repository lists are the first of its changes,
in the order in which Git's listings have them, and the rest is counted
(`captured_spec`).
-/

namespace BackgroundAgents.Sandbox.DiffBundle

open Programs Programs.Inquiry
open GitListings (Text Key ChangedPath TrackedMetadata LineStats parseRawChanges)
open DiffCollector

/-- A question to Git or to the checkout, with the answer. -/
abbrev Asked := Reply Question Answer Failure

/-- How a file that had so many bytes left may be rendered. -/
inductive Rendered (remaining : Nat) : RenderState → Option Text → Option Nat → Prop where
  | shown (patch : Text) (fits : utf8Length patch ≤ remaining) :
    Rendered remaining .RENDERABLE (some patch) (some (utf8Length patch))
  | hidden {state : RenderState} (hidden : state ≠ .RENDERABLE) :
    Rendered remaining state none none

/-! ## One file -/

section File

variable {repository : RepoEntry} {change : ChangedPath} {baseSha : Text}
variable {isOverlay isUntracked : Bool} {additions deletions : Option Int}
variable {limits : CaptureLimits} {remaining : Nat} {asked : List Asked}

def Renders (remaining : Nat) (rendered : RenderedPatch) : Prop :=
  Rendered remaining rendered.renderState rendered.patch rendered.patchBytes

theorem judgePatch_renders (rawPatch : List UInt8) :
    Renders remaining
      (judgePatch rawPatch isUntracked additions deletions limits remaining) := by
  unfold judgePatch
  dsimp only
  split
  next => exact .hidden (by decide)
  next =>
    split
    next => exact .hidden (by decide)
    next hfits =>
      split
      next => exact .hidden (by decide)
      next => exact .shown _ (by omega)

theorem renderedPatch_renders {rendered : RenderedPatch}
    (h : Ends (renderedPatch repository change baseSha isUntracked additions deletions limits
      remaining) (.ok rendered) asked) : Renders remaining rendered := by
  obtain ⟨answer, _, _, _, _, h⟩ := Ends.bind h
  cases answer with
  | ok rawPatch =>
    obtain ⟨hok, _⟩ := h.done_inv
    rw [Except.ok.inj hok]
    exact judgePatch_renders rawPatch
  | error e =>
    cases e with
    | gitOutputTooLarge =>
      obtain ⟨hok, _⟩ := h.done_inv
      rw [Except.ok.inj hok]
      exact .hidden (by decide)
    | diffCaptureError message => cases h
    | malformedListing e => cases h
    | other message => cases h

variable {trackedStats : List (Key × LineStats)}
variable {trackedMetadata : List (Key × TrackedMetadata)}

theorem captureFile_spec {file : CapturedFile}
    (h : Ends (captureFile repository change baseSha limits trackedStats trackedMetadata isOverlay
      isUntracked remaining) (.ok file) asked) :
    (file.oldPath, file.path) = (change.oldPath, change.path) ∧
      Rendered remaining file.renderState file.patch file.patchBytes := by
  obtain ⟨⟨additions, deletions⟩, _, _, _, _, h⟩ := Ends.bind h
  dsimp only at h
  split at h
  next submodule _ =>
    obtain ⟨shas, _, _, _, _, h⟩ := Ends.bind h
    obtain ⟨id, _, _, _, _, h⟩ := Ends.bind h
    obtain ⟨hok, _⟩ := h.done_inv
    have hmetadata : RenderState.METADATA_ONLY ≠ .RENDERABLE := by decide
    rw [Except.ok.inj hok]
    exact ⟨rfl, .hidden hmetadata⟩
  next =>
    obtain ⟨rendered, _, _, _, hrendered, h⟩ := Ends.bind h
    obtain ⟨id, _, _, _, _, h⟩ := Ends.bind h
    obtain ⟨hok, _⟩ := h.done_inv
    rw [Except.ok.inj hok]
    refine ⟨rfl, ?_⟩
    show Renders remaining rendered
    split at hrendered
    next =>
      obtain ⟨hok, _⟩ := hrendered.done_inv
      rw [Except.ok.inj hok]
      exact .hidden (by decide)
    next =>
      split at hrendered
      next =>
        obtain ⟨hok, _⟩ := hrendered.done_inv
        rw [Except.ok.inj hok]
        exact .hidden (by decide)
      next => exact renderedPatch_renders hrendered

end File

/-! ## The files of one repository -/

def keyOf (change : ChangedPath) : Key := (change.oldPath, change.path)

def capturedKey (file : CapturedFile) : Key := (file.oldPath, file.path)

/-- A patch is there exactly when it is to be rendered. -/
def PatchShown (renderState : RenderState) (patch : Option Text) : Prop :=
  patch.isSome ↔ renderState = .RENDERABLE

theorem Rendered.shows {remaining : Nat} {state : RenderState} {patch : Option Text}
    {bytes : Option Nat} (h : Rendered remaining state patch bytes) : PatchShown state patch := by
  cases h with
  | shown patch fits => exact iff_of_true rfl rfl
  | hidden hidden => exact iff_of_false Bool.false_ne_true hidden

/-- What the loop takes from the remaining bytes is what the patch has. -/
theorem Rendered.spent {remaining : Nat} {file : CapturedFile}
    (h : Rendered remaining file.renderState file.patch file.patchBytes) :
    (if file.renderState = .RENDERABLE then file.patchBytes.getD 0 else 0) =
        spentPatchBytes [file] ∧ spentPatchBytes [file] ≤ remaining := by
  unfold spentPatchBytes
  rw [List.map_singleton, List.sum_singleton]
  generalize file.renderState = state, file.patch = patch, file.patchBytes = bytes at h
  cases h with
  | shown patch fits => exact ⟨rfl, fits⟩
  | @hidden state hidden => exact ⟨if_neg hidden, Nat.zero_le _⟩

theorem spentPatchBytes_cons (file : CapturedFile) (files : List CapturedFile) :
    spentPatchBytes (file :: files) = spentPatchBytes [file] + spentPatchBytes files := by
  unfold spentPatchBytes
  rw [List.map_cons, List.sum_cons, List.map_singleton, List.sum_singleton]

structure Captured (remaining : Nat) (keys : List Key) (files : List CapturedFile) : Prop where
  listed : files.map capturedKey = keys
  shown : ∀ file ∈ files, PatchShown file.renderState file.patch
  spent : spentPatchBytes files ≤ remaining

section Repository

variable {repository : RepoEntry} {baseSha : Text} {limits : CaptureLimits}
variable {trackedStats : List (Key × LineStats)}
variable {trackedMetadata : List (Key × TrackedMetadata)}
variable {isOverlay : Text → Bool} {untracked : List ChangedPath}

theorem captureFiles_spec : ∀ {changes : List ChangedPath} {remaining : Nat}
    {files : List CapturedFile} {asked : List Asked},
    Ends (captureFiles repository baseSha limits trackedStats trackedMetadata isOverlay untracked
      changes remaining) (.ok files) asked →
    Captured remaining (changes.map keyOf) files
  | [], remaining, files, asked, h => by
    obtain ⟨hok, _⟩ := h.done_inv
    rw [Except.ok.inj hok]
    exact ⟨rfl, fun _ hmem => absurd hmem List.not_mem_nil, Nat.zero_le _⟩
  | change :: rest, remaining, files, asked, h => by
    obtain ⟨file, _, _, _, hfile, h⟩ := Ends.bind h
    obtain ⟨others, _, _, _, hothers, h⟩ := Ends.bind h
    obtain ⟨hok, _⟩ := h.done_inv
    obtain ⟨hkey, hrendered⟩ := captureFile_spec hfile
    obtain ⟨hspent, hle⟩ := hrendered.spent
    have ih := captureFiles_spec hothers
    rw [Except.ok.inj hok]
    refine ⟨?_, ?_, ?_⟩
    · rw [List.map_cons, List.map_cons, ih.listed]
      exact congrArg (· :: rest.map keyOf) hkey
    · intro other hmem
      rcases List.mem_cons.mp hmem with hother | hother
      · rw [hother]
        exact hrendered.shows
      · exact ih.shown other hother
    · have hrest := ih.spent
      rw [hspent] at hrest
      rw [spentPatchBytes_cons]
      omega

end Repository

/-! ## One repository -/

/-- What was asked before the first file, and answered with these listings. -/
def listingsAsked (repository : RepoEntry) (maxMetadataBytes : Nat) (probe head : List UInt8)
    (l : Listings) : List Asked :=
  [⟨Question.isDir repository, .ok true⟩,
    ⟨Question.git repository (.catFile repository.baseSha) none, .ok probe⟩,
    ⟨Question.git repository .revParseHead none, .ok head⟩,
    ⟨Question.git repository (.rawDiff repository.baseSha) (some maxMetadataBytes),
      .ok l.raw⟩,
    ⟨Question.git repository .untrackedFiles (some maxMetadataBytes), .ok l.untracked⟩,
    ⟨Question.git repository (.numstat repository.baseSha) (some maxMetadataBytes),
      .ok l.numstat⟩,
    ⟨Question.git repository (.unmergedPaths repository.baseSha) (some maxMetadataBytes),
      .ok l.unmerged⟩,
    ⟨Question.runtimeExcludes repository, .ok l.runtimePaths⟩]

/-- The changes of a repository, in collection order, going by what Git answered. -/
inductive Changes (repository : RepoEntry) (maxMetadataBytes : Nat) :
    List Asked → List Key → Prop where
  | listed {probe head : List UInt8} {l : Listings} {tracked : List ChangedPath}
    {metadata : List (Key × TrackedMetadata)} (rest : List Asked)
    (parsed : parseRawChanges l.raw = .ok (tracked, metadata)) :
    Changes repository maxMetadataBytes
      (listingsAsked repository maxMetadataBytes probe head l ++ rest)
      ((l.allChanges tracked).map keyOf)

theorem parsed_inv {α : Type} {r : Except GitListings.DiffCaptureError α} {a : α}
    {asked : List Asked} (h : Ends (parsed r) (.ok a) asked) : r = .ok a ∧ asked = [] := by
  cases r with
  | ok b =>
    obtain ⟨hok, hnil⟩ := h.done_inv
    exact ⟨congrArg Except.ok (Except.ok.inj hok).symm, hnil⟩
  | error e => cases h

theorem git_inv {repository : RepoEntry} {command : GitCommand} {bound : Option Nat}
    {out : List UInt8} {asked : List Asked} (h : Ends (git repository command bound) (.ok out) asked) :
    asked = [⟨Question.git repository command bound, .ok out⟩] := Ends.perform h

section Repository

variable {repository : RepoEntry} {limits : CaptureLimits} {asked : List Asked}

theorem trackedListings_spec {t : TrackedListings}
    (h : Ends (trackedListings repository repository.baseSha limits) (.ok t) asked) :
    parseRawChanges t.raw = .ok (t.tracked, t.metadata) ∧ asked =
      [⟨Question.git repository (.rawDiff repository.baseSha) (some limits.maxMetadataBytes),
          .ok t.raw⟩,
        ⟨Question.git repository .untrackedFiles (some limits.maxMetadataBytes), .ok t.untracked⟩,
        ⟨Question.git repository (.numstat repository.baseSha) (some limits.maxMetadataBytes),
          .ok t.numstat⟩,
        ⟨Question.git repository (.unmergedPaths repository.baseSha)
          (some limits.maxMetadataBytes), .ok t.unmerged⟩] := by
  obtain ⟨raw, _, _, hasked, hraw, h⟩ := Ends.bind h
  obtain ⟨⟨tracked, metadata⟩, _, _, hasked2, hparsed, h⟩ := Ends.bind h
  obtain ⟨untracked, _, _, hasked3, huntracked, h⟩ := Ends.bind h
  obtain ⟨numstat, _, _, hasked4, hnumstat, h⟩ := Ends.bind h
  obtain ⟨stats, _, _, hasked5, hstats, h⟩ := Ends.bind h
  obtain ⟨unmerged, _, _, hasked6, hunmerged, h⟩ := Ends.bind h
  obtain ⟨hok, hnil⟩ := h.done_inv
  obtain ⟨hparse, hnone⟩ := parsed_inv hparsed
  obtain ⟨_, hnone2⟩ := parsed_inv hstats
  rw [Except.ok.inj hok]
  refine ⟨hparse, ?_⟩
  rw [hasked, hasked2, hasked3, hasked4, hasked5, hasked6, hnil, hnone, hnone2, git_inv hraw,
    git_inv huntracked, git_inv hnumstat, git_inv hunmerged]
  rfl

theorem collectRepositoryDiff_spec {capture : RepositoryCapture}
    (h : Ends (collectRepositoryDiff repository repository.baseSha limits) (.ok capture) asked) :
    ∃ keys, Changes repository limits.maxMetadataBytes asked keys ∧
      Captured limits.maxCaptureBytes (keys.take limits.maxFiles) capture.files ∧
      capture.truncated = decide ((keys.take limits.maxFiles).length < keys.length) ∧
      capture.omittedFileCount = keys.length - (keys.take limits.maxFiles).length := by
  obtain ⟨checkedOut, _, _, hasked, hdir, h⟩ := Ends.bind h
  split at h
  next => cases h
  next hchecked =>
    obtain ⟨probe, _, _, hasked2, hprobe, h⟩ := Ends.bind h
    obtain ⟨head, _, _, hasked3, hhead, h⟩ := Ends.bind h
    split at h
    next => cases h
    next =>
      obtain ⟨t, four, _, hasked4, ht, h⟩ := Ends.bind h
      obtain ⟨runtimePaths, _, rest, hasked5, hruntime, h⟩ := Ends.bind h
      obtain ⟨files, _, _, hasked6, hfiles, h⟩ := Ends.bind h
      obtain ⟨hok, _⟩ := h.done_inv
      have htrue : checkedOut = true := by
        cases checkedOut with
        | true => rfl
        | false => exact absurd rfl hchecked
      have hlistings : Ends (trackedListings repository repository.baseSha limits) (.ok t) four := by
        rcases ht.handle with ht | ⟨e, _, _, _, _, hraise⟩
        · exact ht
        · cases e <;> cases hraise
      obtain ⟨hparse, hfour⟩ := trackedListings_spec hlistings
      have hcaptured := captureFiles_spec hfiles
      let l : Listings :=
        { raw := t.raw, untracked := t.untracked, numstat := t.numstat, unmerged := t.unmerged
          runtimePaths }
      have hlisted : parseRawChanges l.raw = .ok (t.tracked, t.metadata) := hparse
      refine ⟨(l.allChanges t.tracked).map keyOf, ?_, ?_, ?_, ?_⟩
      · rw [hasked, hasked2, hasked3, hasked4, hasked5, hfour, git_inv hprobe, git_inv hhead,
          Ends.perform hdir, Ends.perform hruntime, htrue]
        exact Changes.listed rest hlisted
      · rw [Except.ok.inj hok, ← List.map_take]
        exact hcaptured
      · rw [Except.ok.inj hok, ← List.map_take, List.length_map, List.length_map]
      · rw [Except.ok.inj hok, ← List.map_take, List.length_map, List.length_map]

end Repository

end BackgroundAgents.Sandbox.DiffBundle

import Mathlib.Algebra.Order.BigOperators.Group.List
import Mathlib.Logic.Relation
import BackgroundAgents.Sandbox.CaptureLaws

/-!
# The bundle is bounded and accounts for every change

The final bounding goes by trims (`Trim`): while the bundle is too large it takes the
patch from one file, or, when there is no patch left at all, the last record from one
repository. A trim keeps a bundle within its limits and keeps the accounts of each
repository: its files are the first of its changes, and the others are counted.
-/

namespace BackgroundAgents.Sandbox.DiffBundle

open Programs Programs.Inquiry
open Relation (ReflTransGen)
open GitListings (Text Key)
open DiffCollector

/-! ## Accounts -/

def FileUpload.key (file : FileUpload) : Key := (file.oldPath, file.path)

/-- What a ready repository lists, of changes with these keys. -/
structure Accounted (keys : List Key) (upload : ReadyUpload) : Prop where
  listed : upload.files.map FileUpload.key <+: keys
  counted : upload.files.length + upload.omittedFileCount = keys.length
  truncated : upload.truncated = true ↔ 0 < upload.omittedFileCount
  shown : ∀ file ∈ upload.files, PatchShown file.renderState file.patch

/-- The repositories of the session, what was asked of each in turn, and their uploads. -/
inductive Accounts (repr : Text → Text) (maxMetadataBytes : Nat) :
    Nat → List RepoEntry → List Asked → List RepositoryUpload → Prop where
  | nil (position : Nat) : Accounts repr maxMetadataBytes position [] [] []
  | ready {position : Nat} {repository : RepoEntry} {part later : List Asked} {keys : List Key}
    {upload : ReadyUpload} {rest : List RepoEntry} {uploads : List RepositoryUpload}
    (changes : Changes repository maxMetadataBytes part keys) (accounted : Accounted keys upload)
    (others : Accounts repr maxMetadataBytes (position + 1) rest later uploads) :
    Accounts repr maxMetadataBytes position (repository :: rest) (part ++ later)
      (.ready upload :: uploads)
  | unavailable {position : Nat} {repository : RepoEntry} {part later : List Asked} {e : Failure}
    {limitsLeft : CaptureLimits} {rest : List RepoEntry} {uploads : List RepositoryUpload}
    (failed : Ends (collectRepositoryDiff repository repository.baseSha limitsLeft) (.error e) part)
    (others : Accounts repr maxMetadataBytes (position + 1) rest later uploads) :
    Accounts repr maxMetadataBytes position (repository :: rest) (part ++ later)
      (.unavailable (unavailableUpload repr position repository e) :: uploads)

/-- The number of files in the uploads. -/
def filesListed (uploads : List RepositoryUpload) : Nat :=
  (uploads.map fun repository => repository.files.length).sum

def patchSize (file : FileUpload) : Nat :=
  match file.patch with
  | some patch => utf8Length patch
  | none => 0

def patchSizes (files : List FileUpload) : Nat := (files.map patchSize).sum

/-- The bytes of all patches in the uploads. -/
def patchBytesKept (uploads : List RepositoryUpload) : Nat :=
  (uploads.map fun repository => patchSizes repository.files).sum

/-! ## What is collected -/

theorem patchSizes_fileUpload (files : List CapturedFile) :
    patchSizes (files.map fileUpload) = spentPatchBytes files := by
  unfold patchSizes spentPatchBytes
  rw [List.map_map]
  congr 1
  apply List.map_congr_left
  intro file _
  show patchSize (fileUpload file) = _
  unfold patchSize fileUpload
  dsimp only
  by_cases hstate : file.renderState = .RENDERABLE
  · rw [if_pos hstate]
    cases file.patch with
    | some patch => exact (if_pos hstate).symm
    | none => rfl
  · rw [if_neg hstate]
    cases file.patch with
    | some patch => exact (if_neg hstate).symm
    | none => rfl

theorem fileUpload_shown {file : CapturedFile} (h : PatchShown file.renderState file.patch) :
    PatchShown (fileUpload file).renderState (fileUpload file).patch := by
  show (if file.renderState = .RENDERABLE then file.patch else none).isSome ↔
    file.renderState = .RENDERABLE
  by_cases hstate : file.renderState = .RENDERABLE
  · rw [if_pos hstate]
    exact h
  · rw [if_neg hstate]
    exact iff_of_false Bool.false_ne_true hstate

/-- A fresh capture accounts for its changes. -/
theorem Captured.accounted {remaining maxFiles : Nat} {keys : List Key}
    {capture : RepositoryCapture}
    (h : Captured remaining (keys.take maxFiles) capture.files)
    (htruncated : capture.truncated = decide ((keys.take maxFiles).length < keys.length))
    (homitted : capture.omittedFileCount = keys.length - (keys.take maxFiles).length)
    (position : Nat) (repository : RepoEntry) :
    Accounted keys (readyUpload position repository capture) := by
  have hlength : capture.files.length = (keys.take maxFiles).length := by
    rw [← h.listed, List.length_map]
  have hle : (keys.take maxFiles).length ≤ keys.length := (List.take_prefix _ _).length_le
  refine ⟨?_, ?_, ?_, ?_⟩
  · show (capture.files.map fileUpload).map FileUpload.key <+: keys
    rw [List.map_map]
    show capture.files.map capturedKey <+: keys
    rw [h.listed]
    exact List.take_prefix _ _
  · show (capture.files.map fileUpload).length + capture.omittedFileCount = keys.length
    rw [List.length_map, homitted, hlength]
    omega
  · show capture.truncated = true ↔ 0 < capture.omittedFileCount
    rw [htruncated, homitted, decide_eq_true_iff]
    omega
  · intro file hmem
    obtain ⟨captured, hcaptured, rfl⟩ := List.mem_map.mp hmem
    exact fileUpload_shown (h.shown captured hcaptured)

structure Collected (repr : Text → Text) (limits : CaptureLimits) (position remainingFiles : Nat)
    (remainingPatchBytes : Nat) (repositories : List RepoEntry) (asked : List Asked)
    (uploads : List RepositoryUpload) : Prop where
  accounts : Accounts repr limits.maxMetadataBytes position repositories asked uploads
  files : filesListed uploads ≤ remainingFiles
  bytes : patchBytesKept uploads ≤ remainingPatchBytes

theorem collectUploads_spec {repr : Text → Text} {limits : CaptureLimits} :
    ∀ {repositories : List RepoEntry} {position remainingFiles remainingPatchBytes : Nat}
      {uploads : List RepositoryUpload} {asked : List Asked},
      Ends (collectUploads repr limits repositories position remainingFiles remainingPatchBytes)
        (.ok uploads) asked →
      Collected repr limits position remainingFiles remainingPatchBytes repositories asked uploads
  | [], position, _, _, _, _, h => by
    obtain ⟨hok, hnil⟩ := h.done_inv
    rw [Except.ok.inj hok, hnil]
    exact ⟨.nil position, Nat.zero_le _, Nat.zero_le _⟩
  | repository :: rest, position, remainingFiles, remainingPatchBytes, uploads, asked, h => by
    unfold collectUploads at h
    split at h
    next => cases h
    next =>
      obtain ⟨outcome, part, later, hasked, houtcome, h⟩ := Ends.bind h
      cases outcome with
      | error e =>
        obtain ⟨others, later, _, hlater, hothers, h⟩ := Ends.bind h
        obtain ⟨hok, hnil⟩ := h.done_inv
        have ih := collectUploads_spec hothers
        rw [Except.ok.inj hok, hasked, hlater, hnil, List.append_nil]
        refine ⟨.unavailable houtcome.attempt ih.accounts, ?_, ?_⟩
        · show 0 + filesListed others ≤ remainingFiles
          have hfiles := ih.files
          omega
        · show 0 + patchBytesKept others ≤ remainingPatchBytes
          have hbytes := ih.bytes
          omega
      | ok capture =>
        obtain ⟨others, later, _, hlater, hothers, h⟩ := Ends.bind h
        obtain ⟨hok, hnil⟩ := h.done_inv
        have ih := collectUploads_spec hothers
        obtain ⟨keys, hchanges, hcaptured, htruncated, homitted⟩ :=
          collectRepositoryDiff_spec houtcome.attempt
        rw [Except.ok.inj hok, hasked, hlater, hnil, List.append_nil]
        refine ⟨.ready hchanges (hcaptured.accounted htruncated homitted _ _) ih.accounts, ?_, ?_⟩
        · show (capture.files.map fileUpload).length + filesListed others ≤ remainingFiles
          have hlength : capture.files.length = (keys.take remainingFiles).length := by
            rw [← hcaptured.listed, List.length_map]
          have htake := List.length_take_le remainingFiles keys
          have hfiles := ih.files
          rw [List.length_map]
          omega
        · show patchSizes (capture.files.map fileUpload) + patchBytesKept others ≤
            remainingPatchBytes
          have hspent : spentPatchBytes capture.files ≤ remainingPatchBytes := hcaptured.spent
          have hbytes := ih.bytes
          rw [patchSizes_fileUpload]
          omega

/-! ## Trims -/

/-- No file has a patch. -/
def Bare (bundle : Bundle) : Prop :=
  ∀ repository ∈ bundle.repositories, ∀ file ∈ repository.files, file.patch = none

inductive Trim (maxBundleBytes : Nat) : Bundle → Bundle → Prop where
  | patch {bundle : Bundle} (i j : Nat) (large : maxBundleBytes < encodedSize bundle) :
    Trim maxBundleBytes bundle (bundle.modifyReady i (·.withoutPatch j))
  | record {bundle : Bundle} (i : Nat) (large : maxBundleBytes < encodedSize bundle)
    (bare : Bare bundle) (present : 0 < fileCount bundle i) :
    Trim maxBundleBytes bundle (bundle.modifyReady i ReadyUpload.withoutLast)

theorem sum_modify_le {α : Type} {measure : α → Nat} {f : α → α}
    (h : ∀ a, measure (f a) ≤ measure a) : ∀ (l : List α) (i : Nat),
    ((l.modify i f).map measure).sum ≤ (l.map measure).sum
  | [], i => by
    rw [List.modify_nil]
  | a :: l, 0 => by
    rw [List.modify_zero_cons, List.map_cons, List.map_cons, List.sum_cons, List.sum_cons]
    exact Nat.add_le_add_right (h a) _
  | a :: l, i + 1 => by
    rw [List.modify_succ_cons, List.map_cons, List.map_cons, List.sum_cons, List.sum_cons]
    exact Nat.add_le_add_left (sum_modify_le h l i) _

theorem withoutPatch_key (file : FileUpload) : file.withoutPatch.key = file.key := rfl

theorem map_modify {α β : Type} {f : α → α} {g : α → β} (h : ∀ a, g (f a) = g a) :
    ∀ (l : List α) (i : Nat), (l.modify i f).map g = l.map g
  | [], i => by
    rw [List.modify_nil]
  | a :: l, 0 => by
    rw [List.modify_zero_cons, List.map_cons, List.map_cons, h]
  | a :: l, i + 1 => by
    rw [List.modify_succ_cons, List.map_cons, List.map_cons, map_modify h l i]

theorem mem_modify {α : Type} {f : α → α} {b : α} : ∀ {l : List α} {i : Nat},
    b ∈ l.modify i f → b ∈ l ∨ ∃ a ∈ l, b = f a
  | [], i, h => by
    rw [List.modify_nil] at h
    exact .inl h
  | a :: l, 0, h => by
    rw [List.modify_zero_cons] at h
    rcases List.mem_cons.mp h with heq | hmem
    · exact .inr ⟨a, List.mem_cons_self, heq⟩
    · exact .inl (List.mem_cons_of_mem _ hmem)
  | a :: l, i + 1, h => by
    rw [List.modify_succ_cons] at h
    rcases List.mem_cons.mp h with heq | hmem
    · exact .inl (heq ▸ List.mem_cons_self)
    · rcases mem_modify hmem with hsame | ⟨c, hc, hf⟩
      · exact .inl (List.mem_cons_of_mem _ hsame)
      · exact .inr ⟨c, List.mem_cons_of_mem _ hc, hf⟩

theorem Accounted.withoutPatch {keys : List Key} {upload : ReadyUpload}
    (h : Accounted keys upload) (j : Nat) : Accounted keys (upload.withoutPatch j) := by
  refine ⟨?_, ?_, h.truncated, ?_⟩
  · show (upload.files.modify j FileUpload.withoutPatch).map FileUpload.key <+: keys
    rw [map_modify withoutPatch_key]
    exact h.listed
  · show (upload.files.modify j FileUpload.withoutPatch).length + upload.omittedFileCount = _
    rw [List.length_modify]
    exact h.counted
  · intro file hmem
    rcases mem_modify hmem with hsame | ⟨old, _, rfl⟩
    · exact h.shown file hsame
    · exact iff_of_false Bool.false_ne_true RenderState.noConfusion

theorem Accounted.withoutLast {keys : List Key} {upload : ReadyUpload}
    (h : Accounted keys upload) (hfiles : 0 < upload.files.length) :
    Accounted keys upload.withoutLast := by
  refine ⟨?_, ?_, ?_, ?_⟩
  · show upload.files.dropLast.map FileUpload.key <+: keys
    rw [List.map_dropLast]
    exact (List.dropLast_prefix _).trans h.listed
  · show upload.files.dropLast.length + (upload.omittedFileCount + 1) = keys.length
    have hcounted := h.counted
    rw [List.length_dropLast]
    omega
  · exact iff_of_true rfl (Nat.succ_pos _)
  · intro file hmem
    exact h.shown file (List.mem_of_mem_dropLast hmem)

section Modify

variable {repr : Text → Text} {maxMetadataBytes : Nat} {f : ReadyUpload → ReadyUpload}

/-- The accounts stay, whatever is done to one repository that keeps its own. -/
theorem Accounts.modify {position : Nat} {repositories : List RepoEntry} {asked : List Asked}
    {uploads : List RepositoryUpload}
    (h : Accounts repr maxMetadataBytes position repositories asked uploads) :
    ∀ {i : Nat}, (∀ upload keys, uploads[i]? = some (.ready upload) → Accounted keys upload →
        Accounted keys (f upload)) →
      Accounts repr maxMetadataBytes position repositories asked
        (uploads.modify i (·.modifyReady f)) := by
  induction h with
  | nil position =>
    intro i _
    rw [List.modify_nil]
    exact .nil position
  | @ready position repository part later keys upload rest uploads changes accounted others ih =>
    intro i hf
    cases i with
    | zero => exact .ready changes (hf upload keys rfl accounted) others
    | succ i => exact .ready changes accounted (ih hf)
  | unavailable failed others ih =>
    intro i hf
    cases i with
    | zero => exact .unavailable failed others
    | succ i => exact .unavailable failed (ih hf)

end Modify

theorem patchSizes_withoutPatch (upload : ReadyUpload) (j : Nat) :
    patchSizes (upload.withoutPatch j).files ≤ patchSizes upload.files := by
  apply sum_modify_le
  intro file
  exact Nat.zero_le _

theorem patchSizes_withoutLast (upload : ReadyUpload) :
    patchSizes upload.withoutLast.files ≤ patchSizes upload.files := by
  have hsublist : (upload.files.dropLast.map patchSize).Sublist (upload.files.map patchSize) :=
    (List.dropLast_sublist _).map _
  exact hsublist.sum_le_sum fun _ _ => Nat.zero_le _

/-- Nothing of the uploads grows when one of them does not. -/
theorem modifyReady_le {measure : List FileUpload → Nat} {f : ReadyUpload → ReadyUpload}
    (h : ∀ upload, measure (f upload).files ≤ measure upload.files)
    (uploads : List RepositoryUpload) (i : Nat) :
    ((uploads.modify i (·.modifyReady f)).map fun repository => measure repository.files).sum ≤
      (uploads.map fun repository => measure repository.files).sum := by
  apply sum_modify_le
  intro repository
  cases repository with
  | ready upload => exact h upload
  | unavailable upload => exact Nat.le_refl _

section Bounding

variable {repr : Text → Text} {limits : CaptureLimits} {repositories : List RepoEntry}
variable {asked : List Asked} {maxBundleBytes : Nat}

/-- A bundle within the limits, with the accounts of its repositories. -/
abbrev Kept (repr : Text → Text) (limits : CaptureLimits) (repositories : List RepoEntry)
    (asked : List Asked) (bundle : Bundle) : Prop :=
  Collected repr limits 0 limits.maxFiles limits.maxCaptureBytes repositories asked
    bundle.repositories

theorem Trim.kept {before after : Bundle} (h : Trim maxBundleBytes before after)
    (hkept : Kept repr limits repositories asked before) :
    Kept repr limits repositories asked after := by
  cases h with
  | patch i j large =>
    refine ⟨hkept.accounts.modify fun upload keys _ h => h.withoutPatch j, ?_, ?_⟩
    · refine Nat.le_trans (modifyReady_le (fun upload => ?_) _ i) hkept.files
      show (upload.files.modify j FileUpload.withoutPatch).length ≤ _
      rw [List.length_modify]
    · exact Nat.le_trans (modifyReady_le (patchSizes_withoutPatch · j) _ i) hkept.bytes
  | record i large bare present =>
    refine ⟨hkept.accounts.modify fun upload keys hready h => h.withoutLast ?_, ?_, ?_⟩
    · unfold fileCount at present
      rw [hready] at present
      exact present
    · refine Nat.le_trans (modifyReady_le (fun upload => ?_) _ i) hkept.files
      show upload.files.dropLast.length ≤ _
      rw [List.length_dropLast]
      omega
    · exact Nat.le_trans (modifyReady_le patchSizes_withoutLast _ i) hkept.bytes

theorem trims_kept {before after : Bundle} (h : ReflTransGen (Trim maxBundleBytes) before after)
    (hkept : Kept repr limits repositories asked before) :
    Kept repr limits repositories asked after := by
  induction h with
  | refl => exact hkept
  | tail _ trim ih => exact trim.kept ih

end Bounding

end BackgroundAgents.Sandbox.DiffBundle

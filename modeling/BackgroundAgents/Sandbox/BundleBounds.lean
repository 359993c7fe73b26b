import BackgroundAgents.Sandbox.BundleLaws

/-!
# The final bounding

`_bound_encoded_bundle` trims: it goes through all patches that the bundle has
(`mem_patches`), so that there is none left when it comes to the records
(`shedPatches_bare`), and a record that it drops is there (`dropFiles_trims`).
-/

namespace BackgroundAgents.Sandbox.DiffBundle

open Programs Programs.Inquiry
open Relation (ReflTransGen)
open GitListings (Text Key)
open DiffCollector

variable (maxBundleBytes : Nat)

/-! ## Where the patches are -/

/-- The file at a place has a patch. -/
def HasPatch (uploads : List RepositoryUpload) (i j : Nat) : Prop :=
  ∃ repository file, uploads[i]? = some repository ∧ repository.files[j]? = some file ∧
    file.patch ≠ none

theorem mem_patchesOfFiles (i : Nat) : ∀ {files : List FileUpload} {j : Nat} {file : FileUpload}
    (start : Nat), files[j]? = some file → file.patch ≠ none →
    ∃ size, (size, (i, start + j)) ∈ patchesOfFiles i files start
  | [], _, _, _, hfile, _ => by cases hfile
  | first :: rest, 0, file, start, hfile, hpatch => by
    cases hfile
    unfold patchesOfFiles
    cases h : first.patch with
    | some patch => exact ⟨utf8Length patch, List.mem_cons_self⟩
    | none => exact absurd h hpatch
  | first :: rest, j + 1, file, start, hfile, hpatch => by
    have hrest : rest[j]? = some file := hfile
    obtain ⟨size, hmem⟩ := mem_patchesOfFiles i (start + 1) hrest hpatch
    rw [show start + 1 + j = start + (j + 1) by omega] at hmem
    unfold patchesOfFiles
    cases first.patch with
    | some patch => exact ⟨size, List.mem_cons_of_mem _ hmem⟩
    | none => exact ⟨size, hmem⟩

theorem mem_patches : ∀ {uploads : List RepositoryUpload} {i j : Nat} (start : Nat),
    HasPatch uploads i j → ∃ size, (size, (start + i, j)) ∈ patches uploads start
  | [], _, _, _, h => by
    obtain ⟨_, _, hrepository, _, _⟩ := h
    cases hrepository
  | first :: rest, 0, j, start, h => by
    obtain ⟨repository, file, hrepository, hfile, hpatch⟩ := h
    cases hrepository
    obtain ⟨size, hmem⟩ := mem_patchesOfFiles start 0 hfile hpatch
    rw [Nat.zero_add] at hmem
    exact ⟨size, List.mem_append_left _ hmem⟩
  | first :: rest, i + 1, j, start, h => by
    have hrest : HasPatch rest i j := h
    obtain ⟨size, hmem⟩ := mem_patches (start + 1) hrest
    rw [show start + 1 + i = start + (i + 1) by omega] at hmem
    exact ⟨size, List.mem_append_right _ hmem⟩

theorem mem_largestFirst {found : List (Nat × Place)} {entry : Nat × Place} :
    entry ∈ largestFirst found ↔ entry ∈ found := List.mem_insertionSort _

theorem bare_of_hasPatch {bundle : Bundle} (h : ∀ i j, ¬ HasPatch bundle.repositories i j) :
    Bare bundle := by
  intro repository hrepository file hfile
  obtain ⟨i, hi⟩ := List.mem_iff_getElem?.mp hrepository
  obtain ⟨j, hj⟩ := List.mem_iff_getElem?.mp hfile
  by_contra hpatch
  exact h i j ⟨repository, file, hi, hj, hpatch⟩

/-- A patch that is still there was there before, at another place than the one cleared. -/
theorem hasPatch_withoutPatch {uploads : List RepositoryUpload} {i j a b : Nat}
    (h : HasPatch (uploads.modify i (·.modifyReady (·.withoutPatch j))) a b) :
    HasPatch uploads a b ∧ (a, b) ≠ (i, j) := by
  obtain ⟨repository, file, hrepository, hfile, hpatch⟩ := h
  by_cases hi : i = a
  · subst hi
    rw [List.getElem?_modify_eq] at hrepository
    obtain ⟨old, hold, rfl⟩ := Option.map_eq_some_iff.mp hrepository
    cases old with
    | unavailable upload => cases hfile
    | ready upload =>
      have hmodified : (upload.files.modify j FileUpload.withoutPatch)[b]? = some file := hfile
      by_cases hj : j = b
      · subst hj
        rw [List.getElem?_modify_eq] at hmodified
        obtain ⟨cleared, _, rfl⟩ := Option.map_eq_some_iff.mp hmodified
        exact absurd rfl hpatch
      · rw [List.getElem?_modify_ne _ _ hj] at hmodified
        exact ⟨⟨_, file, hold, hmodified, hpatch⟩, fun heq => hj (congrArg Prod.snd heq).symm⟩
  · rw [List.getElem?_modify_ne _ _ hi] at hrepository
    exact ⟨⟨repository, file, hrepository, hfile, hpatch⟩,
      fun heq => hi (congrArg Prod.fst heq).symm⟩

/-! ## Shedding patches -/

theorem shedPatches_trims : ∀ (found : List (Nat × Place)) (bundle : Bundle),
    ReflTransGen (Trim maxBundleBytes) bundle (shedPatches maxBundleBytes found bundle)
  | [], _ => .refl
  | (_, i, j) :: rest, bundle => by
    unfold shedPatches
    split
    next => exact .refl
    next hlarge => exact .head (.patch i j (by omega)) (shedPatches_trims rest _)

theorem shedPatches_hasPatch : ∀ (found : List (Nat × Place)) (bundle : Bundle),
    encodedSize (shedPatches maxBundleBytes found bundle) ≤ maxBundleBytes ∨
      ∀ i j, HasPatch (shedPatches maxBundleBytes found bundle).repositories i j →
        HasPatch bundle.repositories i j ∧ ∀ size, (size, (i, j)) ∉ found
  | [], bundle => .inr fun _ _ h => ⟨h, fun _ => List.not_mem_nil⟩
  | (size, i, j) :: rest, bundle => by
    unfold shedPatches
    split
    next hfits => exact .inl hfits
    next =>
      rcases shedPatches_hasPatch rest (bundle.modifyReady i (·.withoutPatch j)) with hfits | hleft
      · exact .inl hfits
      · refine .inr fun a b h => ?_
        obtain ⟨hbefore, hrest⟩ := hleft a b h
        obtain ⟨hhad, hne⟩ := hasPatch_withoutPatch hbefore
        refine ⟨hhad, fun other hmem => ?_⟩
        rcases List.mem_cons.mp hmem with heq | hmem
        · exact hne (congrArg Prod.snd heq)
        · exact hrest other hmem

/-- When the bundle is still too large, all patches are gone. -/
theorem shedPatches_bare {maxBundleBytes : Nat} {bundle : Bundle}
    (h : maxBundleBytes < encodedSize (shedPatches maxBundleBytes
      (largestFirst (patches bundle.repositories 0)) bundle)) :
    Bare (shedPatches maxBundleBytes (largestFirst (patches bundle.repositories 0)) bundle) := by
  apply bare_of_hasPatch
  intro i j hpatch
  rcases shedPatches_hasPatch maxBundleBytes
    (largestFirst (patches bundle.repositories 0)) bundle with hfits | hleft
  · omega
  · obtain ⟨hhad, hnone⟩ := hleft i j hpatch
    obtain ⟨size, hmem⟩ := mem_patches 0 hhad
    rw [Nat.zero_add] at hmem
    exact hnone size (mem_largestFirst.mpr hmem)

/-! ## Dropping records -/

theorem bare_withoutLast {bundle : Bundle} (h : Bare bundle) (i : Nat) :
    Bare (bundle.modifyReady i ReadyUpload.withoutLast) := by
  intro repository hmem file hfile
  rcases mem_modify hmem with hsame | ⟨old, hold, rfl⟩
  · exact h repository hsame file hfile
  · cases old with
    | ready upload => exact h _ hold file (List.mem_of_mem_dropLast hfile)
    | unavailable upload => exact h _ hold file hfile

theorem fileCount_withoutLast (bundle : Bundle) (i : Nat) :
    fileCount (bundle.modifyReady i ReadyUpload.withoutLast) i = fileCount bundle i - 1 := by
  unfold fileCount Bundle.modifyReady
  rw [List.getElem?_modify_eq]
  cases bundle.repositories[i]? with
  | none => rfl
  | some repository =>
    cases repository with
    | ready upload => exact List.length_dropLast
    | unavailable upload => rfl

theorem dropFiles_trims (i : Nat) : ∀ {count : Nat} {bundle : Bundle}, Bare bundle →
    count ≤ fileCount bundle i →
    ReflTransGen (Trim maxBundleBytes) bundle (dropFiles maxBundleBytes i count bundle) ∧
      Bare (dropFiles maxBundleBytes i count bundle)
  | 0, _, hbare, _ => ⟨.refl, hbare⟩
  | count + 1, bundle, hbare, hcount => by
    unfold dropFiles
    split
    next hlarge =>
      have hleft : count ≤ fileCount (bundle.modifyReady i ReadyUpload.withoutLast) i := by
        rw [fileCount_withoutLast]
        omega
      obtain ⟨htrims, hafter⟩ := dropFiles_trims i (bare_withoutLast hbare i) hleft
      exact ⟨.head (.record i hlarge hbare (by omega)) htrims, hafter⟩
    next => exact ⟨.refl, hbare⟩

theorem dropRecords_trims : ∀ {places : List Nat} {bundle : Bundle}, Bare bundle →
    ReflTransGen (Trim maxBundleBytes) bundle (dropRecords maxBundleBytes places bundle)
  | [], _, _ => .refl
  | i :: rest, bundle, hbare => by
    obtain ⟨htrims, hafter⟩ :=
      dropFiles_trims maxBundleBytes i hbare (Nat.le_refl (fileCount bundle i))
    exact htrims.trans (dropRecords_trims hafter)

theorem boundEncodedBundle_trims {maxBundleBytes : Nat} {drafted bundle : Bundle}
    (h : boundEncodedBundle drafted maxBundleBytes = .ok bundle) :
    ReflTransGen (Trim maxBundleBytes) drafted bundle ∧ encodedSize bundle ≤ maxBundleBytes := by
  have hshed := shedPatches_trims maxBundleBytes
    (largestFirst (patches drafted.repositories 0)) drafted
  unfold boundEncodedBundle at h
  dsimp only at h
  split at h
  next hfits =>
    rw [← Except.ok.inj h]
    exact ⟨hshed, hfits⟩
  next hlarge =>
    split at h
    next => cases h
    next hfits =>
      rw [← Except.ok.inj h]
      exact ⟨hshed.trans (dropRecords_trims maxBundleBytes (shedPatches_bare (by omega))), by omega⟩

/-! ## The bundle -/

/-- What is returned keeps to its limits and accounts for every change of the ready
repositories; it was cut from the uploads by trims alone. -/
theorem bundle_accounts {repr : Text → Text} {repositories : List RepoEntry}
    {triggerMessageId : Option Text} {capturedAt : Int} {limits : Option CaptureLimits}
    {bundle : Bundle} {asked : List Asked}
    (h : Ends (collectSessionDiffBundle repr repositories triggerMessageId capturedAt limits)
      (.ok bundle) asked) :
    encodedSize bundle ≤ (limits.getD defaults).maxBundleBytes ∧
      filesListed bundle.repositories ≤ (limits.getD defaults).maxFiles ∧
      patchBytesKept bundle.repositories ≤ (limits.getD defaults).maxCaptureBytes ∧
      Accounts repr (limits.getD defaults).maxMetadataBytes 0 repositories asked
        bundle.repositories ∧
      ∃ uploads,
        Ends (collectUploads repr (limits.getD defaults) repositories 0
          (limits.getD defaults).maxFiles (limits.getD defaults).maxCaptureBytes)
          (.ok uploads) asked ∧
        ReflTransGen (Trim (limits.getD defaults).maxBundleBytes)
          { triggerMessageId, capturedAt, repositories := uploads } bundle := by
  obtain ⟨uploads, first, second, hasked, huploads, hbound⟩ := Ends.bind h
  obtain ⟨hok, hnil⟩ := Ends.ofExcept hbound
  rw [hnil, List.append_nil] at hasked
  rw [← hasked] at huploads
  obtain ⟨htrims, hsize⟩ := boundEncodedBundle_trims hok
  have hkept := trims_kept htrims (collectUploads_spec huploads)
  exact ⟨hsize, hkept.files, hkept.bytes, hkept.accounts, uploads, huploads, htrims⟩

/-! ### An edited and an added file -/

def editedRepository : RepoEntry where
  owner := asText "o"
  name := asText "r"
  path := asText "/w"
  baseSha := asText "b"

def editedAnswer : (o : Question) → Except Failure (Answer o)
  | .isDir _ => .ok true
  | .git _ .revParseHead _ => .ok (Utf8.encode (asText "h"))
  | .git _ (.rawDiff _) _ => .ok (Utf8.encode (asText ":100644 100644 1 2 M\x00a\x00"))
  | .git _ .untrackedFiles _ => .ok (Utf8.encode (asText "c\x00"))
  | .git _ (.numstat _) _ => .ok (Utf8.encode (asText "1\t0\ta\x00"))
  | .git _ (.untrackedStats _) _ => .ok (Utf8.encode (asText "1\t0\tc"))
  | .git _ (.trackedPatch _ _ _) _ => .ok (Utf8.encode (asText "\n@@ a"))
  | .git _ (.untrackedPatch _) _ => .ok (Utf8.encode (asText "\n@@ c"))
  | .git _ _ _ => .ok []
  | .runtimeExcludes _ => .ok []
  | .uuid4 => .ok (asText "i")

def editedLimits : CaptureLimits := { defaults with maxBundleBytes := 380 }

/-- Both patches are gone, and one of the two records. -/
def editedBundle : Bundle where
  triggerMessageId := none
  capturedAt := 0
  repositories :=
    [.ready
      { position := 0
        repoOwner := asText "o"
        repoName := asText "r"
        baseSha := asText "b"
        headSha := asText "h"
        truncated := true
        omittedFileCount := 1
        files :=
          [{ id := asText "i"
             path := asText "a"
             status := .MODIFIED
             additions := some 1
             deletions := some 0
             renderState := .TOO_LARGE
             oldPath := none
             patch := none
             oldMode := none
             newMode := none
             oldSubmoduleSha := none
             newSubmoduleSha := none }] }]

def editedRun : Collector Bundle :=
  collectSessionDiffBundle id [editedRepository] none 0 (some editedLimits)

theorem editedRun_ok : editedRun.run editedAnswer = .ok editedBundle := by
  have hsome : (editedRun.run editedAnswer).toOption = some editedBundle := by decide +kernel
  cases hrun : editedRun.run editedAnswer with
  | ok bundle =>
    rw [hrun] at hsome
    exact congrArg Except.ok (Option.some.inj hsome)
  | error e =>
    rw [hrun] at hsome
    cases hsome

theorem editedRun_ends :
    Ends editedRun (.ok editedBundle) (editedRun.transcript editedAnswer) := by
  rw [← editedRun_ok]
  exact ends_run editedAnswer editedRun

theorem edited_bundle_accounts :
    encodedSize editedBundle ≤ 380 ∧ filesListed editedBundle.repositories ≤ 1000 ∧
      Accounts id 8000000 0 [editedRepository] (editedRun.transcript editedAnswer)
        editedBundle.repositories :=
  have h := bundle_accounts editedRun_ends
  ⟨h.1, h.2.1, h.2.2.2.1⟩

end BackgroundAgents.Sandbox.DiffBundle
